import Mathlib.Algebra.Group.Nat.Defs
import Optee.TeeResult

/-! Parameters of the messages of the normal world, and the references to memory objects taken for them. -/

namespace Optee.Entry

structure Config where
  coreFfa : Bool
  coreDynShm : Bool
  coreReservedShm : Bool
  secureDataPath : Bool

structure MsgParam where
  attr : UInt64
  a : UInt64
  b : UInt64
  c : UInt64

structure Mobj where
  id : ℕ
  size : ℕ
  deriving DecidableEq

structure Area where
  mobj : Mobj
  pa : ℕ

structure Env where
  mobjFromNoncontig : (pa size shmRef : UInt64) → Option Mobj
  shmMobj : Area
  sdpMemMobjs : List Area
  mobjRegShmGetByCookie : UInt64 → Option Mobj
  mobjFfaGetByCookie : (globalId internalOffs : UInt64) → Option Mobj

def attrTypeMask : UInt64 := 0xff
def attrMeta : UInt64 := 0x100
def attrNoncontig : UInt64 := 0x200
def typeValueInput : UInt64 := 0x1
def typeRmemInput : UInt64 := 0x5
def typeTmemInput : UInt64 := 0x9
def numParamsMax : ℕ := 4
def fmemInvalidGlobalId : UInt64 := 0xffffffffffffffff

structure ParamMem where
  mobj : Option Mobj
  offs : UInt64
  size : UInt64

def ParamMem.null : ParamMem := ⟨none, 0, 0⟩

inductive Slot
  | val (a b : UInt64)
  | mem (m : ParamMem)

def Slot.mobj : Slot → Option Mobj
  | .val _ _ => none
  | .mem m => m.mobj

structure Set where
  slot : Slot
  error : Option TeeError

section Setters

variable (cfg : Config) (env : Env)

def inside (pa size : ℕ) (area : Area) : Bool := area.pa ≤ pa ∧ pa + max size 1 ≤ area.pa + area.mobj.size

def paramMemFromMobj (area : Area) (pa size : UInt64) : Option ParamMem :=
  if inside pa.toNat size.toNat area then some ⟨some area.mobj, pa - UInt64.ofNat area.pa, size⟩ else none

def setTmemParam (p : MsgParam) : Set :=
  if p.a = 0 then ⟨.mem .null, none⟩
  else if p.attr &&& attrNoncontig ≠ 0 then
    match env.mobjFromNoncontig p.a p.b p.c with
    | none => ⟨.mem .null, some .badParameters⟩
    | some m => ⟨.mem ⟨some m, 0, p.b⟩, none⟩
  else
    let areas := (if cfg.coreReservedShm then [env.shmMobj] else []) ++ if cfg.secureDataPath then env.sdpMemMobjs else []
    match areas.findSome? (fun area => paramMemFromMobj area p.a p.b) with
    | none => ⟨.mem .null, some .badParameters⟩
    | some mem => ⟨.mem mem, none⟩

def checked (m : Mobj) (offs size : UInt64) : Set :=
  ⟨.mem ⟨some m, offs, size⟩, if offs.toNat + size.toNat ≥ 2 ^ 64 ∨ m.size < offs.toNat + size.toNat then some .security else none⟩

def setRmemParam (p : MsgParam) : Set :=
  match env.mobjRegShmGetByCookie p.c with
  | none => ⟨.mem .null, some .badParameters⟩
  | some m => checked m p.a p.b

def setFmemParam (p : MsgParam) : Set :=
  if p.c = fmemInvalidGlobalId ∧ p.b = 0 then ⟨.mem .null, none⟩
  else match env.mobjFfaGetByCookie p.c (p.a >>> 48) with
    | none => ⟨.mem .null, some .badParameters⟩
    | some m => checked m (p.a &&& 0xffffffffffff) p.b

def setParam (p : MsgParam) : Set :=
  if p.attr &&& attrMeta ≠ 0 then ⟨.mem .null, some .badParameters⟩
  else
    let type := p.attr &&& attrTypeMask
    if type = 0 then ⟨.mem .null, none⟩
    else if type = 1 ∨ type = 2 ∨ type = 3 then ⟨.val p.a p.b, none⟩
    else if cfg.coreFfa then
      if type = 5 ∨ type = 6 ∨ type = 7 then setFmemParam env p else ⟨.mem .null, some .badParameters⟩
    else if type = 9 ∨ type = 10 ∨ type = 11 then setTmemParam cfg env p
    else if cfg.coreDynShm ∧ (type = 5 ∨ type = 6 ∨ type = 7) then setRmemParam env p
    else ⟨.mem .null, some .badParameters⟩

structure CopyIn where
  savedAttr : List UInt64
  u : List Slot
  types : List UInt64
  error : Option TeeError

def paramType (attr : UInt64) : UInt64 :=
  let type := attr &&& attrTypeMask
  if type = 0 then 0
  else if type ≤ 3 then 1 + type - typeValueInput
  else if type ≤ 7 then 5 + type - typeRmemInput
  else 5 + type - typeTmemInput

def copyIn : List MsgParam → CopyIn
  | [] => ⟨[], [], [], none⟩
  | p :: ps =>
    let set := setParam cfg env p
    match set.error with
    | some e => ⟨[p.attr], [set.slot], [], some e⟩
    | none =>
      let rest := copyIn ps
      ⟨p.attr :: rest.savedAttr, set.slot :: rest.u, paramType p.attr :: rest.types, rest.error⟩

def copyInParams (u : List Slot) (params : List MsgParam) : CopyIn :=
  if params.length > numParamsMax then ⟨List.replicate numParamsMax 0, u, [], some .badParameters⟩
  else
    let done := copyIn cfg env params
    ⟨done.savedAttr.rightpad numParamsMax 0, done.u.rightpad numParamsMax (.mem .null), done.types.rightpad numParamsMax 0,
      done.error⟩

def putsRef (attr : UInt64) : Bool :=
  attr = 9 ∨ attr = 10 ∨ attr = 11 ∨ cfg.coreDynShm ∧ (attr = 5 ∨ attr = 6 ∨ attr = 7)

structure Stack where
  savedAttr : ℕ → UInt64
  u : ℕ → Slot

def cleanupShmRefs (stack : Stack) (savedAttr : List UInt64) (u : List Slot) (n : ℕ) : List Mobj :=
  (List.range n).filterMap (fun i =>
    if putsRef cfg (savedAttr.getD i (stack.savedAttr i)) then (u.getD i (stack.u i)).mobj else none)

end Setters

/-- The references taken and given back, and the places of `saved_attr` and `param->u` that were used. -/
structure Trace where
  obtained : List Mobj
  dropped : List Mobj
  indices : List ℕ
  error : Option TeeError

inductive Call
  | openSession
  | invokeCommand

def loginPublic : UInt64 := 0
def loginReeKernel : UInt64 := 0x80000000
def loginTypes : List UInt64 := [loginPublic, 1, 2, 4, 5, 6, loginReeKernel]

def Call.body : Call → List MsgParam → TeeResult (List MsgParam)
  | .invokeCommand, params => .ok params
  | .openSession, p₀ :: p₁ :: params =>
    if p₀.attr ≠ attrMeta ||| typeValueInput ∨ p₁.attr ≠ attrMeta ||| typeValueInput then .error .badParameters
    else if p₁.c &&& 0xffffffff ∈ loginTypes then .ok params
    else .error .badParameters
  | .openSession, _ => .error .badParameters

section Entry

variable (cfg : Config) (env : Env) (stack : Stack)

def obtained (params : List MsgParam) : List Mobj :=
  if params.length > numParamsMax then [] else (copyIn cfg env params).u.filterMap Slot.mobj

/-- `entry_open_session` and `entry_invoke_command`; `later` is the result of what follows. -/
def entry (call : Call) (params : List MsgParam) (u : List Slot) (later : Option TeeError) : Trace :=
  match call.body params with
  | .error e => ⟨[], [], [], some e⟩
  | .ok body =>
    let done := copyInParams cfg env u body
    let loop := if body.length > numParamsMax then [] else List.range done.savedAttr.length
    ⟨obtained cfg env body, cleanupShmRefs cfg stack done.savedAttr done.u body.length, loop ++ List.range body.length,
      done.error.or later⟩

end Entry

end Optee.Entry
