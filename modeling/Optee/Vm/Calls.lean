import Optee.Vm.Regions

/-! The calls of `vm.c` on the address space of a user mode context. -/

namespace Optee.Vm

structure ParamMem where
  mobj : Option Mobj
  offs : ℕ
  size : ℕ

structure KernelMap where
  mobj : Mobj
  offset : ℕ
  va : ℕ
  size : ℕ

variable (cfg : Config)

def vmMap (va len : ℕ) (prot flags : UInt32) (mobj : Mobj) (offs : ℕ) : UserMode ℕ :=
  vmMapPad cfg va len prot flags mobj offs 0 0 0

def isEphemeral (r : Region) : Bool := r.flags &&& Flag.ephemeral ≠ 0

def vmCleanParam : UserMode Unit := modify fun s => { s with regions := s.regions.filter fun r => !isEphemeral r }

def mappedMem (p : ParamMem) : Option (Mobj × ℕ × ℕ) :=
  p.mobj.map fun mobj =>
    let start := (mobj.physOffs + p.offs) % cfg.wordSize
    let offs := rounddown start smallPageSize
    let size := roundupPage cfg ((start - offs + p.size) % cfg.wordSize)
    (mobj, offs, if size = 0 then smallPageSize else size)

def cmpParamMem (m₀ m₁ : Mobj × ℕ × ℕ) : Bool :=
  if m₀.1.secure ≠ m₁.1.secure then !m₀.1.secure
  else if m₀.1.ptr ≠ m₁.1.ptr then m₀.1.ptr ≤ m₁.1.ptr
  else if m₀.2.1 ≠ m₁.2.1 then m₀.2.1 ≤ m₁.2.1
  else m₀.2.2 ≤ m₁.2.2

def buffersIntersect (b bl a al : ℕ) : Bool :=
  bl ≠ 0 && al ≠ 0 && b + bl - 1 < cfg.wordSize && a + al - 1 < cfg.wordSize && a ≤ b + bl - 1 && b ≤ a + al - 1

def mergeParams (m : Mobj × ℕ × ℕ) : List (Mobj × ℕ × ℕ) → List (Mobj × ℕ × ℕ)
  | [] => [m]
  | n :: ns =>
    if n.1 = m.1 ∧ (n.2.1 = (m.2.1 + m.2.2) % cfg.wordSize ∨ buffersIntersect cfg m.2.1 m.2.2 n.2.1 n.2.2) then
      mergeParams (m.1, m.2.1, (n.2.1 + n.2.2 + (cfg.wordSize - m.2.1)) % cfg.wordSize) ns
    else m :: mergeParams n ns

def paramMaps (params : List ParamMem) : List (Mobj × ℕ × ℕ) :=
  match (params.filterMap (mappedMem cfg)).mergeSort cmpParamMem with
  | [] => []
  | m :: ms => mergeParams cfg m ms

def paramMemToUserVa (regions : List Region) (mobj : Mobj) (offs : ℕ) : TeeResult ℕ :=
  let phys := (mobj.physOffs + offs) % cfg.wordSize
  orError .generic <|
    (regions.find? fun r => isEphemeral r && r.mobj = mobj && r.offset ≤ phys && phys < r.offset + r.size).map
      fun r => r.va + phys - r.offset

def mapParam (m : Mobj × ℕ × ℕ) : UserMode Unit := do
  let _ ← vmMap cfg 0 m.2.2 (Mattr.pr ||| Mattr.pw ||| Mattr.ur ||| Mattr.uw).toUInt32
    (Flag.ephemeral ||| Flag.shareable).toUInt32 m.1 m.2.1

def paramVa (p : ParamMem) : UserMode Unit :=
  match p.mobj with
  | none => pure ()
  | some mobj => do
    let s ← get
    let _ ← ofResult (paramMemToUserVa cfg s.regions mobj p.offs)

def mapParams (params : List ParamMem) : UserMode Unit := do
  (paramMaps cfg params).forM (mapParam cfg)
  params.forM (paramVa cfg)
  allocate .outOfMemory

def vmMapParam (params : List ParamMem) : UserMode Unit := do
  let s ← get
  check (s.regions.all fun r => !isEphemeral r) .panic
  tryCatch (mapParams cfg params) fun e => do
    vmCleanParam
    throw e

def vmAddRwmem (mobj : Mobj) : UserMode ℕ := do
  allocate .outOfMemory
  let reg ← addRegion cfg ⟨mobj, 0, 0, roundupPage cfg mobj.size, if mobj.secure then Mattr.secure else 0, 0⟩ 0 0 0
  orRemove reg (allocate .outOfMemory)
  pure reg.va

def vmRemRwmem (mobj : Mobj) (va : ℕ) : UserMode Unit :=
  modify fun s => { s with regions := s.regions.eraseP fun r => r.mobj = mobj && r.va = va }

def mapKernel (prot : UInt16) (k : KernelMap) : UserMode Unit :=
  if k.size = 0 then pure ()
  else do
    let _ ← vmMap cfg k.va k.size prot.toUInt32 Flag.permanent.toUInt32 k.mobj k.offset

def mapKinit (kcode kdata : KernelMap) : UserMode Unit := do
  mapKernel cfg (Mattr.pr ||| Mattr.px) kcode
  mapKernel cfg (Mattr.pr ||| Mattr.pw) kdata

def vmInfoInit (kcode kdata : KernelMap) : UserMode Unit :=
  tryCatch (mapKinit cfg kcode kdata) fun e => do
    setRegions []
    throw e

inductive Call
  | mapPad (va len : ℕ) (prot flags : UInt32) (mobj : Mobj) (offs padBegin padEnd align : ℕ)
  | mapParam (params : List ParamMem)
  | cleanParam
  | addRwmem (mobj : Mobj)
  | remRwmem (mobj : Mobj) (va : ℕ)
  | remap (newVa oldVa len padBegin padEnd : ℕ)
  | setProt (va len : ℕ) (prot : UInt32)
  | unmap (va len : ℕ)

def Call.body : Call → UserMode Unit
  | .mapPad va len prot flags mobj offs padBegin padEnd align => do
    let _ ← vmMapPad cfg va len prot flags mobj offs padBegin padEnd align
  | .mapParam params => vmMapParam cfg params
  | .cleanParam => vmCleanParam
  | .addRwmem mobj => do
    let _ ← vmAddRwmem cfg mobj
  | .remRwmem mobj va => vmRemRwmem mobj va
  | .remap newVa oldVa len padBegin padEnd => do
    let _ ← vmRemap cfg newVa oldVa len padBegin padEnd
  | .setProt va len prot => vmSetProt cfg va len prot
  | .unmap va len => vmUnmap cfg va len

def stateOf {α : Type} : EStateM.Result TeeError VmInfo α → VmInfo
  | .ok _ s => s
  | .error _ s => s

def VmInfo.exec (s : VmInfo) (call : Call × List Bool) : VmInfo :=
  stateOf (call.1.body cfg { s with outcomes := call.2 })

def VmInfo.init (kcode kdata : KernelMap) (outcomes : List Bool) : VmInfo :=
  stateOf (vmInfoInit cfg kcode kdata ⟨[], outcomes⟩)

end Optee.Vm
