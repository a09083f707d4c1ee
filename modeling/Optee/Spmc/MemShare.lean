import Mathlib.Algebra.Group.Nat.Defs
import Mathlib.Algebra.Group.Int.Defs
import Mathlib.Data.Int.Basic
import Mathlib.Data.List.Basic

/-! Memory that the normal world shares with `FFA_MEM_SHARE` and `FFA_MEM_FRAG_TX`, with the SPMC at S-EL1. -/

namespace Optee.Spmc

abbrev Buffer := ℕ → UInt8

def readLe (buf : Buffer) (off : ℕ) : ℕ → ℕ
  | 0 => 0
  | n + 1 => (buf off).toNat + 256 * readLe buf (off + 1) n

structure Config where
  myEndpointId : ℕ
  /-- `core_pbuf_is(CORE_MEM_NON_SEC, ...)` -/
  nonSec : ℕ → ℕ → Bool
  /-- The address of the RX buffer. -/
  rx : Option ℕ
  rxSize : ℕ

def invalidParameters : ℤ := -2
def noMemory : ℤ := -3
def denied : ℤ := -6

def smallPageSize : ℕ := 4096

def toInt (n : ℕ) : ℤ := Int.bmod n (2 ^ 32)

def getAccPerms (cfg : Config) (buf : Buffer) (off : ℕ) : ℕ → Option (ℕ × ℕ)
  | 0 => none
  | n + 1 =>
    if readLe buf off 2 = cfg.myEndpointId then some (readLe buf (off + 2) 1, readLe buf (off + 4) 4)
    else getAccPerms cfg buf (off + 16) n

structure Header where
  pageCount : ℕ
  regionCount : ℕ
  addrRangeOffs : ℕ

def memShareInit (cfg : Config) (addr : ℕ) (buf : Buffer) (off blen : ℕ) : Except ℤ Header :=
  if (addr + off) % 8 ≠ 0 ∨ blen < 32 then .error invalidParameters
  else
    let numMemAccs := readLe buf (off + 28) 4
    if blen < 32 + 16 * numMemAccs then .error invalidParameters
    else if readLe buf (off + 2) 1 ≠ 0x2f then .error invalidParameters
    else
      match getAccPerms cfg buf (off + 32) numMemAccs with
      | none => .error invalidParameters
      | some (perm, regionOffs) =>
        if perm ≠ 2 then .error invalidParameters
        else if blen < regionOffs + 16 then .error invalidParameters
        else if (addr + off + regionOffs) % 8 ≠ 0 then .error invalidParameters
        else .ok ⟨readLe buf (off + regionOffs) 4, readLe buf (off + regionOffs + 4) 4, regionOffs + 16⟩

structure Mobj where
  /-- The number of the bit that stands for the cookie. -/
  index : ℕ
  numPages : ℕ
  pages : ℕ → ℕ

def Mobj.cookie (mf : Mobj) : ℕ := 2 ^ 44 + mf.index

def Mobj.pageCount (mf : Mobj) : ℕ := mf.numPages * smallPageSize % 2 ^ 32 / smallPageSize

structure Mm where
  page : ℕ
  bytes : ℕ
  deriving DecidableEq

structure Share where
  mf : Mobj
  pageCount : ℕ
  regionCount : ℕ
  currentPageIdx : ℕ

structure Frag where
  share : Share
  mm : Option Mm
  fragOffset : ℕ

structure World where
  fragStateHead : List Frag
  shmInactiveHead : List Mobj
  shmBits : List Bool
  /-- The entries of `tee_mm_shm`. -/
  mms : List Mm
  /-- The virtual pages that are mapped. -/
  mapped : ℕ → Bool

structure Env where
  buf : Buffer
  objMemory : Bool
  fragMemory : Bool
  mm : Option ℕ
  mapping : Bool

def mobjNew (w : World) (env : Env) (numPages : ℕ) : Option (World × Mobj) :=
  if numPages = 0 ∨ !env.objMemory then none
  else
    match w.shmBits.findIdx? (!·) with
    | none => none
    | some i => some ({ w with shmBits := w.shmBits.set i true }, ⟨i, numPages, fun _ => 0⟩)

def mobjDelete (w : World) (mf : Mobj) : World := { w with shmBits := w.shmBits.set mf.index false }

def pushToInactive (w : World) (mf : Mobj) : World := { w with shmInactiveHead := mf :: w.shmInactiveHead }

def addPagesAt (cfg : Config) (mf : Mobj) (idx pa numPages : ℕ) : Option Mobj :=
  if 2 ^ 32 ≤ idx + numPages ∨ mf.pageCount < idx + numPages then none
  else if !cfg.nonSec pa (numPages * smallPageSize % 2 ^ 32) then none
  else
    some { mf with pages := fun i =>
      if idx ≤ i ∧ i < idx + numPages then pa + (i - idx) * smallPageSize else mf.pages i }

def unmapPages (w : World) (page count : ℕ) : World :=
  { w with mapped := fun v => if page ≤ v ∧ v < page + count then false else w.mapped v }

def mapPages (w : World) (page count : ℕ) : World :=
  { w with mapped := fun v => if page ≤ v ∧ v < page + count then true else w.mapped v }

def mmFree (w : World) (mm : Mm) : World := { w with mms := w.mms.erase mm }

section Sharing

variable (cfg : Config)

def addRanges (buf : Buffer) : ℕ → ℕ → Share → Option Share
  | _, 0, s => some s
  | off, n + 1, s =>
    let pageCount := readLe buf (off + 8) 4
    match addPagesAt cfg s.mf s.currentPageIdx (readLe buf off 8) pageCount with
    | none => none
    | some mf => addRanges buf (off + 16) n { s with mf := mf, currentPageIdx := s.currentPageIdx + pageCount }

def addMemShareHelper (s : Share) (addr : ℕ) (buf : Buffer) (off flen : ℕ) : Share × ℤ :=
  let regionCount := min (flen / 16 % 2 ^ 32) s.regionCount
  if (addr + off) % 8 ≠ 0 then (s, invalidParameters)
  else
    match addRanges cfg buf off regionCount s with
    | none => (s, invalidParameters)
    | some s =>
      let s := { s with regionCount := s.regionCount - regionCount }
      if s.regionCount ≠ 0 then (s, toInt (regionCount * 16))
      else if s.currentPageIdx ≠ s.pageCount then (s, invalidParameters)
      else (s, 0)

def endFrag (w : World) (i : ℕ) (mf : Mobj) (rc : ℤ) : World × ℤ :=
  let w := { w with fragStateHead := w.fragStateHead.eraseIdx i }
  if rc < 0 then (mobjDelete w mf, rc) else (pushToInactive w mf, rc)

def addMemShareFrag (w : World) (i : ℕ) (s : Frag) (addr : ℕ) (buf : Buffer) (off flen : ℕ) : World × ℤ :=
  match addMemShareHelper cfg s.share addr buf off flen with
  | (share, rc) =>
    if rc < 0 then endFrag w i share.mf rc
    else if 2 ^ 32 ≤ s.fragOffset + rc then endFrag w i share.mf invalidParameters
    else
      let fragOffset := s.fragOffset + rc.toNat
      if share.regionCount ≠ 0 then
        ({ w with fragStateHead := w.fragStateHead.set i { s with share := share, fragOffset := fragOffset } },
          toInt fragOffset)
      else endFrag w i share.mf (toInt fragOffset)

def addMemShare (w : World) (env : Env) (mm : Option Mm) (addr off blen flen : ℕ) : World × ℤ × ℕ :=
  if blen < flen then (w, invalidParameters, 0)
  else
    match memShareInit cfg addr env.buf off flen with
    | .error rc => (w, rc, 0)
    | .ok h =>
      if blen < h.regionCount * 16 + h.addrRangeOffs then (w, invalidParameters, 0)
      else
        match mobjNew w env h.pageCount with
        | none => (w, noMemory, 0)
        | some (w, mf) =>
          let share : Share := ⟨mf, h.pageCount, h.regionCount, 0⟩
          if flen ≠ blen then
            if !env.fragMemory then (mobjDelete w mf, noMemory, 0)
            else
              let s : Frag := ⟨share, mm, h.addrRangeOffs % 2 ^ 32⟩
              let w := { w with fragStateHead := s :: w.fragStateHead }
              match addMemShareFrag cfg w 0 s addr env.buf (off + h.addrRangeOffs) (flen - h.addrRangeOffs) with
              | (w, rc) => (w, rc, if 0 ≤ rc then mf.cookie else 0)
          else
            match addMemShareHelper cfg share addr env.buf (off + h.addrRangeOffs) (flen - h.addrRangeOffs) with
            | (share, rc) =>
              if rc ≠ 0 then (mobjDelete w share.mf, invalidParameters, 0)
              else (pushToInactive w share.mf, 0, mf.cookie)

def handleMemShareTmem (w : World) (env : Env) (pbuf blen flen pageCount : ℕ) : World × ℤ × ℕ :=
  let offs := pbuf % smallPageSize
  let len := pageCount * smallPageSize
  if !cfg.nonSec pbuf len then (w, invalidParameters, 0)
  else if len < blen ∨ (len + 2 ^ 64 - offs) % 2 ^ 64 < blen then (w, invalidParameters, 0)
  else
    match env.mm with
    | none => (w, noMemory, 0)
    | some page =>
      let mm : Mm := ⟨page, len⟩
      let w := { w with mms := mm :: w.mms }
      if !env.mapping then (mmFree w mm, invalidParameters, 0)
      else
        match addMemShare cfg (mapPages w page pageCount) env (some mm) (page * smallPageSize) offs blen flen with
        | (w, rc, handle) =>
          if 0 < rc then (w, rc, handle) else (mmFree (unmapPages w page pageCount) mm, rc, handle)

def handleMemShareRxbuf (w : World) (env : Env) (blen flen : ℕ) : World × ℤ × ℕ :=
  match cfg.rx with
  | none => (w, denied, 0)
  | some addr => if flen ≤ cfg.rxSize then addMemShare cfg w env none addr 0 blen flen else (w, denied, 0)

end Sharing

section Calls

inductive Fid
  | error
  | fragRx
  | success
  deriving DecidableEq

structure Answer where
  fid : Fid
  w1 : ℕ
  w2 : ℕ
  w3 : ℕ
  deriving DecidableEq

def Answer.error (rc : ℤ) : Answer := ⟨.error, 0, (rc % 2 ^ 32).toNat, 0⟩

def Answer.success (w1 handle : ℕ) : Answer := ⟨.success, w1, handle % 2 ^ 32, handle / 2 ^ 32⟩

def Answer.fragRx (handle : ℕ) (rc : ℤ) : Answer := ⟨.fragRx, handle % 2 ^ 32, handle / 2 ^ 32, rc.toNat⟩

structure Args where
  a1 : ℕ
  a2 : ℕ
  a3 : ℕ
  a4 : ℕ
  a5 : ℕ
  a6 : ℕ
  a7 : ℕ

variable (cfg : Config)

def shareAnswer (rc : ℤ) (handle : ℕ) : Answer :=
  if rc < 0 then .error rc else .success (if 0 < rc then handle % 2 ^ 32 else 0) handle

def handleMemShare (w : World) (env : Env) (args : Args) : World × Answer :=
  if args.a5 ≠ 0 ∨ args.a6 ≠ 0 ∨ args.a7 ≠ 0 then (w, .error invalidParameters)
  else if args.a3 = 0 ∧ args.a4 ≠ 0 then (w, .error invalidParameters)
  else
    match if args.a3 = 0 then handleMemShareRxbuf cfg w env args.a1 args.a2
      else handleMemShareTmem cfg w env args.a3 args.a1 args.a2 (args.a4 % 2 ^ 32) with
    | (w, rc, handle) => (w, shareAnswer rc handle)

def getFragState (w : World) (handle : ℕ) : Option (ℕ × Frag) :=
  match w.fragStateHead.findIdx? fun s => s.share.mf.cookie = handle with
  | none => none
  | some i => w.fragStateHead[i]?.map (i, ·)

def fragTx (w : World) (env : Env) (handle flen : ℕ) : World × ℤ × Option Mm × ℕ :=
  match getFragState w handle with
  | none => (w, invalidParameters, none, 0)
  | some (i, s) =>
    match s.mm with
    | some mm =>
      if mm.bytes < flen then (w, invalidParameters, some mm, 0)
      else
        match addMemShareFrag cfg w i s (mm.page * smallPageSize) env.buf 0 flen with
        | (w, rc) => (w, rc, some mm, s.share.pageCount)
    | none =>
      if cfg.rxSize < flen then (w, invalidParameters, none, 0)
      else
        match addMemShareFrag cfg w i s (cfg.rx.getD 0) env.buf 0 flen with
        | (w, rc) => (w, rc, none, 0)

def handleMemFragTx (w : World) (env : Env) (handle flen : ℕ) : World × Answer :=
  match fragTx cfg w env handle flen with
  | (w, rc, mm, pageCount) =>
    let w := match mm with
      | some mm => if rc ≤ 0 then mmFree (unmapPages w mm.page pageCount) mm else w
      | none => w
    (w, if rc < 0 then .error rc else if 0 < rc then .fragRx handle rc else .success 0 handle)

end Calls

end Optee.Spmc
