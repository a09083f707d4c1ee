import Mathlib.Algebra.Group.Nat.Defs
import Optee.Lib.Effects
import Optee.Lib.Spans
import Optee.TeeResult

/-! The regions of a user mode context in `vm.c`. -/

namespace Optee.Vm

open Lib

structure Config where
  wordSize : ℕ
  vaRangeBase : ℕ
  vaRangeSize : ℕ
  withLpae : Bool
  pgdirSize : ℕ
  range_fits : vaRangeBase + vaRangeSize < wordSize
  pgdir_aligned : 4096 ∣ pgdirSize
  pgdir_pos : 0 < pgdirSize

def smallPageSize : ℕ := 4096

namespace Flag

def ephemeral : UInt16 := 1
def permanent : UInt16 := 2
def shareable : UInt16 := 4
def ldelf : UInt16 := 8
def readonly : UInt16 := 16

end Flag

namespace Mattr

def validBlock : UInt16 := 1
def pr : UInt16 := 0x10
def pw : UInt16 := 0x20
def px : UInt16 := 0x40
def ur : UInt16 := 0x80
def uw : UInt16 := 0x100
def ux : UInt16 := 0x200
def secure : UInt16 := 0x800
def protMask : UInt32 := 0x3f0
def cacheShift : UInt16 := 12

end Mattr

structure Mobj where
  ptr : ℕ
  size : ℕ
  paged : Bool
  secure : Bool
  cattr : Option UInt16
  fobj : Bool
  physOffs : ℕ
  deriving DecidableEq

structure Region where
  mobj : Mobj
  offset : ℕ
  va : ℕ
  size : ℕ
  attr : UInt16
  flags : UInt16
  deriving DecidableEq

def Region.endVa (r : Region) : ℕ := r.va + r.size

def nullMobj : Mobj := ⟨0, 0, false, false, none, false, 0⟩

structure VmInfo where
  regions : List Region
  /-- how the next allocations end, all later ones succeed -/
  outcomes : List Bool

abbrev UserMode := EStateM TeeError VmInfo

section Placement

variable (cfg : Config)

def addOverflow (a b : ℕ) : Option ℕ := if a + b < cfg.wordSize then some (a + b) else none

def roundup (v size : ℕ) : ℕ := (v + (size - 1)) / size * size

def rounddown (v size : ℕ) : ℕ := v / size * size

def roundupOverflow (v size : ℕ) : Option ℕ :=
  if v + (size - 1) < cfg.wordSize then some (roundup v size) else none

def roundupPage (v : ℕ) : ℕ := rounddown ((v + (smallPageSize - 1)) % cfg.wordSize) smallPageSize

def separator (neighbour reg : Region) : ℕ :=
  let f := Flag.ephemeral ||| Flag.permanent ||| Flag.shareable
  if neighbour.flags ≠ 0 ∧ neighbour.flags &&& f ≠ reg.flags &&& f then smallPageSize else 0

def granulFor (neighbour reg : Region) (granul : ℕ) : ℕ :=
  if !cfg.withLpae && (neighbour.attr &&& Mattr.secure) != (reg.attr &&& Mattr.secure) then cfg.pgdirSize else granul

def beginVa (prev reg : Region) (padBegin granul : ℕ) : Option ℕ := do
  let va ← addOverflow cfg prev.va prev.size
  let va ← addOverflow cfg va padBegin
  let va ← addOverflow cfg va (separator prev reg)
  roundupOverflow cfg va granul

def endVaFor (next reg : Region) (va padEnd granul : ℕ) : Option ℕ := do
  let va ← addOverflow cfg va reg.size
  let va ← addOverflow cfg va padEnd
  let va ← addOverflow cfg va (separator next reg)
  roundupOverflow cfg va granul

def fitBefore (next reg : Region) (va padEnd granul : ℕ) : ℕ :=
  match endVaFor cfg next reg va padEnd granul with
  | none => 0
  | some e => if e ≤ next.va then va else 0

def selectVaInRange (prev next reg : Region) (padBegin padEnd granul : ℕ) : ℕ :=
  let granul := granulFor cfg prev reg granul
  match beginVa cfg prev reg padBegin granul with
  | none => 0
  | some va =>
    let granul := granulFor cfg next reg granul
    if reg.va = 0 then fitBefore cfg next reg va padEnd granul
    else if reg.va < va then 0
    else fitBefore cfg next reg reg.va padEnd granul

def dummyRegion (va : ℕ) : Region := ⟨nullMobj, 0, va, 0, 0, 0⟩

def insertFrom (reg : Region) (padBegin padEnd granul : ℕ) (prev : Region) :
    List Region → TeeResult (List Region × Region)
  | [] =>
    let last := dummyRegion (cfg.vaRangeBase + cfg.vaRangeSize)
    let va := selectVaInRange cfg prev last reg padBegin padEnd granul
    if va ≠ 0 then .ok ([{ reg with va }], { reg with va }) else .error .accessConflict
  | r :: rs =>
    let va := selectVaInRange cfg prev r reg padBegin padEnd granul
    if va ≠ 0 then .ok ({ reg with va } :: r :: rs, { reg with va })
    else (insertFrom reg padBegin padEnd granul r rs).map fun p => (r :: p.1, p.2)

def pageAligned (v : ℕ) : Bool := v % smallPageSize = 0

def umapAddRegion (regions : List Region) (reg : Region) (padBegin padEnd align : ℕ) :
    TeeResult (List Region × Region) :=
  let granul := max align smallPageSize
  if !(pageAligned reg.va && pageAligned reg.size && pageAligned padBegin && pageAligned padEnd) then
    .error .accessConflict
  else if cfg.wordSize ≤ reg.offset + reg.size then .error .badParameters
  else if roundupPage cfg reg.mobj.size < reg.offset + reg.size then .error .badParameters
  else if granul ≠ 2 ^ granul.log2 then .error .badParameters
  else insertFrom cfg reg padBegin padEnd granul (dummyRegion cfg.vaRangeBase) regions

end Placement

def Region.Contains (r : Region) (va : ℕ) : Prop := Spans.Covers Region.va Region.endVa r va

instance (r : Region) (va : ℕ) : Decidable (r.Contains va) := inferInstanceAs (Decidable (Spans.Covers _ _ _ _))

def findVmRegion (regions : List Region) (va : ℕ) : Option Region := Spans.covering Region.va Region.endVa regions va

def before (va : ℕ) (regions : List Region) : List Region := regions.takeWhile fun r => ¬r.Contains va

def fromVa (va : ℕ) (regions : List Region) : List Region := regions.dropWhile fun r => ¬r.Contains va

def within (va endVa : ℕ) (regions : List Region) : List Region := (fromVa va regions).takeWhile (·.endVa ≤ endVa)

def beyond (va endVa : ℕ) (regions : List Region) : List Region := (fromVa va regions).dropWhile (·.endVa ≤ endVa)

def contiguousFrom (cmp : Region → Region → Region → Bool) (r₀ : Region) (endVa : ℕ) : Region → List Region → Bool
  | r, [] => endVa ≤ r.endVa
  | r, next :: rs =>
    endVa ≤ r.endVa || (r.endVa = next.va && cmp r₀ r next && contiguousFrom cmp r₀ endVa next rs)

def vaRangeIsContiguous (cmp : Region → Region → Region → Bool) (regions : List Region) (va endVa : ℕ) : Bool :=
  match fromVa va regions with
  | [] => false
  | r :: rs => contiguousFrom cmp r endVa r rs

def Region.head (r : Region) (va : ℕ) : Region := { r with size := va - r.va }

def Region.tail (r : Region) (va : ℕ) : Region :=
  { r with offset := r.offset + (va - r.va), va, size := r.size - (va - r.va) }

def splitVmRegion (point va : ℕ) : List Region → List Region
  | [] => []
  | r :: rs => if r.Contains point then r.head va :: r.tail va :: rs else r :: splitVmRegion point va rs

def mergeable (r next : Region) : Bool :=
  r.endVa = next.va && r.mobj = next.mobj && r.flags = next.flags && r.attr = next.attr && r.offset + r.size = next.offset

def mergeFrom (va endVa : ℕ) (r : Region) : List Region → List Region
  | [] => [r]
  | next :: rs =>
    if r.endVa < va then r :: mergeFrom va endVa next rs
    else if endVa < r.va then r :: next :: rs
    else if mergeable r next then mergeFrom va endVa { r with size := r.size + next.size } rs
    else r :: mergeFrom va endVa next rs

def mergeVmRange (va endVa : ℕ) : List Region → List Region
  | [] => []
  | r :: rs => mergeFrom va endVa r rs

def cmpRegionForRemap (r₀ r next : Region) : Bool :=
  r₀.flags = r.flags && r₀.attr = r.attr && r₀.mobj = r.mobj && next.offset = r.offset + r.size

def cmpRegionForGetFlags (r₀ r _ : Region) : Bool := r₀.flags = r.flags

section Calls

variable (cfg : Config)

def allocate (e : TeeError) : UserMode Unit := do
  let s ← get
  set { s with outcomes := s.outcomes.tail }
  if s.outcomes.headD true then pure () else throw e

def ofResult {α : Type} : TeeResult α → UserMode α
  | .ok a => pure a
  | .error e => throw e

def check (p : Prop) [Decidable p] (e : TeeError) : UserMode Unit := if p then pure () else throw e

def setRegions (regions : List Region) : UserMode Unit := modify fun s => { s with regions }

def addRegion (reg : Region) (padBegin padEnd align : ℕ) : UserMode Region := do
  let s ← get
  let p ← ofResult (umapAddRegion cfg s.regions reg padBegin padEnd align)
  setRegions p.1
  pure p.2

def allocTables (paged : Bool) : UserMode Unit := do
  allocate .outOfMemory
  if paged then allocate .outOfMemory else pure ()

def orRemove (reg : Region) (p : UserMode Unit) : UserMode Unit :=
  tryCatch p fun e => do
    modify fun s => { s with regions := s.regions.erase reg }
    throw e

def attrOf (mobj : Mobj) : TeeResult UInt16 :=
  let secure := if mobj.secure then Mattr.secure else 0
  if mobj.paged then .ok (Mattr.validBlock ||| secure)
  else match mobj.cattr with
    | none => .error .generic
    | some cattr => .ok ((cattr <<< Mattr.cacheShift) ||| Mattr.validBlock ||| secure)

def mapTables (mobj : Mobj) : UserMode Unit := do
  allocate .outOfMemory
  if mobj.paged then do
    check (mobj.fobj = true) .generic
    allocate .outOfMemory
  else pure ()

def vmMapPad (va len : ℕ) (prot flags : UInt32) (mobj : Mobj) (offs padBegin padEnd align : ℕ) : UserMode ℕ := do
  check (prot &&& ~~~Mattr.protMask = 0) .badParameters
  allocate .outOfMemory
  let attr ← ofResult (attrOf mobj)
  let reg ← addRegion cfg ⟨mobj, offs, va, roundupPage cfg len, attr ||| prot.toUInt16, flags.toUInt16⟩ padBegin padEnd align
  orRemove reg (mapTables mobj)
  pure reg.va

def splitAt (r : Region) (point va : ℕ) : UserMode Unit := do
  check (r.va < va ∧ va - r.va < r.size) .panic
  allocTables r.mobj.paged
  modify fun s => { s with regions := splitVmRegion point va s.regions }

def splitUnless (aligned : Bool) (r : Region) (point va : ℕ) : UserMode Unit :=
  if aligned then pure () else splitAt r point va

def findOr (e : TeeError) (va : ℕ) : UserMode Region := do
  let s ← get
  ofResult (orError e (findVmRegion s.regions va))

def splitVmRange (va len : ℕ) (cmp : Region → Region → Region → Bool) : UserMode Unit := do
  check (pageAligned va ∧ pageAligned len) .badParameters
  check (va + len < cfg.wordSize) .badParameters
  let r ← findOr .badParameters va
  let s ← get
  check (vaRangeIsContiguous cmp s.regions va (va + len)) .badParameters
  splitUnless (va = r.va) r va va
  let last ← findOr .badParameters (va + len - 1)
  splitUnless (va + len = last.endVa) last (va + len - 1) (va + len)

def Region.withProt (prot : UInt32) (r : Region) : Region :=
  { r with attr := (r.attr &&& ~~~Mattr.protMask.toUInt16) ||| prot.toUInt16 }

def setPagerAttr (r : Region) : UserMode Unit := if r.mobj.paged then allocate .panic else pure ()

def vmSetProt (va len : ℕ) (prot : UInt32) : UserMode Unit := do
  check (prot &&& ~~~Mattr.protMask = 0 ∧ len ≠ 0) .badParameters
  splitVmRange cfg va len fun _ _ _ => true
  let s ← get
  let rs := within va (va + len) s.regions
  setRegions (before va s.regions ++ rs.map (·.withProt prot) ++ beyond va (va + len) s.regions)
  rs.forM setPagerAttr
  modify fun s => { s with regions := mergeVmRange va (va + len) s.regions }

def unmapUntil (endVa : ℕ) : List Region → List Region
  | [] => []
  | r :: rs => if r.endVa = endVa then rs else unmapUntil endVa rs

def vmUnmap (va len : ℕ) : UserMode Unit := do
  let l ← ofResult (orError .badParameters (roundupOverflow cfg len smallPageSize))
  check (l ≠ 0 ∧ pageAligned va) .badParameters
  check (va + l < cfg.wordSize) .badParameters
  splitVmRange cfg va l fun _ _ _ => true
  modify fun s => { s with regions := before va s.regions ++ unmapUntil (va + l) (fromVa va s.regions) }

def orPanic {α : Type} (p : UserMode α) : UserMode α := tryCatch p fun _ => throw .panic

def restoreMap (paged : Bool) : ℕ → List Region → UserMode Unit
  | _, [] => pure ()
  | nextVa, r :: rs => do
    let _ ← orPanic (addRegion cfg { r with va := nextVa } 0 0 0)
    orPanic (allocTables paged)
    restoreMap paged ((nextVa + r.size) % cfg.wordSize) rs

def takeBack (first last : Region) : UserMode (List Region) := do
  let s ← get
  let rest := s.regions.dropWhile (· ≠ first)
  check (last ∈ rest) .panic
  setRegions (s.regions.takeWhile (· ≠ first) ++ rest.dropWhile (· ≠ last))
  pure (rest.takeWhile (· ≠ last))

def failMove {α : Type} (paged : Bool) (oldVa : ℕ) (regs : List Region) (placed : Option (Region × Region)) (e : TeeError) :
    UserMode α := do
  let moved ← placed.elim (pure []) fun p => takeBack p.1 p.2
  restoreMap cfg paged oldVa (moved ++ regs)
  throw e

def placeRegion (newVa len padBegin padEnd : ℕ) (r : Region) : Option (Region × Region) → UserMode Region
  | some p => addRegion cfg { r with va := p.2.endVa } 0 0 0
  | none => addRegion cfg { r with va := newVa } padBegin ((padEnd + len + (cfg.wordSize - r.size)) % cfg.wordSize) 0

def withLast (placed : Option (Region × Region)) (r : Region) : Region × Region := ((placed.map Prod.fst).getD r, r)

def moveRegions (newVa oldVa len padBegin padEnd : ℕ) (paged : Bool) :
    Option (Region × Region) → List Region → UserMode ℕ
  | placed, [] => ofResult (orError .panic (placed.map fun p => p.1.va))
  | placed, r :: rs => do
    let reg ← tryCatch (placeRegion cfg newVa len padBegin padEnd r placed) (failMove cfg paged oldVa (r :: rs) placed)
    tryCatch (allocTables paged) (failMove cfg paged oldVa rs (withLast placed reg))
    moveRegions newVa oldVa len padBegin padEnd paged (withLast placed reg) rs

def moveRange (newVa oldVa len padBegin padEnd : ℕ) : List Region → UserMode ℕ
  | [] => throw .panic
  | r :: rs => do
    check (r.mobj.paged = true → r.mobj.fobj = true) .panic
    modify fun s => { s with regions := before oldVa s.regions ++ beyond oldVa (oldVa + len) s.regions }
    moveRegions cfg newVa oldVa len padBegin padEnd r.mobj.paged none (r :: rs)

def vmRemap (newVa oldVa len padBegin padEnd : ℕ) : UserMode ℕ := do
  check (len ≠ 0 ∧ pageAligned len ∧ pageAligned oldVa) .badParameters
  splitVmRange cfg oldVa len cmpRegionForRemap
  let s ← get
  moveRange cfg newVa oldVa len padBegin padEnd (within oldVa (oldVa + len) s.regions)

def vmGetFlags (va len : ℕ) : UserMode UInt16 := do
  check (len ≠ 0 ∧ pageAligned len ∧ pageAligned va) .badParameters
  let r ← findOr .badParameters va
  let s ← get
  check (va + len < cfg.wordSize ∧ vaRangeIsContiguous cmpRegionForGetFlags s.regions va (va + len)) .badParameters
  pure r.flags

end Calls

end Optee.Vm
