import Mathlib.Algebra.Group.Nat.Defs
import Optee.TeeResult

/-! Loading binaries from the normal world, with slices that are shared under the tag of a file. -/

namespace Optee.Ldelf

structure Store (H δ : Type) where
  imgSize : H → UInt32
  tag : H → δ
  digest : H → List UInt8 → δ

variable {H δ : Type} [DecidableEq δ]

structure Mapping where
  offs : ℕ
  bytes : List UInt8
  deriving DecidableEq

/-- A `bin_handle` with its store handle; `stream` was read so far, `verified` that its digest was checked. -/
structure Load (H : Type) where
  header : H
  file : ℕ
  stream : List UInt8
  verified : Bool
  failed : Bool
  closed : Bool
  mapped : List Mapping

structure Slice where
  pageOffset : ℕ
  numPages : ℕ
  owner : ℕ
  content : List UInt8

structure File (δ : Type) where
  tag : δ
  live : Bool
  slices : List Slice

structure Loads (H δ : Type) where
  loads : List (Load H)
  files : List (File δ)

def Loads.init : Loads H δ := ⟨[], []⟩

abbrev Supply := ℕ → UInt8

def Supply.bytes (supply : Supply) (offs len : ℕ) : List UInt8 := (List.range' offs len).map supply

structure MapFlags where
  shareable : Bool
  writeable : Bool
  executable : Bool

structure Outcomes where
  map : Bool
  prot : Bool
  slice : Bool

namespace Load

variable (S : Store H δ) (l : Load H)

def size : ℕ := (S.imgSize l.header).toNat

def read (data : List UInt8) : Load H × Bool :=
  if l.size S < l.stream.length + data.length then (l, false)
  else
    let stream := l.stream ++ data
    if stream.length ≠ l.size S then ({ l with stream }, true)
    else if S.digest l.header stream = S.tag l.header then ({ l with stream, verified := true }, true)
    else ({ l with stream }, false)

def skipTo (offs : ℕ) (supply : Supply) : Load H × Bool :=
  if l.stream.length < offs then l.read S (supply.bytes l.stream.length (offs - l.stream.length)) else (l, true)

def inBinary (offs numBytes : ℕ) : ℕ := if l.size S < offs + numBytes then l.size S - offs else numBytes

def readAt (offs numBytes : ℕ) (supply : Supply) : Load H × Option (List UInt8) :=
  let data := supply.bytes offs (l.inBinary S offs numBytes)
  let r := l.read S data
  (r.1, if r.2 then some (data ++ List.replicate (numBytes - data.length) 0) else none)

def copyTo (offs numBytes : ℕ) (supply : Supply) : Load H × Option (List UInt8) :=
  if offs < l.stream.length then (l, none)
  else if 2 ^ 64 ≤ offs + numBytes then (l, none)
  else
    let r := l.skipTo S offs supply
    if r.2 then r.1.readAt S offs numBytes supply else (r.1, none)

def fail : Load H := { l with failed := true }

def addMapping (offs : ℕ) (bytes : List UInt8) : Load H := { l with mapped := ⟨offs, bytes⟩ :: l.mapped }

def copyFromBin (offs numBytes : ℕ) (supply : Supply) : Load H :=
  let r := l.copyTo S offs numBytes supply
  match r.2 with
  | none => r.1.fail
  | some bytes => r.1.addMapping offs bytes

def closeBin (supply : Supply) : Load H :=
  let r := if l.stream.length < l.size S then
    l.read S (supply.bytes l.stream.length (l.size S - l.stream.length)) else (l, true)
  { r.1 with closed := true, failed := r.1.failed || !r.2 }

end Load

def Slice.bytes (s : Slice) (numBytes : ℕ) : List UInt8 := (List.range numBytes).map fun k => s.content.getD k 0

def findSlice (slices : List Slice) (page : ℕ) : Option Slice :=
  slices.find? fun s => s.pageOffset ≤ page && page < s.pageOffset + s.numPages

def pageOffsetOf (offs : ℕ) : ℕ := offs / 4096 % 2 ^ 32

def numPagesOf (numBytes : ℕ) : ℕ := (numBytes + 4095) / 4096

structure MapBin where
  offs : ℕ
  numBytes : ℕ
  flags : MapFlags
  supply : Supply
  outcomes : Outcomes

namespace MapBin

variable (a : MapBin)

def valid : Bool :=
  !(a.flags.shareable && a.flags.writeable) && !(a.flags.executable && a.flags.writeable) && a.offs % 4096 = 0 &&
    a.numBytes + 4095 < 2 ^ 32

def mapSlice (l : Load H) (s : Slice) : Load H :=
  if s.pageOffset = pageOffsetOf a.offs && numPagesOf a.numBytes ≤ s.numPages && a.flags.shareable && a.outcomes.map then
    l.addMapping a.offs (s.bytes a.numBytes)
  else l.fail

def newSlice (owner : ℕ) (bytes : List UInt8) : Option Slice :=
  if pageOffsetOf a.offs + numPagesOf a.numBytes < 2 ^ 32 && a.outcomes.slice then
    some ⟨pageOffsetOf a.offs, numPagesOf a.numBytes, owner, bytes⟩
  else none

def mapFresh (S : Store H δ) (owner : ℕ) (l : Load H) : Load H × Option Slice :=
  if a.outcomes.map then
    let r := l.copyTo S a.offs a.numBytes a.supply
    match r.2 with
    | none => (r.1.fail, none)
    | some bytes =>
      if !a.outcomes.prot then (r.1.fail, none)
      else if a.flags.writeable then (r.1.addMapping a.offs bytes, none)
      else match a.newSlice owner bytes with
        | none => (r.1.fail, none)
        | some s => (r.1.addMapping a.offs bytes, some s)
  else (l.fail, none)

def run (S : Store H δ) (owner : ℕ) (l : Load H) (slices : List Slice) : Load H × List Slice :=
  if !a.valid then (l.fail, slices)
  else match findSlice slices (pageOffsetOf a.offs) with
    | some s => (a.mapSlice l s, slices)
    | none =>
      let r := a.mapFresh S owner l
      (r.1, r.2.toList ++ slices)

end MapBin

inductive Event (H : Type)
  | openBin (header : H)
  | mapBin (i : ℕ) (args : MapBin)
  | copyFromBin (i offs numBytes : ℕ) (supply : Supply)
  | closeBin (i : ℕ) (supply : Supply)
  /-- the last reference to a file is dropped -/
  | filePut (f : ℕ)

namespace Loads

variable (S : Store H δ) (s : Loads H δ)

def setLoad (i : ℕ) (l : Load H) : Loads H δ := { s with loads := s.loads.set i l }

def setSlices (f : ℕ) (slices : List Slice) : Loads H δ :=
  { s with files := s.files.modify f fun file => { file with slices } }

def fileGetByTag (tag : δ) : ℕ × List (File δ) :=
  match s.files.findIdx? fun file => file.live && file.tag = tag with
  | some f => (f, s.files)
  | none => (s.files.length, s.files ++ [⟨tag, true, []⟩])

def openBin (header : H) : Loads H δ :=
  let r := s.fileGetByTag (S.tag header)
  ⟨s.loads ++ [⟨header, r.1, [], false, false, false, []⟩], r.2⟩

def openLoad (i : ℕ) : Option (Load H) := s.loads[i]?.filter fun l => !l.closed

def mapBin (i : ℕ) (l : Load H) (a : MapBin) : Loads H δ :=
  match s.files[l.file]? with
  | none => s
  | some file =>
    let r := a.run S i l file.slices
    (s.setLoad i r.1).setSlices l.file r.2

def filePut (f : ℕ) : Loads H δ :=
  if s.loads.any fun l => !l.closed && l.file = f then s
  else { s with files := s.files.modify f fun file => { file with live := false, slices := [] } }

def step (s : Loads H δ) : Event H → TeeResult (Loads H δ)
  | .openBin header => .ok (s.openBin S header)
  | .mapBin i a => .ok ((s.openLoad i).elim s fun l => s.mapBin S i l a)
  | .copyFromBin i offs numBytes supply =>
    .ok ((s.openLoad i).elim s fun l => s.setLoad i (l.copyFromBin S offs numBytes supply))
  | .closeBin i supply => .ok ((s.openLoad i).elim s fun l => s.setLoad i (l.closeBin S supply))
  | .filePut f => .ok (s.filePut f)

end Loads

end Optee.Ldelf
