import Optee.Mm.TeeMm
import Optee.Rpmb.FatEntry
import Optee.RpmbFs.Device

/-! The file system on the device. -/

namespace Optee.RpmbFs

open Lib.ByteStrings Lib.Effects Rpmb Mm

def cstr (f : Bytes 224) : List UInt8 := f.toList.takeWhile (· ≠ 0)

def filenameField (s : List UInt8) : Bytes 224 := ⟨resize s 224, resize_length s 224⟩

structure Fh where
  filename : Bytes 224
  fatEntry : FatEntry
  rpmbFatAddress : ℕ
  uuid : Option Uuid
  deriving DecidableEq

abbrev OnFh := EStateM Stop (Fh × World)

def onDevice {α : Type} (p : Fs α) : OnFh α := zoom Prod.snd (fun s w => (s.1, w)) p

def on {α : Type} (fh : Fh) (p : OnFh α) : Fs (α × Fh) := fun w =>
  match p (fh, w) with
  | .ok a s => .ok (a, s.1) s.2
  | .error e s => .error e s.2

def getFh : OnFh Fh := do
  let s ← get
  pure s.1

def modifyFh (f : Fh → Fh) : OnFh Unit := modify (fun s => (f s.1, s.2))

section FileSystem

variable (K : Crypto) (ctx : Ctx) (φ : Faults)

def fatAddress (i : ℕ) : ℕ := fatStartAddress + fatEntrySize * i

def fatEntryDirGetNext (i : ℕ) : Fs FatEntry := do
  let b ← teeRpmbRead K ctx φ (fatAddress i) fatEntrySize none none
  pure (FatEntry.ofBlock (block b 0))

def stampWriteCounter (updateWriteCounter : Bool) : OnFh Unit :=
  if updateWriteCounter then modify (fun s => ({ s.1 with fatEntry := { s.1.fatEntry with writeCounter := s.2.wrCnt } }, s.2))
  else pure ()

def writeFatEntry (updateWriteCounter : Bool) : OnFh Unit := do
  let fh ← getFh
  if fh.rpmbFatAddress < 128 then throw (.code .accessConflict)
  else if fh.rpmbFatAddress % fatEntrySize ≠ 0 then throw (.code .badParameters)
  else do
    stampWriteCounter updateWriteCounter
    let fh ← getFh
    onDevice (teeRpmbWrite K ctx φ fh.rpmbFatAddress fh.fatEntry.bytes none none)

def initPool : Pool := Pool.init 0 (UInt64.ofNat (ctx.maxBlkIdx.toNat * 256)) 8 true

def Fh.matches (fh : Fh) (fe : FatEntry) : Bool := cstr fh.filename = cstr fe.filename && fe.isActive

def Fh.at (fh : Fh) (address : ℕ) (fe : FatEntry) : Fh := { fh with rpmbFatAddress := address, fatEntry := fe }

def taken (r : TeeResult (MmEntry × Pool)) : TeeResult Pool := orError .outOfMemory (r.toOption.map (·.2))

def addToPool (fe : FatEntry) (p : Pool) : TeeResult Pool :=
  if fe.isActive ∧ fe.dataSize ≠ 0 then taken (p.alloc2 fe.startAddress.toNat fe.dataSize.toNat)
  else pure p

def Fh.reuse (fh : Fh) (address : ℕ) (fe : FatEntry) : Fh :=
  if ¬fe.isActive ∧ fh.rpmbFatAddress = 0 then fh.at address fe else fh

def readFatFrom : ℕ → ℕ → (entryFound : Bool) → Option Pool → OnFh (ℕ × Bool × Option Pool)
  | 0, _, _, _ => throw (.code .generic)
  | fuel + 1, i, entryFound, p => do
    let fe ← onDevice (fatEntryDirGetNext K ctx φ i)
    let fh ← getFh
    let found := fh.matches fe && !entryFound
    modifyFh (fun fh => if found then fh.at (fatAddress i) fe else fh)
    match p with
    | none =>
      if found ∨ fe.isLast then pure (fatAddress i, false, none)
      else readFatFrom fuel (i + 1) (entryFound || found) none
    | some p => do
      let p ← ofResult (addToPool fe p)
      modifyFh (fun fh => fh.reuse (fatAddress i) fe)
      let fh ← getFh
      if fe.isLast then pure (fatAddress i, fh.rpmbFatAddress = fatAddress i, some p)
      else readFatFrom fuel (i + 1) (entryFound || found) (some p)

def lastEntry : FatEntry := { FatEntry.zero with flags := fileIsLastEntry }

def lastFh (address : ℕ) : Fh := ⟨zeroBytes 224, lastEntry, address, none⟩

def expandTable (expandFat : Bool) (fatEnd : ℕ) : OnFh Unit :=
  if expandFat then do
    let _ ← onDevice (on (lastFh (fatEnd - fatEntrySize)) (writeFatEntry K ctx φ true))
  else pure ()

def representFat (address : ℕ) (expandFat : Bool) : Option Pool → OnFh (Option Pool)
  | none => pure none
  | some p => do
    let fatEnd := address + fatEntrySize + if expandFat then fatEntrySize else 0
    let p ← ofResult (taken (p.alloc2 0 fatEnd))
    expandTable K ctx φ expandFat fatEnd
    pure (some p)

def readFat (p : Option Pool) : OnFh (Option Pool) := do
  let (address, expandFat, p) ← readFatFrom K ctx φ ctx.maxBlkIdx.toNat 0 false p
  let p ← representFat K ctx φ address expandFat p
  let fh ← getFh
  if fh.rpmbFatAddress = 0 then throw (.code .itemNotFound) else pure p

def rpmbFsRead (pos len : ℕ) : OnFh (List UInt8) :=
  if len = 0 then pure []
  else do
    let _ ← readFat K ctx φ none
    let fh ← getFh
    if fh.fatEntry.dataSize.toNat ≤ pos then pure []
    else onDevice (teeRpmbRead K ctx φ (fh.fatEntry.startAddress.toNat + pos) (min len (fh.fatEntry.dataSize.toNat - pos))
      (some fh.fatEntry.fek) fh.uuid)

def tmpBlockSize : ℕ := 4096

def readOldBlock (fh : Fh) (pos blkOffset blkSize : ℕ) : Fs (List UInt8) :=
  let oldSize := fh.fatEntry.dataSize.toNat
  if blkOffset < pos ∧ blkOffset < oldSize then
    teeRpmbRead K ctx φ (fh.fatEntry.startAddress.toNat + blkOffset) (min blkSize (oldSize - blkOffset))
      (some fh.fatEntry.fek) fh.uuid
  else pure []

def updateBlock (pos size blkOffset blkSize : ℕ) (old remBuf : List UInt8) : List UInt8 × List UInt8 :=
  let blkBuf := extend old blkSize
  if blkOffset + tmpBlockSize > pos ∧ blkOffset < pos + size then
    let offset := pos - blkOffset
    let copySize := min (tmpBlockSize - offset) remBuf.length
    ((patch blkBuf offset (remBuf.take copySize)).take blkSize, remBuf.drop copySize)
  else (blkBuf, remBuf)

def updateWriteHelper (fh : Fh) (pos : ℕ) (buf : List UInt8) (newFat newSize : ℕ) : Fs (List UInt8) :=
  (List.range ((newSize + tmpBlockSize - 1) / tmpBlockSize)).foldlM (fun remBuf i => do
    let blkOffset := tmpBlockSize * i
    let blkSize := min tmpBlockSize (newSize - blkOffset)
    let old ← readOldBlock K ctx φ fh pos blkOffset blkSize
    let blk := updateBlock pos buf.length blkOffset blkSize old remBuf
    teeRpmbWrite K ctx φ (newFat + blkOffset) blk.1 (some fh.fatEntry.fek) fh.uuid
    pure blk.2) buf

def setPlace (addr size : ℕ) (fh : Fh) : Fh :=
  { fh with fatEntry := { fh.fatEntry with dataSize := UInt32.ofNat size, startAddress := UInt32.ofNat addr } }

def reallocate (fh : Fh) (p : Pool) (pos : ℕ) (buf : List UInt8) : OnFh Unit :=
  let newSize := max (pos + buf.length) fh.fatEntry.dataSize.toNat
  match p.alloc newSize with
  | .error _ => throw (.code .storageNoSpace)
  | .ok (mm, _) => do
    let newFat := p.getSmem mm
    let _ ← onDevice (updateWriteHelper K ctx φ fh pos buf newFat newSize)
    modifyFh (setPlace newFat newSize)
    writeFatEntry K ctx φ true

def writeFile (fh : Fh) (p : Pool) (pos : ℕ) (buf : List UInt8) : OnFh Unit :=
  if fh.fatEntry.isLast then throw (.code .panic)
  else if pos + buf.length ≥ 2 ^ 64 ∨ fh.fatEntry.startAddress.toNat + pos ≥ 2 ^ 32 then throw (.code .badParameters)
  else if pos + buf.length ≤ fh.fatEntry.dataSize.toNat ∧
      teeRpmbWriteIsAtomic ctx (fh.fatEntry.startAddress.toNat + pos) buf.length then
    onDevice (teeRpmbWrite K ctx φ (fh.fatEntry.startAddress.toNat + pos) buf (some fh.fatEntry.fek) fh.uuid)
  else reallocate K ctx φ fh p pos buf

def rpmbFsWritePrimitive (pos : ℕ) (buf : List UInt8) : OnFh Unit :=
  if buf = [] then pure ()
  else do
    let p ← readFat K ctx φ (some (initPool ctx))
    let fh ← getFh
    writeFile K ctx φ fh (p.getD (initPool ctx)) pos buf

end FileSystem

end Optee.RpmbFs
