import Optee.Lib.Runs
import Optee.Rpmb.FatEntry
import Optee.TeeResult

/-! Traversal of the file allocation table through the buffer that caches its first entries. -/

namespace Optee.Rpmb

structure FatConfig where
  cacheEntries : ℕ
  rdEntries : ℕ

structure FatEntryDir where
  buf : List FatEntry
  idxCurr : ℕ
  numBuffered : ℕ
  numTotalRead : ℕ
  lastReached : Bool

abbrev StoredFat := ℕ → FatEntry

variable (F : FatConfig) (stored : StoredFat)

def readEntries (idx n : ℕ) : List FatEntry := (List.range n).map (fun k => stored (idx + k))

def realloc (buf : List FatEntry) (n : ℕ) : List FatEntry := buf.take n ++ List.replicate (n - buf.length) FatEntry.zero

def readInto (buf : List FatEntry) (offset idx n : ℕ) : Option TeeError → TeeResult (List FatEntry)
  | some e => .error e
  | none => do
    assert (offset + n ≤ buf.length)
    pure (buf.take offset ++ readEntries stored idx n ++ buf.drop (offset + n))

def fatEntryDirInit (fault : Option TeeError) : Option FatEntryDir → TeeResult FatEntryDir
  | some dir => pure dir
  | none => do
    let n := if F.cacheEntries ≠ 0 then min F.cacheEntries F.rdEntries else F.rdEntries
    let buf ← readInto stored (realloc [] n) 0 0 n fault
    pure ⟨buf, 0, n, 0, false⟩

def fatEntryDirDeinit (shrinkFault : Bool) : Option FatEntryDir → Option FatEntryDir
  | none => none
  | some dir =>
    if F.cacheEntries = 0 then none
    else
      let dir := { dir with idxCurr := 0, numTotalRead := 0, lastReached := false }
      if dir.numBuffered > F.cacheEntries then
        if shrinkFault then none
        else some { dir with numBuffered := F.cacheEntries, buf := realloc dir.buf F.cacheEntries }
      else some dir

def fatEntryDirUpdate (entry : FatEntry) (idx : ℕ) : Option FatEntryDir → TeeResult (Option FatEntryDir)
  | none => pure none
  | some dir =>
    if idx < dir.numBuffered ∧ idx < F.cacheEntries then do
      assert (idx < dir.buf.length)
      pure (some { dir with buf := dir.buf.set idx entry })
    else pure (some dir)

structure ReadFault where
  alloc : Option TeeError
  read : Option TeeError

def refill (fault : ReadFault) (dir : FatEntryDir) : TeeResult Unit × FatEntryDir :=
  if dir.idxCurr < dir.numBuffered then (.ok (), dir)
  else if F.cacheEntries = 0 then
    let dir := { dir with idxCurr := 0 }
    match readInto stored dir.buf 0 dir.numTotalRead F.rdEntries fault.read with
    | .error e => (.error e, dir)
    | .ok buf => (.ok (), { dir with buf })
  else if dir.numTotalRead < F.cacheEntries + F.rdEntries then
    let n := min (F.cacheEntries + F.rdEntries - dir.numTotalRead) F.rdEntries
    match fault.alloc with
    | some e => (.error e, dir)
    | none =>
      let dir := { dir with buf := realloc dir.buf (dir.numBuffered + n) }
      match readInto stored dir.buf dir.numTotalRead dir.numTotalRead n fault.read with
      | .error e => (.error e, dir)
      | .ok buf => (.ok (), { dir with buf, numBuffered := dir.numBuffered + n })
  else
    let dir := { dir with idxCurr := F.cacheEntries }
    match readInto stored dir.buf dir.idxCurr dir.numTotalRead F.rdEntries fault.read with
    | .error e => (.error e, dir)
    | .ok buf => (.ok (), { dir with buf })

def fatEntryDirGetNext (fault : ReadFault) (dir : FatEntryDir) : TeeResult (Option (FatEntry × ℕ)) × FatEntryDir :=
  if dir.lastReached then (.ok none, dir)
  else
    let address := fatStartAddress + dir.numTotalRead * fatEntrySize
    match refill F stored fault dir with
    | (.error e, dir) => (.error e, dir)
    | (.ok _, dir) =>
      match dir.buf[dir.idxCurr]? with
      | none => (.error .panic, dir)
      | some entry =>
        (.ok (some (entry, address)), { dir with
          idxCurr := dir.idxCurr + 1
          numTotalRead := dir.numTotalRead + 1
          lastReached := entry.isLast })

structure Traversal where
  visited : ℕ
  ended : Bool
  failed : Bool
  deriving DecidableEq

structure FatWorld where
  stored : StoredFat
  dir : Option FatEntryDir
  traversal : Option Traversal

inductive FatEvent
  | init (fault : Option TeeError)
  | next (fault : ReadFault)
  | deinit (shrinkFault : Bool)
  | write (idx : ℕ) (entry : FatEntry)

def writeFatEntry (idx : ℕ) (entry : FatEntry) (dir : Option FatEntryDir) : TeeResult (StoredFat × Option FatEntryDir) := do
  let stored := Function.update stored idx entry
  let dir ← if F.cacheEntries ≠ 0 then fatEntryDirUpdate F entry idx dir else pure dir
  pure (stored, dir)

namespace FatWorld

def step (w : FatWorld) (event : FatEvent) : TeeResult FatWorld :=
  match event, w.traversal with
  | .init fault, none =>
    match fatEntryDirInit F w.stored fault w.dir with
    | .error _ => pure { w with dir := none }
    | .ok dir => pure { w with dir := some dir, traversal := some ⟨0, false, false⟩ }
  | .next fault, some traversal => do
    let dir ← orError .panic w.dir
    match fatEntryDirGetNext F w.stored fault dir with
    | (.error _, dir) => pure { w with dir := some dir, traversal := some { traversal with failed := true } }
    | (.ok none, dir) => pure { w with dir := some dir }
    | (.ok (some (entry, _)), dir) =>
      let traversal := { traversal with visited := traversal.visited + 1, ended := entry.isLast }
      pure { w with dir := some dir, traversal := some traversal }
  | .deinit shrinkFault, _ => pure { w with dir := fatEntryDirDeinit F shrinkFault w.dir, traversal := none }
  | .write idx entry, _ => do
    let (stored, dir) ← writeFatEntry F w.stored idx entry w.dir
    pure { w with stored, dir }
  | _, _ => .error .generic

end FatWorld

end Optee.Rpmb
