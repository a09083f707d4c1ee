import Optee.Lib.Effects
import Optee.ReeFs.Dirfile
import Optee.ReeFs.File

/-! The calls on a data file when any step of them may fail. -/

namespace Optee.ReeFs

open FsHtree Lib.ByteStrings

structure Fault where
  error : TeeError
  applied : ℕ

abbrev Faults := ℕ → Option Fault

structure OpenFd where
  ht : Option Htree
  file : HostFile blockSize
  hash : Bytes 32
  /-- The steps taken so far. -/
  clock : ℕ
  /-- Every state of the host file since the file was opened. -/
  states : List (HostFile blockSize)
  /-- The hash tree operations that failed. -/
  failures : List TeeError

namespace OpenFd

abbrev Run := EStateM Stop OpenFd

def put (fd : OpenFd) (e : Effect) : OpenFd :=
  { fd with file := e.apply fd.file, states := fd.states ++ [e.apply fd.file] }

def putAll (fd : OpenFd) (ws : List (HostWrite blockSize)) : OpenFd := (ws.map Effect.write).foldl put fd

def closed (fd : OpenFd) (e : TeeError) : OpenFd := { fd with ht := none, failures := fd.failures ++ [e] }

def tick (fd : OpenFd) : OpenFd := { fd with clock := fd.clock + 1 }

variable (φ : Faults) (C : Crypto)

def mayFail (e : TeeError) : Run Unit := fun fd =>
  match φ fd.clock with
  | none => .ok () fd.tick
  | some _ => .error (.code e) fd.tick

def length : Run ℕ := fun fd =>
  match fd.ht with
  | none => .error (.panic .nullTree) fd
  | some ht => .ok ht.imeta.metadata.length.toNat fd

def setLength (len : ℕ) : Run Unit := fun fd =>
  match fd.ht with
  | none => .error (.panic .nullTree) fd
  | some ht => .ok () { fd with ht := some (setMeta ht ⟨UInt64.ofNat len⟩) }

def treeOp {α : Type} (op : HostFile blockSize → Htree → TeeResult (α × Htree × List (HostWrite blockSize))) : Run α :=
  fun fd =>
    match fd.ht with
    | none => .error (.code .corruptObject) fd
    | some ht =>
      match op fd.file ht, φ fd.clock with
      | .error e, _ => .error (Stop.ofError e) (fd.tick.closed e)
      | .ok (a, ht, ws), none => .ok a { fd.tick.putAll ws with ht := some ht }
      | .ok (_, _, ws), some f => .error (.code f.error) ((fd.tick.putAll (ws.take f.applied)).closed f.error)

def readTree (num : ℕ) : Run (Bytes blockSize) :=
  treeOp φ (fun f ht => do
    let b ← readBlock C f ht num
    pure (b, ht, []))

def writeTree (num : ℕ) (block : Bytes blockSize) (iv : Bytes 16) : Run Unit :=
  treeOp φ (fun _ ht => do
    let (ht, ws) ← writeBlock C ht num block iv
    pure ((), ht, ws))

def sync (iv : Bytes 16) : Run Unit := fun fd =>
  match fd.ht with
  | none => .error (.code .corruptObject) fd
  | some ht =>
    if !ht.dirty then .ok () fd
    else (do
      mayFail φ .outOfMemory
      let hash ← treeOp φ (fun _ ht => do
        let (ht, hash, ws) ← syncToStorage C ht fd.hash iv
        pure (hash, ht, ws))
      modify (fun fd => { fd with hash }) : Run Unit) fd

def truncateTree (num : ℕ) : Run Unit := fun fd =>
  match fd.ht with
  | none => .error (.code .corruptObject) fd
  | some ht =>
    match truncateHtree ht num with
    | .error e => .error (Stop.ofError e) fd
    | .ok ht => .ok () { fd with ht := some ht }

def rpcTruncate (len : ℕ) : Run Unit := fun fd =>
  match φ fd.clock with
  | none => .ok () (fd.tick.put (.truncate len))
  | some f => .error (.code f.error) (if f.applied = 0 then fd.tick else fd.tick.put (.truncate len))

structure Cursor where
  pos : ℕ
  remain : ℕ
  data : Option (List UInt8)

def oldBlock (num len : ℕ) : Run (Bytes blockSize) :=
  if num * blockSize % 2 ^ 64 < roundup len then readTree φ C num else pure (zeroBytes blockSize)

def writeTurn (ivs : ℕ → Bytes 16) (s : Cursor) (num : ℕ) : Run Cursor := do
  let size := sizeInBlock s.pos s.remain
  let len ← length
  let block ← oldBlock φ C num len
  let chunk := s.data.elim (List.replicate size 0) (List.take size)
  writeTree φ C num (overlay block (s.pos % blockSize) chunk) (ivs num)
  pure ⟨s.pos + size, s.remain - size, s.data.map (List.drop size)⟩

def outOfPlaceWrite (pos : ℕ) (buf : Option (List UInt8)) (len : ℕ) (ivs : ℕ → Bytes 16) : Run Unit := do
  let start := toSize (posToBlockNum pos)
  let stop := toSize (posToBlockNum (pos + len - 1))
  if len = 0 then throw (.code .badParameters)
  else do
    mayFail φ .outOfMemory
    let s ← (List.range' start (stop + 1 - start)).foldlM (writeTurn φ C ivs) ⟨pos, len, buf⟩
    if s.pos > (← length) then setLength s.pos else pure ()

def ftruncateInternal (newLen : ℕ) (ivs : ℕ → Bytes 16) : Run Unit := do
  let len ← length
  if newLen > len then outOfPlaceWrite φ C len none (newLen - len) ivs
  else do
    truncateTree (newLen / blockSize)
    rpcTruncate φ (truncateAt (roundup newLen / blockSize))
    setLength newLen

def readTurn (s : ReadLoop) (num : ℕ) : Run ReadLoop := do
  let size := sizeInBlock s.pos s.remain
  let block ← readTree φ C num
  pure ⟨s.pos + size, s.remain - size, s.out ++ slice block.toList (s.pos % blockSize) size⟩

def readRemain (pos len : ℕ) : Run ℕ := do
  if (pos + len) % 2 ^ 64 < len then pure 0
  else do
    let fileLen ← length
    pure (if pos > fileLen then 0 else if (pos + len) % 2 ^ 64 > fileLen then fileLen - pos else len)

def readPrimitive (pos len : ℕ) : Run (ℕ × List UInt8) := do
  let remain ← readRemain pos len
  if remain = 0 then pure (0, [])
  else do
    mayFail φ .outOfMemory
    let s ← (readBlocks pos (pos + remain - 1)).foldlM (readTurn φ C) ⟨pos, remain, []⟩
    pure (remain, s.out)

def extendTo (fileSize pos : ℕ) (ivs : ℕ → Bytes 16) : Run Unit :=
  if fileSize < pos then ftruncateInternal φ C pos ivs else pure ()

def writePrimitive (pos : ℕ) (buf : List UInt8) (ivs : ℕ → ℕ → Bytes 16) : Run Unit := do
  if buf.length = 0 then pure ()
  else do
    let fileSize ← length
    if (pos + buf.length) % 2 ^ 64 < buf.length then throw (.code .badParameters)
    else do
      extendTo φ C fileSize pos (ivs 0)
      outOfPlaceWrite φ C pos (some buf) buf.length (ivs 1)

section Rules

open Lib.Effects

variable {φ C} {P : OpenFd → Prop} {R : Stop → OpenFd → Prop}

structure Stable (φ : Faults) (P : OpenFd → Prop) (R : Stop → OpenFd → Prop) : Prop where
  code : ∀ c fd, P fd → R (.code c) fd
  length : Preserves P OpenFd.length R
  setLength : ∀ len, Preserves P (OpenFd.setLength len) R
  hash : ∀ hash fd, P fd → P { fd with hash }
  mayFail : ∀ e, Preserves P (OpenFd.mayFail φ e) R
  treeOp : ∀ {α : Type} (op : HostFile blockSize → Htree → TeeResult (α × Htree × List (HostWrite blockSize))),
    Preserves P (OpenFd.treeOp φ op) R
  truncateTree : ∀ num, Preserves P (OpenFd.truncateTree num) R
  rpcTruncate : ∀ len, Preserves P (OpenFd.rpcTruncate φ len) R

namespace Stable

variable (h : Stable φ P R)
include h

lemma sync (iv : Bytes 16) : Preserves P (OpenFd.sync φ C iv) R := by
  intro fd hfd
  unfold OpenFd.sync
  split
  · exact h.code _ _ hfd
  · split_ifs
    · exact hfd
    · exact (h.mayFail _).bind (fun _ => (h.treeOp _).bind (fun _ => .modify (h.hash _))) fd hfd

lemma writeTurn (ivs : ℕ → Bytes 16) (s : Cursor) (num : ℕ) :
    Preserves P (OpenFd.writeTurn φ C ivs s num) R := by
  refine h.length.bind (fun len => .bind (Q := fun _ => P) ?_ (fun block => ?_))
  · unfold oldBlock
    split_ifs
    · exact h.treeOp _
    · exact .pure (fun _ => id)
  · exact (h.treeOp _).bind (fun _ => .pure (fun _ => id))

lemma outOfPlaceWrite (pos : ℕ) (buf : Option (List UInt8)) (len : ℕ) (ivs : ℕ → Bytes 16) :
    Preserves P (OpenFd.outOfPlaceWrite φ C pos buf len ivs) R := by
  unfold OpenFd.outOfPlaceWrite
  split_ifs
  · exact .throw (h.code _)
  refine (h.mayFail _).bind (fun _ => .bind (Spec.foldlM _ _ (h.writeTurn ivs)) (fun s => ?_))
  refine h.length.bind (fun len => ?_)
  split_ifs
  · exact h.setLength _
  · exact .pure (fun _ => id)

lemma ftruncateInternal (newLen : ℕ) (ivs : ℕ → Bytes 16) :
    Preserves P (OpenFd.ftruncateInternal φ C newLen ivs) R := by
  refine h.length.bind (fun len => ?_)
  split_ifs
  · exact h.outOfPlaceWrite _ _ _ _
  · exact (h.truncateTree _).bind (fun _ => (h.rpcTruncate _).bind (fun _ => h.setLength _))

lemma writePrimitive (pos : ℕ) (buf : List UInt8) (ivs : ℕ → ℕ → Bytes 16) :
    Preserves P (OpenFd.writePrimitive φ C pos buf ivs) R := by
  unfold OpenFd.writePrimitive
  split_ifs
  · exact .pure (fun _ => id)
  · exact h.length.bind (fun _ => .throw (h.code _))
  refine h.length.bind (fun len => .bind ?_ (fun _ => h.outOfPlaceWrite _ _ _ _))
  unfold extendTo
  split_ifs
  · exact h.ftruncateInternal _ _
  · exact .pure (fun _ => id)

lemma readPrimitive (pos len : ℕ) : Preserves P (OpenFd.readPrimitive φ C pos len) R := by
  refine .bind (Q := fun _ => P) ?_ (fun remain => ?_)
  · unfold readRemain
    split_ifs
    · exact .pure (fun _ => id)
    · exact h.length.bind (fun _ => .pure (fun _ => id))
  · split_ifs
    · exact .pure (fun _ => id)
    · refine (h.mayFail _).bind (fun _ => .bind (Spec.foldlM (I := fun _ => P) _ _ (fun s num => ?_)) (fun _ => ?_))
      · exact (h.treeOp _).bind (fun _ => .pure (fun _ => id))
      · exact .pure (fun _ => id)

end Stable

lemma stable_stops {E : Stop → Prop} (hE : ∀ e, e.Plain → E e) (hnull : E (.panic .nullTree)) :
    Stable φ (fun _ => True) (fun e _ => E e) where
  code _ _ _ := hE _ trivial
  length := by
    intro fd _
    unfold OpenFd.length
    split
    · exact hnull
    · trivial
  setLength len := by
    intro fd _
    unfold OpenFd.setLength
    split
    · exact hnull
    · trivial
  hash _ _ h := h
  mayFail e := by
    intro fd _
    unfold OpenFd.mayFail
    split
    · trivial
    · exact hE _ trivial
  treeOp op := by
    intro fd _
    unfold OpenFd.treeOp
    split
    · exact hE _ trivial
    · split
      · exact hE _ (Stop.plain_ofError _)
      · trivial
      · exact hE _ trivial
  truncateTree num := by
    intro fd _
    unfold OpenFd.truncateTree
    split
    · exact hE _ trivial
    · split
      · exact hE _ (Stop.plain_ofError _)
      · trivial
  rpcTruncate len := by
    intro fd _
    unfold OpenFd.rpcTruncate
    split
    · trivial
    · exact hE _ trivial

end Rules

end OpenFd

end Optee.ReeFs
