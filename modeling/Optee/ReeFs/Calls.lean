import Optee.ReeFs.Fallible

/-! The calls of the REE file system on the directory and the open files. -/

namespace Optee.ReeFs.Calls

open FsHtree Lib.ByteStrings Lib.Effects

structure Name where
  uuid : Uuid
  oid : List UInt8
  deriving DecidableEq

structure HostStorage where
  dir : Option (List Dirent)
  names : ℕ → Option ℕ
  inodes : ℕ → HostFile blockSize

structure OpenFile where
  ht : Option Htree
  inode : ℕ
  dfh : Fileh
  failures : List TeeError

structure DirStream where
  dirh : ℕ
  uuid : Uuid
  idx : Option ℕ

inductive DirCall
  | load
  /-- The number given out, and those of the files being created at that time. -/
  | getTmp (n : ℕ) (creating : List ℕ)
  /-- Whether an older entry of the name is still to be removed. -/
  | rename (pending : Bool)
  | remove
  | updateHash
  | commit

structure World where
  storage : HostStorage
  dirh : Option Dirh
  refcount : ℕ
  files : List OpenFile
  streams : List DirStream
  /-- The directory handles opened so far. -/
  opened : ℕ
  inodeCount : ℕ
  clock : ℕ
  /-- Every state the storage has been in. -/
  states : List HostStorage
  /-- The calls on the directory file, each with the handle it left. -/
  trail : List (DirCall × Dirh)

namespace World

def tick (w : World) : World := { w with clock := w.clock + 1 }

def store (w : World) (s : HostStorage) : World := { w with storage := s, states := w.states ++ [s] }

def record (w : World) (call : DirCall) (d : Dirh) : World :=
  { w with dirh := some d, trail := w.trail ++ [(call, d)] }

def setInode (s : HostStorage) (inode : ℕ) (f : HostFile blockSize) : HostStorage :=
  { s with inodes := Function.update s.inodes inode f }

def loadDirh (w : World) : World :=
  let dents := w.storage.dir.getD []
  ({ w with opened := w.opened + 1 }.store { w.storage with dir := some dents }).record .load (Dirh.load w.opened dents)

def creating (w : World) : List ℕ := (w.files.filter (fun h => h.dfh.idx.isNone)).map (fun h => h.dfh.fileNumber)

def fdOf (w : World) (h : OpenFile) : OpenFd :=
  ⟨h.ht, w.storage.inodes h.inode, h.dfh.hash, w.clock, [], h.failures⟩

def putFd (w : World) (i : ℕ) (h : OpenFile) (fd : OpenFd) : World :=
  { w with
    files := w.files.set i { h with ht := fd.ht, dfh := { h.dfh with hash := fd.hash }, failures := fd.failures }
    storage := setInode w.storage h.inode fd.file
    states := w.states ++ fd.states.map (setInode w.storage h.inode)
    clock := fd.clock }

def putDirh (w : World) (close : Bool) : World :=
  { w with refcount := w.refcount - 1, dirh := if w.refcount - 1 = 0 ∨ close = true then none else w.dirh }

end World

abbrev Fs := EStateM Stop World

variable {α : Type} (φ : Faults) (C : Crypto)

def liftExcept (x : Except Stop α) : Fs α := fun w =>
  match x with
  | .ok a => .ok a w
  | .error e => .error e w

def mayFail : Fs Unit := fun w =>
  match φ w.clock with
  | none => .ok () w.tick
  | some f => .error (.code f.error) w.tick

def onError (p : Fs α) (cleanup : Fs Unit) : Fs α := fun w =>
  match p w with
  | .ok a w => .ok a w
  | .error (.panic a) w => .error (.panic a) w
  | .error (.code e) w =>
    match cleanup w with
    | .ok _ w => .error (.code e) w
    | .error e w => .error e w

def theDirh : Fs Dirh := fun w =>
  match w.dirh with
  | some d => .ok d w
  | none => .error (.panic .sharedDirh) w

def ensureDirh : Fs Unit := do
  let w ← get
  match w.dirh with
  | some _ => pure ()
  | none => do
    mayFail φ
    modify World.loadDirh

def getDirh : Fs ℕ := do
  ensureDirh φ
  modify (fun w => { w with refcount := w.refcount + 1 })
  let d ← theDirh
  pure d.id

def putDirhPrimitive (close : Bool) : Fs Unit := fun w =>
  if w.refcount = 0 then .error (.panic .refcount) w else .ok () (w.putDirh close)

def putDirh (dirh : ℕ) (close : Bool) : Fs Unit := do
  if (← get).dirh.map Dirh.id = some dirh then putDirhPrimitive close else throw (.panic .sharedDirh)

def lookup (name : Name) : Fs Fileh := do
  let d ← theDirh
  liftExcept (d.find name.uuid name.oid)

def lookup? (name : Name) : Fs (Option Fileh) := do
  let d ← theDirh
  match d.find name.uuid name.oid with
  | .ok dfh => pure (some dfh)
  | .error (.code _) => pure none
  | .error e => throw e

def changeDirh (call : DirCall) (f : Dirh → Except Stop (Dirh × α)) : Fs α := do
  let d ← theDirh
  let r ← liftExcept (f d)
  mayFail φ
  modify (fun w => w.record call r.1)
  pure r.2

def maybeGrowFiles (d : Dirh) : Fs Unit := if d.tmpNumber < d.files.length then pure () else mayFail φ

def dirfileGetTmp : Fs Fileh := do
  let d ← theDirh
  maybeGrowFiles φ d
  modify (fun w => w.record (.getTmp d.tmpNumber w.creating) d.getTmp)
  pure ⟨d.tmpNumber, zeroBytes 32, none⟩

def dirfileRename (pending : Bool) (name : Name) (dfh : Fileh) : Fs Fileh :=
  changeDirh φ (.rename pending) (fun d => d.rename name.uuid dfh name.oid)

def dirfileRemove (dfh : Fileh) : Fs Unit := changeDirh φ .remove (fun d => (d.remove dfh).map (·, ()))

def dirfileUpdateHash (dfh : Fileh) : Fs Unit := changeDirh φ .updateHash (fun d => (d.updateHash dfh).map (·, ()))

def commitDirhWrites : Fs Unit := do
  let d ← theDirh
  mayFail φ
  modify (fun w => (w.store { w.storage with dir := some d.dents }).record .commit d)

def rpcRemove (n : ℕ) : Fs Unit := fun w =>
  match φ w.clock with
  | some _ => .ok () w.tick
  | none => .ok () (w.tick.store { w.storage with names := Function.update w.storage.names n none })

def onFile (i : ℕ) (p : OpenFd.Run α) : Fs α := fun w =>
  match w.files[i]? with
  | none => .error (.panic .noHandle) w
  | some h => zoom (fun w => w.fdOf h) (fun w fd => w.putFd i h fd) p w

def theFile (i : ℕ) : Fs OpenFile := fun w =>
  match w.files[i]? with
  | none => .error (.panic .noHandle) w
  | some h => .ok h w

def setDfh (i : ℕ) (dfh : Fileh) : Fs Unit := modify (fun w => { w with files := w.files.modify i ({ · with dfh }) })

def rpcCreate (n : ℕ) : Fs ℕ := do
  mayFail φ
  let w ← get
  let inode := (w.storage.names n).getD w.inodeCount
  let names := Function.update w.storage.names n (some inode)
  modify (fun w => { w with inodeCount := max w.inodeCount (inode + 1) }.store
    (World.setInode { w.storage with names } inode HostFile.empty))
  pure inode

def writeInode (inode : ℕ) (ws : List (HostWrite blockSize)) : Fs Unit :=
  modify (fun w => ws.foldl (fun w x => w.store
    (World.setInode w.storage inode ((w.storage.inodes inode).writeAll [x]))) w)

def createTree (uuid : Uuid) (inode : ℕ) (fek iv : Bytes 16) : Fs (Htree × Bytes 32) := do
  match createHtree C (some uuid) fek iv with
  | .error e => throw (Stop.ofError e)
  | .ok (ht, hash, ws) =>
    match φ (← get).clock with
    | some f => do
      modify World.tick
      writeInode inode (ws.take f.applied)
      throw (.code f.error)
    | none => do
      modify World.tick
      writeInode inode ws
      pure (ht, hash)

def createPrimitive (uuid : Uuid) (dfh : Fileh) (fek iv : Bytes 16) : Fs ℕ := do
  let r ← onError (do
    let inode ← rpcCreate φ dfh.fileNumber
    let r ← createTree φ C uuid inode fek iv
    pure (inode, r)) (rpcRemove φ dfh.fileNumber)
  let w ← get
  modify (fun w => { w with files := w.files ++ [⟨some r.2.1, r.1, { dfh with hash := r.2.2 }, []⟩] })
  pure w.files.length

def openPrimitive (uuid : Uuid) (dfh : Fileh) : Fs Unit := do
  let w ← get
  match w.storage.names dfh.fileNumber with
  | none => throw (.code .itemNotFound)
  | some inode => do
    mayFail φ
    match openHtree C (w.storage.inodes inode) (some dfh.hash) (some uuid) with
    | .error e => throw (Stop.ofError e)
    | .ok ht => modify (fun w => { w with files := w.files ++ [⟨some ht, inode, dfh, []⟩] })

def closePrimitive (i : ℕ) : Fs Unit := modify (fun w => { w with files := w.files.eraseIdx i })

def notFoundIsCorrupt (p : Fs α) : Fs α := fun w =>
  match p w with
  | .error (.code .itemNotFound) w => .error (.code .corruptObject) w
  | r => r

def reeFsOpen (name : Name) : Fs Unit := do
  let dirh ← getDirh φ
  onError (do
    let dfh ← lookup name
    notFoundIsCorrupt (openPrimitive φ C name.uuid dfh)) (putDirh dirh false)

def forOld (old : Option Fileh) (f : Fileh → Fs Unit) : Fs Unit := old.elim (pure ()) f

def setName (i : ℕ) (name : Name) (overwrite : Bool) : Fs Unit := do
  let old ← lookup? name
  if !overwrite && old.isSome then throw (.code .accessConflict)
  else do
    let h ← theFile i
    let dfh ← dirfileRename φ false name { h.dfh with idx := old.bind Fileh.idx }
    setDfh i dfh
    commitDirhWrites φ
    forOld old (fun dfh => rpcRemove φ dfh.fileNumber)

def reeFsClose (i : ℕ) : Fs Unit := do
  let _ ← theFile i
  putDirhPrimitive false
  closePrimitive i

structure Creation where
  head : List UInt8
  attr : List UInt8
  data : List UInt8
  fek : Bytes 16
  iv : Bytes 16
  ivs : ℕ → ℕ → ℕ → Bytes 16
  syncIv : Bytes 16

def reeFsCreate (name : Name) (overwrite : Bool) (c : Creation) : Fs Unit := do
  let dirh ← getDirh φ
  let dfh ← onError (dirfileGetTmp φ) (putDirh dirh true)
  let i ← onError (createPrimitive φ C name.uuid dfh c.fek c.iv) (putDirh dirh true)
  onError (do
    onFile i (do
      OpenFd.writePrimitive φ C 0 c.head (c.ivs 0)
      OpenFd.writePrimitive φ C c.head.length c.attr (c.ivs 1)
      OpenFd.writePrimitive φ C (c.head.length + c.attr.length) c.data (c.ivs 2)
      OpenFd.sync φ C c.syncIv)
    setName φ i name overwrite) (do
    putDirh dirh true
    closePrimitive i
    rpcRemove φ dfh.fileNumber)

def reeFsRead (i pos len : ℕ) : Fs (ℕ × List UInt8) := onFile i (OpenFd.readPrimitive φ C pos len)

def reeFsChange (i : ℕ) (change : OpenFd.Run Unit) (iv : Bytes 16) : Fs Unit := do
  let dirh ← getDirh φ
  onError (do
    onFile i (do
      change
      OpenFd.sync φ C iv)
    let h ← theFile i
    dirfileUpdateHash φ h.dfh
    commitDirhWrites φ) (putDirh dirh true)
  putDirh dirh false

def reeFsWrite (i pos : ℕ) (buf : List UInt8) (ivs : ℕ → ℕ → Bytes 16) (iv : Bytes 16) : Fs Unit :=
  reeFsChange φ C i (OpenFd.writePrimitive φ C pos buf ivs) iv

def reeFsTruncate (i len : ℕ) (ivs : ℕ → Bytes 16) (iv : Bytes 16) : Fs Unit :=
  reeFsChange φ C i (OpenFd.ftruncateInternal φ C len ivs) iv

def reeFsRename (old new : Name) (overwrite : Bool) : Fs Unit := do
  let dirh ← getDirh φ
  onError (do
    let removed ← lookup? new
    if !overwrite && removed.isSome then throw (.code .accessConflict)
    else do
      let dfh ← lookup old
      let _ ← dirfileRename φ removed.isSome new dfh
      forOld removed (dirfileRemove φ)
      commitDirhWrites φ
      forOld removed (fun dfh => rpcRemove φ dfh.fileNumber)) (putDirh dirh true)
  putDirh dirh false

def reeFsRemove (name : Name) : Fs Unit := do
  let dirh ← getDirh φ
  onError (do
    let dfh ← lookup name
    dirfileRemove φ dfh
    commitDirhWrites φ
    rpcRemove φ dfh.fileNumber
    let found ← lookup? name
    if found.isSome then throw (.panic .stillFound)) (putDirh dirh true)
  putDirh dirh false

def reeFsOpendir (uuid : Uuid) : Fs Unit := do
  let dirh ← getDirh φ
  onError (do
    let d ← theDirh
    let _ ← liftExcept (d.getNext uuid none)) (putDirh dirh false)
  modify (fun w => { w with streams := w.streams ++ [⟨dirh, uuid, none⟩] })

def theStream (j : ℕ) : Fs DirStream := fun w =>
  match w.streams[j]? with
  | none => .error (.panic .noHandle) w
  | some d => .ok d w

def reeFsClosedir (j : ℕ) : Fs Unit := do
  let d ← theStream j
  putDirh d.dirh false
  modify (fun w => { w with streams := w.streams.eraseIdx j })

def reeFsReaddir (j : ℕ) : Fs (List UInt8) := do
  let s ← theStream j
  if (← get).dirh.map Dirh.id ≠ some s.dirh then throw (.panic .sharedDirh)
  else do
    let d ← theDirh
    let r ← liftExcept (d.getNext s.uuid s.idx)
    modify (fun w => { w with streams := w.streams.modify j ({ · with idx := some r.1 }) })
    pure r.2

def reboot : Fs Unit := modify (fun w => { w with dirh := none, refcount := 0, files := [], streams := [] })

inductive Call
  | load (name : Name)
  | create (name : Name) (overwrite : Bool) (c : Creation)
  | close (i : ℕ)
  | read (i pos len : ℕ)
  | write (i pos : ℕ) (buf : List UInt8) (ivs : ℕ → ℕ → Bytes 16) (iv : Bytes 16)
  | truncate (i len : ℕ) (ivs : ℕ → Bytes 16) (iv : Bytes 16)
  | rename (old new : Name) (overwrite : Bool)
  | remove (name : Name)
  | opendir (uuid : Uuid)
  | closedir (j : ℕ)
  | readdir (j : ℕ)
  | reboot

def Call.exec : Call → Fs Unit
  | .load name => reeFsOpen φ C name
  | .create name overwrite c => reeFsCreate φ C name overwrite c
  | .close i => reeFsClose i
  | .read i pos len => do
    let _ ← reeFsRead φ C i pos len
  | .write i pos buf ivs iv => reeFsWrite φ C i pos buf ivs iv
  | .truncate i len ivs iv => reeFsTruncate φ C i len ivs iv
  | .rename old new overwrite => reeFsRename φ old new overwrite
  | .remove name => reeFsRemove φ name
  | .opendir uuid => reeFsOpendir φ uuid
  | .closedir j => reeFsClosedir j
  | .readdir j => do
    let _ ← reeFsReaddir j
  | .reboot => Calls.reboot

def World.step (w : World) (c : Call) : Except Panic World :=
  match c.exec φ C w with
  | .ok _ w => .ok w
  | .error (.code _) w => .ok w
  | .error (.panic a) _ => .error a

end Optee.ReeFs.Calls
