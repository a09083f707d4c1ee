import Optee.Storage.Pobj

/-! The system calls on persistent objects in the REE file system. -/

namespace Optee.Storage

open FsHtree ReeFs ReeFs.Calls Lib.ByteStrings Lib.Effects

structure Svc where
  fs : World
  table : Table Name
  objs : List Obj

abbrev Sys := EStateM Stop Svc

variable {α : Type}

def onFs (p : Fs α) : Sys α := zoom Svc.fs (fun s w => { s with fs := w }) p

def onCode (p : Sys α) (handler : TeeError → Sys Unit) : Sys α := fun s =>
  match p s with
  | .error (.code e) s =>
    match handler e s with
    | .ok _ s => .error (.code e) s
    | .error e s => .error e s
  | r => r

def tryFs (p : Fs Unit) : Sys Unit := fun s =>
  match onFs p s with
  | .error (.code _) s => .ok () s
  | r => r

def pobjGet (name : Name) (flags : Flags) (usage : Usage) : Sys ℕ := fun s =>
  match s.table.get name flags usage with
  | .error e => .error (.code e) s
  | .ok (t, id) => .ok id { s with table := t }

def pobjRelease (id : ℕ) : Sys Unit := modify (fun s => { s with table := s.table.release id })

def pobjCreateFinal (id : ℕ) : Sys Unit := modify (fun s => { s with table := s.table.createFinal id })

def pobjRename (id : ℕ) (new : Name) (memory : Bool) : Sys Unit := fun s =>
  match s.table.rename id new memory with
  | .error e => .error (.code e) s
  | .ok t => .ok () { s with table := t }

def objAdd (o : Obj) : Sys Unit := modify (fun s => { s with objs := s.objs ++ [o] })

def objGet (i : ℕ) : Sys (Obj × Name) := fun s =>
  match s.objs[i]? with
  | none => .error (.code .badState) s
  | some o =>
    match s.table.pobjs.find? (·.id = o.pobj) with
    | none => .error (.code .badState) s
    | some p => .ok (o, p.name) s

def objClose (i : ℕ) (o : Obj) : Sys Unit := do
  modify (fun s => { s with objs := s.objs.eraseIdx i })
  onFs (reeFsClose i)
  pobjRelease o.pobj

def removeCorruptObj (i : ℕ) (o : Obj) (name : Name) (φ : Faults) : Sys Unit := do
  tryFs (reeFsRemove φ name)
  objClose i o

def require (p : Bool) (e : TeeError) : Sys Unit := if p then pure () else throw (.code e)

def sizeofHead : ℕ := 24

structure Head where
  attrSize : ℕ
  verdict : Option TeeError

variable (φ : Faults) (C : Crypto)

def readHead (i : ℕ) (head : Head) : Sys Unit := do
  let _ ← onFs (reeFsRead φ C i 0 sizeofHead)
  let _ ← onFs (reeFsRead φ C i sizeofHead head.attrSize)
  head.verdict.elim (pure ()) (fun e => throw (.code e))

def corruptOr (e : TeeError) (corrupt other : Sys Unit) : Sys Unit := if e = .corruptObject then corrupt else other

def onlyIf (p : Prop) [Decidable p] (x : Sys Unit) : Sys Unit := if p then x else pure ()

def objOpen (name : Name) (flags : Flags) (head : Head) : Sys Unit := do
  let po ← pobjGet name flags .usageOpen
  onCode (onFs (reeFsOpen φ C name)) (fun e => do
    onlyIf (e = .corruptObject) (tryFs (reeFsRemove φ name))
    pobjRelease po)
  objAdd ⟨po, flags⟩
  let i := (← get).objs.length - 1
  onCode (readHead φ C i head) (fun e => corruptOr e (removeCorruptObj i ⟨po, flags⟩ name φ) (objClose i ⟨po, flags⟩))

def FoundCorrupt (e : TeeError) : Prop := e = .corruptObject ∨ e = .noData ∨ e = .badFormat

instance (e : TeeError) : Decidable (FoundCorrupt e) := inferInstanceAs (Decidable (_ ∨ _))

def objCreate (name : Name) (flags : Flags) (prepare : Option TeeError) (c : Creation) : Sys Unit := do
  let po ← pobjGet name flags .usageCreate
  onCode (do
    prepare.elim (pure ()) (fun e => throw (.code e))
    onFs (reeFsCreate φ C name flags.overwrite c)) (fun e => do
    onlyIf (FoundCorrupt e) (tryFs (reeFsRemove φ name))
    pobjRelease po)
  objAdd ⟨po, flags⟩
  pobjCreateFinal po

def objDel (i : ℕ) : Sys Unit := do
  let (o, name) ← objGet i
  require o.flags.accessWriteMeta .accessConflict
  onCode (onFs (reeFsRemove φ name)) (fun _ => objClose i o)
  objClose i o

def objRename (i : ℕ) (oid : List UInt8) (memory : Bool) : Sys Unit := do
  let (o, name) ← objGet i
  require o.flags.accessWriteMeta .badState
  let new : Name := ⟨name.uuid, oid⟩
  let po ← pobjGet new Flags.writeMeta .usageRename
  onCode (do
    onFs (reeFsRename φ name new false)
    pobjRename o.pobj new memory) (fun _ => pobjRelease po)
  pobjRelease po

def objRead (i pos len : ℕ) : Sys Unit := do
  let (o, name) ← objGet i
  require o.flags.accessRead .accessConflict
  onCode (do
    let _ ← onFs (reeFsRead φ C i pos len)) (fun e => corruptOr e (removeCorruptObj i o name φ) (pure ()))

def objWrite (i pos : ℕ) (buf : List UInt8) (ivs : ℕ → ℕ → Bytes 16) (iv : Bytes 16) : Sys Unit := do
  let (o, _) ← objGet i
  require o.flags.accessWrite .accessConflict
  onFs (reeFsWrite φ C i pos buf ivs iv)

def objTrunc (i len : ℕ) (ivs : ℕ → Bytes 16) (iv : Bytes 16) : Sys Unit := do
  let (o, name) ← objGet i
  require o.flags.accessWrite .accessConflict
  onCode (onFs (reeFsTruncate φ C i len ivs iv)) (fun e => corruptOr e (removeCorruptObj i o name φ) (pure ()))

def objCloseCall (i : ℕ) : Sys Unit := do
  let (o, _) ← objGet i
  objClose i o

def nextEnum (uuid : Uuid) (j : ℕ) (head : Head) : Sys Unit := do
  let oid ← onFs (reeFsReaddir j)
  let name : Name := ⟨uuid, oid⟩
  let po ← pobjGet name Flags.none .usageEnum
  onCode (onFs (reeFsOpen φ C name)) (fun _ => pobjRelease po)
  let i := (← get).fs.files.length - 1
  onCode (readHead φ C i head) (fun _ => do
    onFs (reeFsClose i)
    pobjRelease po)
  onFs (reeFsClose i)
  pobjRelease po

inductive Event
  | obtain (name : Name) (flags : Flags) (head : Head)
  | create (name : Name) (flags : Flags) (prepare : Option TeeError) (c : Creation)
  | del (i : ℕ)
  | rename (i : ℕ) (oid : List UInt8) (memory : Bool)
  | read (i pos len : ℕ)
  | write (i pos : ℕ) (buf : List UInt8) (ivs : ℕ → ℕ → Bytes 16) (iv : Bytes 16)
  | trunc (i len : ℕ) (ivs : ℕ → Bytes 16) (iv : Bytes 16)
  | close (i : ℕ)
  | startEnum (uuid : Uuid)
  | nextEnum (uuid : Uuid) (j : ℕ) (head : Head)
  | freeEnum (j : ℕ)

def Event.exec : Event → Sys Unit
  | .obtain name flags head => objOpen φ C name flags head
  | .create name flags prepare c => objCreate φ C name flags prepare c
  | .del i => objDel φ i
  | .rename i oid memory => objRename φ i oid memory
  | .read i pos len => objRead φ C i pos len
  | .write i pos buf ivs iv => objWrite φ C i pos buf ivs iv
  | .trunc i len ivs iv => objTrunc φ C i len ivs iv
  | .close i => objCloseCall i
  | .startEnum uuid => onFs (reeFsOpendir φ uuid)
  | .nextEnum uuid j head => Storage.nextEnum φ C uuid j head
  | .freeEnum j => onFs (reeFsClosedir j)

def Svc.step (s : Svc) (e : Event) : Except Panic Svc :=
  match e.exec φ C s with
  | .ok _ s => .ok s
  | .error (.code _) s => .ok s
  | .error (.panic a) _ => .error a

def Svc.boot (s : HostStorage) (inodeCount : ℕ) : Svc := ⟨World.boot s inodeCount, ⟨[], 0⟩, []⟩

end Optee.Storage
