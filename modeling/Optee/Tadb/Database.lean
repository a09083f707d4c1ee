import Optee.Lib.BitString
import Optee.Lib.ByteStrings
import Optee.TeeResult

/-! The database of installed trusted applications, and the calls on it, cut where the mutex is taken or released. -/

namespace Optee.Tadb

open Lib Lib.ByteStrings

abbrev Uuid := Bytes 16

def nullUuid : Uuid := zeroBytes 16

structure Property where
  uuid : Uuid
  version : UInt32
  customSize : UInt32
  binSize : UInt32
  deriving DecidableEq

structure Entry where
  prop : Property
  fileNumber : ℕ
  iv : Bytes 16
  tag : Bytes 16
  key : Bytes 32
  deriving DecidableEq

def Entry.null : Entry := ⟨⟨nullUuid, 0, 0, 0⟩, 0, zeroBytes 16, zeroBytes 16, zeroBytes 32⟩

def Entry.Live (e : Entry) : Prop := e.prop.uuid ≠ nullUuid

instance : DecidablePred Entry.Live := fun _ => inferInstanceAs (Decidable (_ ≠ _))

inductive WriteOutcome
  | done
  | lost (e : TeeError)
  | landed (e : TeeError)

def setFile (files : List Bool) (idx : ℕ) (fault : Option TeeError) : TeeResult (List Bool) :=
  match fault with
  | some e => if idx < files.length then .ok (BitString.set files idx) else .error e
  | none => .ok (BitString.set files idx)

def written (file : List Entry) (idx : ℕ) (entry : Entry) : List Entry :=
  (file ++ List.replicate (idx + 1 - file.length) Entry.null).set idx entry

def writeEnt (file : List Entry) (idx : ℕ) (entry : Entry) : WriteOutcome → TeeResult Unit × List Entry
  | .done => (.ok (), written file idx entry)
  | .lost e => (.error e, file)
  | .landed e => (.error e, written file idx entry)

def findEntFrom (fault : ℕ → Option TeeError) (uuid : Uuid) : List Entry → ℕ → TeeResult Entry × ℕ
  | [], idx => (.error ((fault idx).getD .itemNotFound), idx)
  | entry :: rest, idx =>
    match fault idx with
    | some e => (.error e, idx)
    | none => if entry.prop.uuid = uuid then (.ok entry, idx) else findEntFrom fault uuid rest (idx + 1)

def findEnt (file : List Entry) (fault : ℕ → Option TeeError) (uuid : Uuid) : TeeResult Entry × ℕ :=
  findEntFrom fault uuid file 0

def findFreeEntIdx (file : List Entry) (fault : ℕ → Option TeeError) : TeeResult ℕ :=
  match findEnt file fault nullUuid with
  | (.ok _, idx) => .ok idx
  | (.error .itemNotFound, idx) => .ok idx
  | (.error e, _) => .error e

structure PopulateFaults where
  read : ℕ → Option TeeError
  write : ℕ → WriteOutcome
  grow : ℕ → Option TeeError

def populateFrom (F : PopulateFaults) :
    List Entry → (idx : ℕ) → (file : List Entry) → (files : List Bool) → TeeResult (List Bool) × List Entry
  | [], idx, file, files =>
    match F.read idx with
    | none => (.ok files, file)
    | some .itemNotFound => (.ok files, file)
    | some e => (.error e, file)
  | entry :: rest, idx, file, files =>
    match F.read idx with
    | some .itemNotFound => (.ok files, file)
    | some e => (.error e, file)
    | none =>
      if ¬ entry.Live then populateFrom F rest (idx + 1) file files
      else if BitString.test files entry.fileNumber then
        match writeEnt file idx Entry.null (F.write idx) with
        | (.ok _, file) => populateFrom F rest (idx + 1) file files
        | (.error e, file) => (.error e, file)
      else
        match setFile files entry.fileNumber (F.grow idx) with
        | .ok files => populateFrom F rest (idx + 1) file files
        | .error e => (.error e, file)

def populateFiles (F : PopulateFaults) (file : List Entry) (files : List Bool) : TeeResult (List Bool) × List Entry :=
  if files ≠ [] then (.ok files, file) else populateFrom F file 0 file []

/-- Where a caller is; `aborting` has the host file still to remove, `clearing` the number still to free. -/
inductive Phase
  | idle
  | creating (prop : Property)
  | reserved (entry : Entry)
  | installing (entry : Entry) (pos : ℕ)
  | aborting (entry : Entry)
  | clearing (entry : Entry)
  | deleting (uuid : Uuid)
  | looking (uuid : Uuid)
  | reading (entry : Entry)
  | releasing (removal : Option ℕ)
  | removing (number : ℕ)
  deriving DecidableEq

structure World where
  file : List Entry
  db : Option (List Bool)
  -- whether `populate_files` has succeeded since the database was opened
  populated : Bool
  refc : ℕ
  callers : List Phase

inductive Act
  | create (prop : Property) (fault : Option TeeError)
  | reserve (faults : PopulateFaults) (fault : Option TeeError)
  | prepare (iv : Bytes 16) (key : Bytes 32) (fault : Option TeeError)
  | write (len : ℕ)
  | commit (tag : Bytes 16) (fault : Option TeeError) (lookup free : ℕ → Option TeeError) (out : WriteOutcome)
  | abort
  | removeFile
  | clearNumber
  | delete (uuid : Uuid) (fault : Option TeeError)
  | deleteEnt (lookup : ℕ → Option TeeError) (out : WriteOutcome)
  | openTa (uuid : Uuid) (fault : Option TeeError)
  | lookupTa (lookup : ℕ → Option TeeError) (fault : Option TeeError)
  | closeTa
  | put

namespace World

def moved (w : World) (c : ℕ) (phase : Phase) : World := { w with callers := w.callers.set c phase }

def tadbOpen (w : World) (fault : Option TeeError) : TeeResult (Option World) :=
  if w.refc = 0 then do
    assert (w.db = none)
    match fault with
    | some _ => pure none
    | none => pure (some { w with db := some [], populated := false, refc := 1 })
  else pure (some { w with refc := w.refc + 1 })

def tadbPut (w : World) : TeeResult World := do
  assert (w.db ≠ none)
  assert (w.refc ≠ 0)
  if w.refc = 1 then pure { w with db := none, refc := 0 } else pure { w with refc := w.refc - 1 }

def enter (w : World) (c : ℕ) (uuid : Uuid) (phase : Phase) (fault : Option TeeError) : TeeResult World :=
  if uuid = nullUuid then pure w
  else do
    match ← w.tadbOpen fault with
    | none => pure w
    | some w => pure (w.moved c phase)

def reserve (w : World) (c : ℕ) (prop : Property) (faults : PopulateFaults) (fault : Option TeeError) :
    TeeResult World := do
  let files ← orError .panic w.db
  match populateFiles faults w.file files with
  | (.error _, file) => pure ({ w with file, db := some [], populated := false }.moved c (.releasing none))
  | (.ok files, file) =>
    let number := BitString.firstClear files
    match setFile files number fault with
    | .error _ => pure ({ w with file, db := some files, populated := true }.moved c (.releasing none))
    | .ok files =>
      let entry := { Entry.null with prop, fileNumber := number }
      pure ({ w with file, db := some files, populated := true }.moved c (.reserved entry))

def commit (w : World) (c : ℕ) (entry : Entry) (lookup free : ℕ → Option TeeError) (out : WriteOutcome) :
    TeeResult World := do
  let files ← orError .panic w.db
  match findEnt w.file lookup entry.prop.uuid with
  | (.ok old, idx) =>
    match writeEnt w.file idx entry out with
    | (.ok _, file) =>
      pure ({ w with file, db := some (BitString.clear files old.fileNumber) }.moved c (.releasing (some old.fileNumber)))
    | (.error _, file) => pure ({ w with file }.moved c (.aborting entry))
  | (.error _, _) =>
    match findFreeEntIdx w.file free with
    | .error _ => pure (w.moved c (.aborting entry))
    | .ok idx =>
      match writeEnt w.file idx entry out with
      | (.ok _, file) => pure ({ w with file }.moved c (.releasing none))
      | (.error _, file) => pure ({ w with file }.moved c (.aborting entry))

def deleteEnt (w : World) (c : ℕ) (uuid : Uuid) (lookup : ℕ → Option TeeError) (out : WriteOutcome) :
    TeeResult World := do
  let files ← orError .panic w.db
  match findEnt w.file lookup uuid with
  | (.error _, _) => pure (w.moved c (.releasing none))
  | (.ok entry, idx) =>
    -- the number is freed before the entry is cleared
    let w := { w with db := some (BitString.clear files entry.fileNumber) }
    match writeEnt w.file idx Entry.null out with
    | (.ok _, file) => pure ({ w with file }.moved c (.releasing (some entry.fileNumber)))
    | (.error _, file) => pure ({ w with file }.moved c (.releasing none))

def step (w : World) (move : ℕ × Act) : TeeResult World :=
  let c := move.1
  match w.callers[c]?, move.2 with
  | some .idle, .create prop fault => w.enter c prop.uuid (.creating prop) fault
  | some (.creating prop), .reserve faults fault => w.reserve c prop faults fault
  | some (.reserved entry), .prepare iv key fault =>
    match fault with
    | some _ => pure (w.moved c (.releasing none))
    | none => pure (w.moved c (.installing { entry with iv, key } 0))
  | some (.installing entry pos), .write len => pure (w.moved c (.installing entry (pos + len)))
  | some (.installing entry _), .commit tag fault lookup free out =>
    match fault with
    | some _ => pure (w.moved c (.aborting entry))
    | none => w.commit c { entry with tag } lookup free out
  | some (.installing entry _), .abort => pure (w.moved c (.aborting entry))
  | some (.aborting entry), .removeFile => pure (w.moved c (.clearing entry))
  | some (.clearing entry), .clearNumber => do
    let files ← orError .panic w.db
    pure ({ w with db := some (BitString.clear files entry.fileNumber) }.moved c (.releasing none))
  | some .idle, .delete uuid fault => w.enter c uuid (.deleting uuid) fault
  | some (.deleting uuid), .deleteEnt lookup out => w.deleteEnt c uuid lookup out
  | some .idle, .openTa uuid fault => w.enter c uuid (.looking uuid) fault
  | some (.looking uuid), .lookupTa lookup fault =>
    match findEnt w.file lookup uuid, fault with
    | (.ok entry, _), none => pure (w.moved c (.reading entry))
    | _, _ => pure (w.moved c (.releasing none))
  | some (.reading _), .closeTa => pure (w.moved c (.releasing none))
  | some (.releasing removal), .put => do
    let w ← w.tadbPut
    pure (w.moved c (removal.elim .idle .removing))
  | some (.removing _), .removeFile => pure (w.moved c .idle)
  | _, _ => .error .generic

end World

end Optee.Tadb
