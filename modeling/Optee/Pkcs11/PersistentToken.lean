import Optee.Lib.Effects
import Optee.Pkcs11.TokenMain

/-! The database file of a token: the main record, the number of the token's objects and their names. -/

namespace Optee.Pkcs11

open Lib.ByteStrings Lib.Effects List Option

abbrev Uuid := Bytes 16

scoped instance : DecidableEq Uuid := inferInstanceAs (DecidableEq (List.Vector UInt8 16))

inductive Stop
  | tee (e : TeeError)
  | rc (r : Rc)
  | panic
  | reset

inductive Fault
  | fails (e : TeeError)
  | reset

abbrev Faults := ℕ → Option Fault

def noFaults : Faults := fun _ => none

def resetAt (k : ℕ) : Faults := fun n => if n = k then some .reset else none

inductive PinEvent
  | wrong (u : UserType)
  | cleared (u : UserType)
  deriving DecidableEq

/-- The two copies in memory, the database file and the files of the objects, and how often storage was changed. -/
structure Db where
  dbMain : Main
  dbObjs : List Uuid
  file : Option (List UInt8)
  objects : List Uuid
  requests : ℕ
  written : ℕ
  history : List PinEvent
  deriving DecidableEq

abbrev DbM := EStateM Stop Db

def taDataSize : ℕ := 16 * 1024

def encodeUuids (us : List Uuid) : List UInt8 := us.flatMap List.Vector.toList

def encodeObjs (us : List Uuid) : List UInt8 := leBytes 4 us.length ++ encodeUuids us

def decodeUuids : ℕ → List UInt8 → List Uuid
  | 0, _ => []
  | n + 1, bs => bytesAt 16 bs 0 :: decodeUuids n (bs.drop 16)

def freshMain : Main where
  version := 0
  label := List.Vector.replicate 32 42
  flags := mask [.pinToBeChanged .so, .pinToBeChanged .user, .rng, .dualCryptoOperations, .loginRequired]
  so := ⟨0, 0, zeroBytes 64⟩
  user := ⟨0, 0, zeroBytes 64⟩

def Db.tick (w : Db) : Db := { w with requests := w.requests + 1 }

def Db.write (w : Db) (bs : List UInt8) : Db := { w with file := some bs, written := w.written + 1 }

def Fault.stop : Fault → Stop
  | .fails e => .tee e
  | .reset => .reset

def operation {α : Type} (φ : Faults) (f : Db → TeeResult (α × Db)) : DbM α := fun w =>
  match φ w.requests with
  | some fault => .error fault.stop w.tick
  | none =>
    match f w.tick with
    | .ok (a, t) => .ok a t
    | .error e => .error (.tee e) w.tick

section Storage

variable (φ : Faults)

def openDbFile : DbM Unit := operation φ fun w => if w.file.isSome then .ok ((), w) else .error .itemNotFound

def readObjectData (pos len : ℕ) : DbM (List UInt8) := operation φ fun w => .ok (slice (w.file.getD []) pos len, w)

def writeObjectData (pos : ℕ) (bs : List UInt8) : DbM Unit :=
  operation φ fun w => .ok ((), w.write (patch (w.file.getD []) pos bs))

def truncateObjectData (len : ℕ) : DbM Unit := operation φ fun w => .ok ((), w.write (resize (w.file.getD []) len))

def seekObjectData : DbM Unit := operation φ fun w => .ok ((), w)

def createDbFile (bs : List UInt8) : DbM Unit :=
  operation φ fun w => if w.file.isSome then .error .accessConflict else .ok ((), w.write bs)

end Storage

def attempt {α : Type} (p : DbM α) : DbM (TeeResult α) := fun w =>
  match p w with
  | .ok a t => .ok (.ok a) t
  | .error (.tee e) t => .ok (.error e) t
  | .error s t => .error s t

def check {α : Type} (c : TeeError → Stop) : TeeResult α → DbM α
  | .ok a => pure a
  | .error e => throw (c e)

def via {α : Type} (c : TeeError → Stop) (p : DbM α) : DbM α := attempt p >>= check c

def orPanic {α : Type} (p : DbM α) : DbM α := via (fun _ => .panic) p

def orRc {α : Type} (p : DbM α) : DbM α := via (fun e => .rc (tee2pkcsError e)) p

def orNull {α : Type} (p : DbM α) : DbM α := via (fun _ => .tee .security) p

def panicUnless (p : Prop) [Decidable p] : DbM Unit := if p then pure () else throw .panic

def updatePersistentDb (φ : Faults) : DbM Unit := do
  let main := (← get).dbMain
  orPanic (openDbFile φ)
  orPanic (writeObjectData φ 0 main.encode)

def unregisterPersistentObject (φ : Faults) (uuid : Uuid) : DbM Unit := do
  match (← get).dbObjs.idxOf? uuid with
  | none => throw (.rc .notFound)
  | some idx => do
    let ptr := (← get).dbObjs.eraseIdx idx
    orRc (openDbFile φ)
    orRc (seekObjectData φ)
    let res ← attempt (writeObjectData φ mainSize (encodeObjs ptr))
    -- the copy in memory is replaced whether or not the file was written
    modify fun w => { w with dbObjs := ptr }
    check (fun e => .rc (tee2pkcsError e)) res

def fitsHeap (n : ℕ) : Prop := 4 + n * 16 ≤ taDataSize

instance (n : ℕ) : Decidable (fitsHeap n) := inferInstanceAs (Decidable (_ ≤ _))

def registerPersistentObject (φ : Faults) (uuid : Uuid) : DbM Unit := do
  let objs := (← get).dbObjs
  panicUnless (uuid ∉ objs)
  if fitsHeap (objs.length + 1) then do
    orRc (openDbFile φ)
    orRc (truncateObjectData φ (mainSize + 4 + objs.length * 16 + 16))
    orRc (seekObjectData φ)
    orRc (writeObjectData φ mainSize (encodeObjs (objs ++ [uuid])))
    modify fun w => { w with dbObjs := objs ++ [uuid] }
  else throw (.rc .deviceMemory)

def readObjs (φ : Faults) (count : ℕ) : DbM (List Uuid) :=
  if count = 0 then pure []
  else if fitsHeap count then do
    let uuids ← orPanic (readObjectData φ (mainSize + 4) (count * 16))
    panicUnless (uuids.length = count * 16)
    return decodeUuids count uuids
  else throw (.tee .security)

def loadDb (φ : Faults) : DbM Unit := do
  let main ← orPanic (readObjectData φ 0 mainSize)
  panicUnless (main.length = mainSize)
  let count ← orPanic (readObjectData φ mainSize 4)
  panicUnless (count.length = 4)
  let objs ← readObjs φ (leNat count)
  modify fun w => { w with dbMain := Main.decode main, dbObjs := objs }

def createDb (φ : Faults) : DbM Unit := do
  orNull (createDbFile φ freshMain.encode)
  orPanic (truncateObjectData φ (mainSize + 4))
  orPanic (seekObjectData φ)
  orPanic (writeObjectData φ mainSize (encodeObjs []))
  modify fun w => { w with dbMain := freshMain, dbObjs := [] }

def initPersistentDb (φ : Faults) : DbM Unit := do
  match ← attempt (openDbFile φ) with
  | .ok () => loadDb φ
  | .error .itemNotFound => createDb φ
  | .error _ => throw (.tee .security)

/-! How a single operation ends. -/

def Fault.via (c : TeeError → Stop) : Fault → Stop
  | .fails e => c e
  | .reset => .reset

section Outcomes

variable {φ : Faults} {α : Type} {f : Db → TeeResult (α × Db)} {c : TeeError → Stop} {w t : Db} {a : α} {e : TeeError}
  {fault : Fault}

lemma attempt_ok (h : φ w.requests = none) (hf : f w.tick = .ok (a, t)) :
    attempt (operation φ f) w = .ok (.ok a) t := by
  simp [attempt, operation, h, hf]

lemma attempt_refused (h : φ w.requests = none) (hf : f w.tick = .error e) :
    attempt (operation φ f) w = .ok (.error e) w.tick := by
  simp [attempt, operation, h, hf]

lemma attempt_fails (h : φ w.requests = some (.fails e)) : attempt (operation φ f) w = .ok (.error e) w.tick := by
  simp [attempt, operation, h, Fault.stop]

lemma attempt_reset (h : φ w.requests = some .reset) : attempt (operation φ f) w = .error .reset w.tick := by
  simp [attempt, operation, h, Fault.stop]

lemma via_ok (h : φ w.requests = none) (hf : f w.tick = .ok (a, t)) : via c (operation φ f) w = .ok a t :=
  bind_of_ok (attempt_ok h hf)

lemma via_struck (h : φ w.requests = some fault) : via c (operation φ f) w = .error (fault.via c) w.tick := by
  cases fault with
  | fails e => exact bind_of_ok (attempt_fails h)
  | reset => exact bind_of_error (attempt_reset h)

lemma panicUnless_pos {p : Prop} [Decidable p] (h : p) : panicUnless p w = .ok () w := by
  rw [panicUnless, if_pos h]
  rfl

lemma via_spec {P : Db → Prop} {Q : α → Db → Prop} {R : Stop → Db → Prop}
    (hok : ∀ w, P w → φ w.requests = none → ∃ a t, f w.tick = .ok (a, t) ∧ Q a t)
    (hstop : ∀ w fault, P w → φ w.requests = some fault → R (fault.via c) w.tick) :
    Spec P (via c (operation φ f)) Q R := by
  intro w hw
  cases hφ : φ w.requests with
  | none =>
    obtain ⟨a, t, hf, hq⟩ := hok w hw hφ
    rw [via_ok hφ hf]
    exact hq
  | some fault =>
    rw [via_struck hφ]
    exact hstop w fault hw hφ

end Outcomes

/-! What a file holds, and that loading it gives just that. -/

def Holds (file : Option (List UInt8)) (main : Main) (objs : List Uuid) : Prop :=
  fitsHeap objs.length ∧ ∃ rest, file = some (main.encode ++ (encodeObjs objs ++ rest))

@[simp] lemma encodeUuids_length (us : List Uuid) : (encodeUuids us).length = us.length * 16 := by
  induction us with
  | nil => rfl
  | cons u us ih =>
    rw [encodeUuids] at ih
    simp only [encodeUuids, flatMap_cons, length_append, ih, List.Vector.toList_length, length_cons]
    omega

@[simp] lemma encodeObjs_length (us : List Uuid) : (encodeObjs us).length = 4 + us.length * 16 := by simp [encodeObjs]

lemma decodeUuids_encodeUuids (us : List Uuid) (rest : List UInt8) :
    decodeUuids us.length (encodeUuids us ++ rest) = us := by
  induction us with
  | nil => rfl
  | cons u us ih =>
    have hhead : bytesAt 16 ([] ++ (u.toList ++ (encodeUuids us ++ rest))) 0 = u := bytesAt_mid u rfl
    have hrest : (u.toList ++ (encodeUuids us ++ rest)).drop 16 = encodeUuids us ++ rest := by
      exact drop_left' u.toList_length
    have henc : encodeUuids (u :: us) ++ rest = u.toList ++ (encodeUuids us ++ rest) := by
      simp [encodeUuids, append_assoc]
    rw [length_cons, decodeUuids, henc, hrest, ih]
    rw [nil_append] at hhead
    rw [hhead]

def Heads (m : Main) (w : Db) : Prop := ∃ tail, w.file = some (m.encode ++ tail)

lemma patch_encode (m m' : Main) (tail : List UInt8) : patch (m.encode ++ tail) 0 m'.encode = m'.encode ++ tail := by
  have hpatch : patch ([] ++ (m.encode ++ tail)) 0 m'.encode = [] ++ (m'.encode ++ (m.encode ++ tail).drop m'.encode.length) :=
    patch_append rfl _ _
  rwa [m'.encode_length, drop_left' m.encode_length] at hpatch

lemma updatePersistentDb_eq {φ : Faults} {w : Db} {m : Main} {tail : List UInt8}
    (hfile : w.file = some (m.encode ++ tail)) :
    updatePersistentDb φ w =
      match φ w.requests, φ (w.requests + 1) with
      | some fault, _ => .error (fault.via fun _ => .panic) w.tick
      | none, some fault => .error (fault.via fun _ => .panic) w.tick.tick
      | none, none => .ok () (w.tick.tick.write (w.dbMain.encode ++ tail)) := by
  refine (bind_of_ok rfl).trans ?_
  cases h0 : φ w.requests with
  | some fault => exact bind_of_error (via_struck h0)
  | none =>
    have hopen : orPanic (openDbFile φ) w = .ok () w.tick := via_ok h0 (if_pos (by simp [Db.tick, hfile]))
    refine (bind_of_ok hopen).trans ?_
    cases h1 : φ (w.requests + 1) with
    | some fault => exact via_struck h1
    | none =>
      have hpatch : patch (w.tick.tick.file.getD []) 0 w.dbMain.encode = w.dbMain.encode ++ tail := by
        change patch (w.file.getD []) 0 w.dbMain.encode = _
        rw [hfile, getD_some, patch_encode]
      exact via_ok h1 (by rw [hpatch])

section Load

variable {main : Main} {objs : List Uuid} {w : Db}

lemma readObjs_of_holds (h : Holds w.file main objs) :
    ∃ t, readObjs noFaults objs.length w = .ok objs t ∧ t.file = w.file := by
  obtain ⟨hfits, rest, hfile⟩ := h
  unfold readObjs
  by_cases hzero : objs.length = 0
  · rw [length_eq_zero_iff.mp hzero]
    exact ⟨w, rfl, rfl⟩
  have hread : slice (w.tick.file.getD []) (mainSize + 4) (objs.length * 16) = encodeUuids objs := by
    change slice (w.file.getD []) _ _ = _
    have heq : main.encode ++ (encodeObjs objs ++ rest) =
        (main.encode ++ leBytes 4 objs.length) ++ (encodeUuids objs ++ rest) := by simp [encodeObjs]
    rw [hfile, heq]
    exact slice_mid (by simp) (by simp)
  have hop : orPanic (readObjectData noFaults (mainSize + 4) (objs.length * 16)) w = .ok (encodeUuids objs) w.tick :=
    via_ok rfl (by rw [hread])
  have hdec := decodeUuids_encodeUuids objs []
  rw [append_nil] at hdec
  rw [if_neg hzero, if_pos hfits, bind_of_ok hop, bind_of_ok (panicUnless_pos (encodeUuids_length _)), hdec]
  exact ⟨w.tick, rfl, rfl⟩

lemma initPersistentDb_of_holds (h : Holds w.file main objs) :
    ∃ t, initPersistentDb noFaults w = .ok () t ∧ t.dbMain = main ∧ t.dbObjs = objs ∧ t.file = w.file := by
  obtain ⟨hfits, rest, hfile⟩ := h
  have hopen : attempt (openDbFile noFaults) w = .ok (.ok ()) w.tick := attempt_ok rfl (by simp [Db.tick, hfile])
  have hmain : orPanic (readObjectData noFaults 0 mainSize) w.tick = .ok main.encode w.tick.tick := by
    refine via_ok rfl ?_
    change Except.ok (slice (w.file.getD []) 0 mainSize, w.tick.tick) = _
    have hslice : slice ([] ++ (main.encode ++ (encodeObjs objs ++ rest))) 0 mainSize = main.encode :=
      slice_mid rfl main.encode_length
    rw [nil_append] at hslice
    rw [hfile, getD_some, hslice]
  have hcount : orPanic (readObjectData noFaults mainSize 4) w.tick.tick = .ok (leBytes 4 objs.length) w.tick.tick.tick := by
    refine via_ok rfl ?_
    change Except.ok (slice (w.file.getD []) mainSize 4, w.tick.tick.tick) = _
    have hslice : slice (main.encode ++ (leBytes 4 objs.length ++ (encodeUuids objs ++ rest))) mainSize 4 =
        leBytes 4 objs.length := slice_mid main.encode_length (leBytes_length _ _)
    rw [hfile, getD_some, encodeObjs, append_assoc, hslice]
  have hlt : objs.length < 256 ^ 4 := by
    unfold fitsHeap taDataSize at hfits
    omega
  have hnat : leNat (leBytes 4 objs.length) = objs.length := by rw [leNat_leBytes, Nat.mod_eq_of_lt hlt]
  obtain ⟨t, hobjs, htfile⟩ := readObjs_of_holds (w := w.tick.tick.tick) ⟨hfits, rest, hfile⟩
  have hdecode : Main.decode main.encode = main := by
    have := main.decode_encode []
    rwa [append_nil] at this
  refine ⟨{ t with dbMain := main, dbObjs := objs }, ?_, rfl, rfl, htfile⟩
  rw [initPersistentDb, bind_of_ok hopen]
  change loadDb noFaults w.tick = _
  rw [loadDb, bind_of_ok hmain]
  rw [bind_of_ok (panicUnless_pos main.encode_length), bind_of_ok hcount,
    bind_of_ok (panicUnless_pos (leBytes_length _ _)), hnat, bind_of_ok hobjs, hdecode]
  rfl

end Load

end Optee.Pkcs11
