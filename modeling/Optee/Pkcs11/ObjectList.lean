import Optee.Lib.Runs
import Optee.Pkcs11.PersistentToken

/-! The list of a token's objects, in memory and in the file, while objects are created and destroyed. -/

namespace Optee.Pkcs11

open Lib.ByteStrings Lib.Effects Lib.Runs

section Objects

variable (φ : Faults) (uuid : Uuid)

def createObjectFile : DbM Unit := operation φ fun w =>
  if uuid ∈ w.objects then .error .accessConflict
  else .ok ((), { w with objects := uuid :: w.objects, written := w.written + 1 })

def openObjectFile : DbM Unit := operation φ fun w => if uuid ∈ w.objects then .ok ((), w) else .error .itemNotFound

def deleteObjectFile : DbM Unit := operation φ fun w =>
  .ok ((), { w with objects := w.objects.filter (· ≠ uuid), written := w.written + 1 })

def onRc {α : Type} (p : DbM α) (q : Rc → DbM α) : DbM α := fun w =>
  match p w with
  | .error (.rc r) t => q r t
  | x => x

def cleanupPersistentObject : DbM Unit := do
  match ← attempt (openObjectFile φ uuid) with
  | .ok () => do
    let _ ← attempt (deleteObjectFile φ uuid)
    pure ()
  | .error _ => pure ()

def createObjectUuid (objs : List Uuid) (draws : List Uuid) : Option Uuid := draws.find? (· ∉ objs)

def createPersistentObject : DbM Unit :=
  onRc (orRc (createObjectFile φ uuid) >>= fun _ => registerPersistentObject φ uuid) fun r =>
    cleanupPersistentObject φ uuid >>= fun _ => throw (.rc r)

def unregisterOrPanic : DbM Unit :=
  onRc (unregisterPersistentObject φ uuid) fun _ => onRc (unregisterPersistentObject φ uuid) fun _ => throw .panic

def destroyPersistentObject : DbM Unit := unregisterOrPanic φ uuid >>= fun _ => cleanupPersistentObject φ uuid

end Objects

inductive Call
  | create (draws : List Uuid)
  | destroy (uuid : Uuid)

def returned {α : Type} : EStateM.Result Stop Db α → Except Stop Db
  | .ok _ t => .ok t
  | .error (.rc _) t => .ok t
  | .error s _ => .error s

def callStep (φ : Faults) (w : Db) : Call → Except Stop Db
  | .create draws =>
    match createObjectUuid w.dbObjs draws with
    | none => .ok w
    | some uuid => returned (createPersistentObject φ uuid w)
  | .destroy uuid => if uuid ∈ w.dbObjs then returned (destroyPersistentObject φ uuid w) else .ok w

def ListsAgree (w : Db) : Prop :=
  w.dbObjs.Nodup ∧
    ∃ t, initPersistentDb noFaults w = .ok () t ∧ t.dbMain = w.dbMain ∧ t.dbObjs = w.dbObjs ∧ t.file = w.file

def Clean (φ : Faults) (n : ℕ) : Prop := φ n = none ∧ φ (n + 1) = none ∧ φ (n + 2) = none

instance (φ : Faults) (n : ℕ) : Decidable (Clean φ n) := inferInstanceAs (Decidable (_ ∧ _))

def Removes (φ : Faults) (n : ℕ) : Prop :=
  Clean φ n ∨ φ n ≠ none ∧ Clean φ (n + 1) ∨ φ n = none ∧ φ (n + 1) ≠ none ∧ Clean φ (n + 2)

instance (φ : Faults) (n : ℕ) : Decidable (Removes φ n) := inferInstanceAs (Decidable (_ ∨ _))

def CallSafe (φ : Faults) (w : Db) : Call → Prop
  | .create _ => True
  | .destroy uuid => uuid ∈ w.dbObjs → Removes φ w.requests

structure Recorded (w : Db) : Prop where
  nodup : w.dbObjs.Nodup
  holds : Holds w.file w.dbMain w.dbObjs

def rcOf (e : TeeError) : Stop := .rc (tee2pkcsError e)

section Unregister

variable {φ : Faults} {uuid : Uuid} {w : Db}

def Db.erased (w : Db) (uuid : Uuid) : Db := { w with dbObjs := w.dbObjs.erase uuid }

def relisted (file : Option (List UInt8)) (objs : List Uuid) : List UInt8 :=
  patch (file.getD []) mainSize (encodeObjs objs)

lemma unregister_missing (h : uuid ∉ w.dbObjs) : unregisterPersistentObject φ uuid w = .error (.rc .notFound) w := by
  have hidx : w.dbObjs.idxOf? uuid = none := List.idxOf?_eq_none_iff.mpr h
  rw [unregisterPersistentObject, bind_get, hidx]
  rfl

lemma unregister_eq (h : uuid ∈ w.dbObjs) (hfile : w.file.isSome) :
    unregisterPersistentObject φ uuid w =
      match φ w.requests, φ (w.requests + 1), φ (w.requests + 2) with
      | some fault, _, _ => .error (fault.via rcOf) w.tick
      | none, some fault, _ => .error (fault.via rcOf) w.tick.tick
      | none, none, some (.fails e) => .error (rcOf e) (w.tick.tick.tick.erased uuid)
      | none, none, some .reset => .error .reset w.tick.tick.tick
      | none, none, none =>
        .ok () ((w.tick.tick.tick.write (relisted w.file (w.dbObjs.erase uuid))).erased uuid) := by
  obtain ⟨idx, hidx⟩ := Option.isSome_iff_exists.mp (List.isSome_idxOf?.mpr h)
  have herase : w.dbObjs.eraseIdx idx = w.dbObjs.erase uuid := by rw [List.erase_eq_eraseIdx, hidx]
  have hrun : unregisterPersistentObject φ uuid w = (do
      orRc (openDbFile φ)
      orRc (seekObjectData φ)
      let res ← attempt (writeObjectData φ mainSize (encodeObjs (w.dbObjs.erase uuid)))
      modify fun w' => { w' with dbObjs := w.dbObjs.erase uuid }
      check rcOf res : DbM Unit) w := by
    rw [← herase]
    rw [unregisterPersistentObject, bind_get, hidx]
    rfl
  rw [hrun]
  cases h0 : φ w.requests with
  | some fault => exact bind_of_error (via_struck h0)
  | none =>
    have hopen : orRc (openDbFile φ) w = .ok () w.tick := via_ok h0 (if_pos hfile)
    rw [bind_of_ok hopen]
    cases h1 : φ (w.requests + 1) with
    | some fault => exact bind_of_error (via_struck h1)
    | none =>
      have hseek : orRc (seekObjectData φ) w.tick = .ok () w.tick.tick := via_ok h1 rfl
      rw [bind_of_ok hseek]
      cases h2 : φ (w.requests + 2) with
      | none => exact bind_of_ok (attempt_ok h2 rfl)
      | some fault => cases fault with
        | fails e => exact bind_of_ok (attempt_fails h2)
        | reset => exact bind_of_error (attempt_reset h2)

end Unregister

/-! The file under the writes of the list. -/

section Files

variable {file : Option (List UInt8)} {main : Main} {objs objs' : List Uuid}

lemma Holds.isSome (h : Holds file main objs) : file.isSome := by
  obtain ⟨-, rest, rfl⟩ := h
  rfl

lemma Holds.relisted (h : Holds file main objs) (hfits : fitsHeap objs'.length) :
    Holds (some (relisted file objs')) main objs' := by
  obtain ⟨-, rest, rfl⟩ := h
  refine ⟨hfits, (encodeObjs objs ++ rest).drop (encodeObjs objs').length, ?_⟩
  rw [Pkcs11.relisted, Option.getD_some, patch_append main.encode_length]

lemma Holds.truncated (h : Holds file main objs) (n : ℕ) :
    Holds (some (resize (file.getD []) (mainSize + 4 + objs.length * 16 + n))) main objs := by
  obtain ⟨hfits, rest, rfl⟩ := h
  refine ⟨hfits, resize rest n, ?_⟩
  have hlen : (main.encode ++ encodeObjs objs).length = mainSize + 4 + objs.length * 16 := by
    rw [List.length_append, main.encode_length, encodeObjs_length, Nat.add_assoc]
  rw [Option.getD_some, ← List.append_assoc, resize_append hlen, List.append_assoc]

end Files

lemma fitsHeap_of_le {m n : ℕ} (h : fitsHeap n) (hle : m ≤ n) : fitsHeap m := by
  unfold fitsHeap at *
  omega

variable {P : Db → Prop} {t : Db}

section Kept

variable {φ : Faults} {uuid : Uuid} {w : Db} {main : Main} {objs : List Uuid}

structure Kept (main : Main) (objs : List Uuid) (w : Db) : Prop where
  holds : Holds w.file main objs
  dbMain : w.dbMain = main
  dbObjs : w.dbObjs = objs

lemma Recorded.kept (h : Recorded w) : Kept w.dbMain w.dbObjs w := ⟨h.holds, rfl, rfl⟩

lemma Kept.recorded (h : Kept main objs w) (hn : objs.Nodup) : Recorded w := by
  obtain ⟨hholds, rfl, rfl⟩ := h
  exact ⟨hn, hholds⟩

lemma Recorded.listsAgree (h : Recorded w) : ListsAgree w := ⟨h.nodup, initPersistentDb_of_holds h.holds⟩

def Refused (P : Db → Prop) (s : Stop) (w : Db) : Prop := (∃ r, s = .rc r) ∧ P w

lemma Kept.tick (h : Kept main objs w) : Kept main objs w.tick := ⟨h.holds, h.dbMain, h.dbObjs⟩

lemma onRc_spec {α : Type} {p : DbM α} {q : Rc → DbM α} {P' : Db → Prop} {Q : α → Db → Prop} {R : Stop → Db → Prop}
    (hp : Spec P p Q (Refused P')) (hq : ∀ r, Spec P' (q r) Q R) : Spec P (onRc p q) Q R := by
  intro w hw
  have hends := hp w hw
  unfold onRc
  cases hrun : p w with
  | ok a t =>
    rw [hrun] at hends
    exact hends
  | error s t =>
    rw [hrun] at hends
    obtain ⟨⟨r, rfl⟩, ht⟩ := hends
    exact hq r t ht

section

variable (hφ : ∀ n, φ n ≠ some .reset)
include hφ

lemma orRc_spec {α : Type} {f : Db → TeeResult (α × Db)} {Q : α → Db → Prop}
    (hP : ∀ w, P w → P w.tick) (hok : ∀ w, P w → (∃ e, f w = .error e) ∨ ∃ a t, f w = .ok (a, t) ∧ Q a t) :
    Spec P (orRc (operation φ f)) Q (Refused P) := by
  intro w hw
  cases h : φ w.requests with
  | some fault =>
    cases fault with
    | reset => exact absurd h (hφ _)
    | fails e =>
      have hrun : orRc (operation φ f) w = .error (rcOf e) w.tick := via_struck h
      rw [hrun]
      exact ⟨⟨_, rfl⟩, hP w hw⟩
  | none =>
    rcases hok w.tick (hP w hw) with ⟨e, he⟩ | ⟨a, t, hf, hq⟩
    · have hrun : orRc (operation φ f) w = .error (rcOf e) w.tick := bind_of_ok (attempt_refused h he)
      rw [hrun]
      exact ⟨⟨_, rfl⟩, hP w hw⟩
    · have hrun : orRc (operation φ f) w = .ok a t := via_ok h hf
      rw [hrun]
      exact hq

lemma registerPersistentObject_spec (hnew : uuid ∉ objs) :
    Spec (Kept main objs) (registerPersistentObject φ uuid) (fun _ => Kept main (objs ++ [uuid]))
      (Refused (Kept main objs)) := by
  refine .get_bind fun s hs => ?_
  rw [hs.dbObjs]
  refine Spec.of_imp ?_ fun _ h => h ▸ hs
  have hpass : Preserves (Kept main objs) (panicUnless (uuid ∉ objs)) (Refused (Kept main objs)) := by
    intro w hw
    rw [panicUnless_pos hnew]
    exact hw
  refine hpass.bind fun _ => ?_
  split_ifs with hfits
  · have hopen : Preserves (Kept main objs) (orRc (openDbFile φ)) (Refused (Kept main objs)) :=
      orRc_spec hφ (fun _ => Kept.tick) fun w hw => .inr ⟨(), w, if_pos hw.holds.isSome, hw⟩
    have htruncate : Preserves (Kept main objs) (orRc (truncateObjectData φ (mainSize + 4 + objs.length * 16 + 16))) (Refused (Kept main objs)) :=
      orRc_spec hφ (fun _ => Kept.tick) fun w hw => .inr ⟨(), _, rfl, hw.holds.truncated 16, hw.dbMain, hw.dbObjs⟩
    have hseek : Preserves (Kept main objs) (orRc (seekObjectData φ)) (Refused (Kept main objs)) :=
      orRc_spec hφ (fun _ => Kept.tick) fun w hw => .inr ⟨(), w, rfl, hw⟩
    have hwrite : Spec (Kept main objs) (orRc (writeObjectData φ mainSize (encodeObjs (objs ++ [uuid]))))
        (fun _ w => Holds w.file main (objs ++ [uuid]) ∧ w.dbMain = main) (Refused (Kept main objs)) :=
      orRc_spec hφ (fun _ => Kept.tick) fun w hw => .inr ⟨(), _, rfl, hw.holds.relisted (by simpa using hfits), hw.dbMain⟩
    refine hopen.bind fun _ => htruncate.bind fun _ => hseek.bind fun _ => hwrite.bind fun _ => .modify ?_
    exact fun w hw => ⟨hw.1, hw.2, rfl⟩
  · exact .throw fun w hw => ⟨⟨_, rfl⟩, hw⟩

lemma attempt_spec {α : Type} {f : Db → TeeResult (α × Db)} (hP : ∀ w, P w → P w.tick)
    (hok : ∀ w a t, P w → f w = .ok (a, t) → P t) :
    Preserves P (attempt (operation φ f)) (fun _ _ => False) := by
  intro w hw
  match h : φ w.requests with
  | some .reset => exact absurd h (hφ _)
  | some (.fails e) =>
    rw [attempt_fails h]
    exact hP w hw
  | none =>
    cases hf : f w.tick with
    | error e =>
      rw [attempt_refused h hf]
      exact hP w hw
    | ok x =>
      rw [attempt_ok h hf]
      exact hok _ _ _ (hP w hw) hf

lemma cleanupPersistentObject_spec :
    Preserves (Kept main objs) (cleanupPersistentObject φ uuid) (fun _ _ => False) := by
  have hopen : Preserves (Kept main objs) (attempt (openObjectFile φ uuid)) (fun _ _ => False) := by
    refine attempt_spec hφ (fun _ => Kept.tick) ?_
    intro w a t hw hf
    split_ifs at hf
    cases hf
    exact hw
  have hdelete : Preserves (Kept main objs) (attempt (deleteObjectFile φ uuid)) (fun _ _ => False) := by
    refine attempt_spec hφ (fun _ => Kept.tick) ?_
    intro w a t hw hf
    cases hf
    exact ⟨hw.holds, hw.dbMain, hw.dbObjs⟩
  refine hopen.bind fun res => ?_
  cases res with
  | ok _ => exact hdelete.bind fun _ => .pure fun _ => id
  | error e => exact .pure fun _ => id

lemma createPersistentObject_spec (hnew : uuid ∉ objs) :
    Spec (Kept main objs) (createPersistentObject φ uuid) (fun _ => Kept main (objs ++ [uuid]))
      (Refused (Kept main objs)) := by
  have hfile : Preserves (Kept main objs) (orRc (createObjectFile φ uuid))
      (Refused (Kept main objs)) := by
    refine orRc_spec hφ (fun _ => Kept.tick) ?_
    intro w hw
    by_cases hmem : uuid ∈ w.objects
    · exact .inl ⟨_, if_pos hmem⟩
    · exact .inr ⟨_, _, if_neg hmem, hw.holds, hw.dbMain, hw.dbObjs⟩
  refine onRc_spec (hfile.bind fun _ => registerPersistentObject_spec hφ hnew) fun r => ?_
  refine .bind ((cleanupPersistentObject_spec hφ).fails fun _ _ h => h.elim) fun _ => ?_
  exact .throw fun w hw => ⟨⟨r, rfl⟩, hw⟩

end

end Kept

section Removal

variable {φ : Faults} {uuid : Uuid} {w : Db}

def Db.removed (w : Db) (uuid : Uuid) : Db :=
  (w.tick.tick.tick.write (relisted w.file (w.dbObjs.erase uuid))).erased uuid

lemma Recorded.tick (h : Recorded w) : Recorded w.tick := ⟨h.nodup, h.holds⟩

lemma Recorded.removed (h : Recorded w) (uuid : Uuid) : Recorded (w.removed uuid) :=
  ⟨h.nodup.erase _, h.holds.relisted (fitsHeap_of_le h.holds.1 (List.erase_sublist.length_le))⟩

lemma unregister_clean (h : uuid ∈ w.dbObjs) (hw : Recorded w) (hc : Clean φ w.requests) :
    unregisterPersistentObject φ uuid w = .ok () (w.removed uuid) := by
  rw [unregister_eq h hw.holds.isSome]
  simp only [hc.1, hc.2.1, hc.2.2]
  rfl

lemma unregister_struck (h : uuid ∈ w.dbObjs) (hw : Recorded w) (hφ : ∀ n, φ n ≠ some .reset)
    (hc : ¬Clean φ w.requests) :
    ∃ r t, unregisterPersistentObject φ uuid w = .error (.rc r) t ∧
      (φ w.requests ≠ none ∧ t = w.tick ∨ φ w.requests = none ∧ φ (w.requests + 1) ≠ none ∧ t = w.tick.tick ∨
        φ w.requests = none ∧ φ (w.requests + 1) = none ∧ t = w.tick.tick.tick.erased uuid) := by
  rw [unregister_eq h hw.holds.isSome]
  match h0 : φ w.requests, h1 : φ (w.requests + 1), h2 : φ (w.requests + 2) with
  | some (.fails e), _, _ => exact ⟨_, _, rfl, .inl ⟨by simp, rfl⟩⟩
  | some .reset, _, _ => exact absurd h0 (hφ _)
  | none, some (.fails e), _ => exact ⟨_, _, rfl, .inr (.inl ⟨rfl, by simp, rfl⟩)⟩
  | none, some .reset, _ => exact absurd h1 (hφ _)
  | none, none, some (.fails e) => exact ⟨_, _, rfl, .inr (.inr ⟨rfl, rfl, rfl⟩)⟩
  | none, none, some .reset => exact absurd h2 (hφ _)
  | none, none, none => exact absurd ⟨h0, h1, h2⟩ hc

lemma onRc_ok {α : Type} {p : DbM α} {q : Rc → DbM α} {a : α} (h : p w = .ok a t) : onRc p q w = .ok a t := by
  unfold onRc
  rw [h]

lemma onRc_rc {α : Type} {p : DbM α} {q : Rc → DbM α} {r : Rc} (h : p w = .error (.rc r) t) : onRc p q w = q r t := by
  unfold onRc
  rw [h]

def lastTry (φ : Faults) (uuid : Uuid) : DbM Unit := onRc (unregisterPersistentObject φ uuid) fun _ => throw .panic

lemma lastTry_clean (hw : Recorded w) (h : uuid ∈ w.dbObjs) (hc : Clean φ w.requests) :
    lastTry φ uuid w = .ok () (w.removed uuid) := onRc_ok (unregister_clean h hw hc)

lemma lastTry_struck (hw : Recorded w) (h : uuid ∈ w.dbObjs) (hφ : ∀ n, φ n ≠ some .reset) (hc : ¬Clean φ w.requests) :
    ∃ t, lastTry φ uuid w = .error .panic t := by
  obtain ⟨r, t, hrun, -⟩ := unregister_struck h hw hφ hc
  exact ⟨t, onRc_rc hrun⟩

lemma unregisterOrPanic_of_removes (h : uuid ∈ w.dbObjs) (hw : Recorded w) (hφ : ∀ n, φ n ≠ some .reset)
    (hr : Removes φ w.requests) :
    ∃ t, unregisterOrPanic φ uuid w = .ok () t ∧ Recorded t ∧ t.dbMain = w.dbMain ∧ t.dbObjs = w.dbObjs.erase uuid := by
  rcases hr with hc | ⟨h0, hc⟩ | ⟨h0, h1, hc⟩
  · exact ⟨_, onRc_ok (unregister_clean h hw hc), hw.removed uuid, rfl, rfl⟩
  · obtain ⟨r, t, hrun, ⟨-, rfl⟩ | ⟨h0', -⟩ | ⟨h0', -⟩⟩ := unregister_struck h hw hφ fun hc' => h0 hc'.1
    · exact ⟨_, (onRc_rc hrun).trans (lastTry_clean hw.tick h hc), hw.tick.removed uuid, rfl, rfl⟩
    · exact absurd h0' h0
    · exact absurd h0' h0
  · obtain ⟨r, t, hrun, ⟨h0', -⟩ | ⟨-, -, rfl⟩ | ⟨-, h1', -⟩⟩ := unregister_struck h hw hφ fun hc' => h1 hc'.2.1
    · exact absurd h0 h0'
    · exact ⟨_, (onRc_rc hrun).trans (lastTry_clean hw.tick.tick h hc), hw.tick.tick.removed uuid, rfl, rfl⟩
    · exact absurd h1' h1

lemma unregisterOrPanic_of_not_removes (h : uuid ∈ w.dbObjs) (hw : Recorded w) (hφ : ∀ n, φ n ≠ some .reset)
    (hr : ¬Removes φ w.requests) : ∃ t, unregisterOrPanic φ uuid w = .error .panic t := by
  have hc : ¬Clean φ w.requests := fun hc => hr (.inl hc)
  obtain ⟨r, t, hrun, ⟨h0, rfl⟩ | ⟨h0, h1, rfl⟩ | ⟨-, -, rfl⟩⟩ := unregister_struck h hw hφ hc
  · obtain ⟨t, ht⟩ := lastTry_struck hw.tick h hφ fun hc => hr (.inr (.inl ⟨h0, hc⟩))
    exact ⟨t, (onRc_rc hrun).trans ht⟩
  · obtain ⟨t, ht⟩ := lastTry_struck hw.tick.tick h hφ fun hc => hr (.inr (.inr ⟨h0, h1, hc⟩))
    exact ⟨t, (onRc_rc hrun).trans ht⟩
  · -- the failed write has removed the name from memory, so that the second try does not find it
    have hmissing : uuid ∉ (w.tick.tick.tick.erased uuid).dbObjs := hw.nodup.not_mem_erase
    exact ⟨_, (onRc_rc hrun).trans (onRc_rc (unregister_missing hmissing))⟩

end Removal

section Calls

variable {φ : Faults} {w : Db}

lemma returned_of_ends {x : EStateM.Result Stop Db Unit} (h : Ends (fun _ => P) (Refused P) x) :
    ∃ t, returned x = .ok t ∧ P t := by
  cases x with
  | ok _ t => exact ⟨t, rfl, h⟩
  | error s t =>
    obtain ⟨⟨r, rfl⟩, ht⟩ := h
    exact ⟨t, rfl, ht⟩

section

variable (hw : Recorded w) (hφ : ∀ n, φ n ≠ some .reset)
include hw hφ

lemma callStep_create (draws : List Uuid) : ∃ t, callStep φ w (.create draws) = .ok t ∧ Recorded t := by
  cases hdraw : createObjectUuid w.dbObjs draws with
  | none =>
    simp only [callStep, hdraw]
    exact ⟨w, rfl, hw⟩
  | some uuid =>
    have hnew : uuid ∉ w.dbObjs := by simpa using List.find?_some hdraw
    simp only [callStep, hdraw]
    refine returned_of_ends ((createPersistentObject_spec hφ hnew w hw.kept).mono ?_ ?_)
    · exact fun _ t ht => ht.recorded (List.concat_eq_append ▸ hw.nodup.concat hnew)
    · exact fun s t ht => ⟨ht.1, ht.2.recorded hw.nodup⟩

lemma callStep_destroy {uuid : Uuid} (h : uuid ∈ w.dbObjs)
    (hr : Removes φ w.requests) : ∃ t, callStep φ w (.destroy uuid) = .ok t ∧ Recorded t := by
  obtain ⟨t, ht, hrec, -, -⟩ := unregisterOrPanic_of_removes h hw hφ hr
  simp only [callStep, if_pos h, destroyPersistentObject, bind_of_ok ht]
  exact returned_of_ends ((cleanupPersistentObject_spec hφ t hrec.kept).mono (fun _ _ ht => ht.recorded hrec.nodup)
    fun _ _ => False.elim)

lemma callStep_panics {uuid : Uuid} (h : uuid ∈ w.dbObjs)
    (hr : ¬Removes φ w.requests) : callStep φ w (.destroy uuid) = .error .panic := by
  obtain ⟨t, ht⟩ := unregisterOrPanic_of_not_removes h hw hφ hr
  simp only [callStep, if_pos h, destroyPersistentObject, bind_of_error ht]
  rfl

lemma callStep_of_safe {call : Call} (hsafe : CallSafe φ w call) : ∃ t, callStep φ w call = .ok t ∧ Recorded t := by
  cases call with
  | create draws => exact callStep_create hw hφ draws
  | destroy uuid =>
    by_cases h : uuid ∈ w.dbObjs
    · exact callStep_destroy hw hφ h (hsafe h)
    · exact ⟨w, if_neg h, hw⟩

lemma callSafe_of_ok {call : Call} (hstep : callStep φ w call = .ok t) : CallSafe φ w call := by
  cases call with
  | create draws => trivial
  | destroy uuid =>
    intro h
    by_contra hr
    rw [callStep_panics hw hφ h hr] at hstep
    cases hstep

end

end Calls

lemma along_callSafe_of_run {φ : Faults} (hφ : ∀ n, φ n ≠ some .reset) {w : Db} (hw : Recorded w) {calls : List Call}
    (hrun : run (callStep φ) w calls = .ok t) : Along (callStep φ) (CallSafe φ) w calls := by
  induction calls generalizing w with
  | nil => trivial
  | cons call calls ih =>
    obtain ⟨s, hs, hrest⟩ := run_cons.mp hrun
    have hsafe := callSafe_of_ok hw hφ hs
    refine ⟨hsafe, fun s' hs' => ?_⟩
    obtain ⟨s'', hs'', hrec⟩ := callStep_of_safe hw hφ hsafe
    rw [hs] at hs' hs''
    cases hs'
    cases hs''
    exact ih hrec hrest

lemma register_refused {φ : Faults} (hφ : ∀ n, φ n ≠ some .reset) {uuid : Uuid} {s : Db} {r : Rc} (hs : Recorded s)
    (hreg : registerPersistentObject φ uuid s = .error (.rc r) t) : t.dbObjs = s.dbObjs ∧ Recorded t := by
  by_cases hnew : uuid ∈ s.dbObjs
  · have hpanic : registerPersistentObject φ uuid s = .error .panic s := by
      have hpass : panicUnless (uuid ∉ s.dbObjs) s = .error .panic s := by
        rw [panicUnless, if_neg (not_not_intro hnew)]
        rfl
      exact (bind_of_ok rfl).trans (bind_of_error hpass)
    rw [hpanic] at hreg
    cases hreg
  · have hends := registerPersistentObject_spec hφ hnew s hs.kept
    rw [hreg] at hends
    exact ⟨hends.2.dbObjs, hends.2.recorded hs.nodup⟩

theorem persistent_object_lists_agree (φ : Faults) (hφ : ∀ n, φ n ≠ some .reset) (w : Db) (hw : Recorded w)
    (calls : List Call) :
    (∀ uuid s r t, Recorded s → registerPersistentObject φ uuid s = .error (.rc r) t →
      t.dbObjs = s.dbObjs ∧ ListsAgree t) ∧
    ((∃ t, run (callStep φ) w calls = .ok t ∧ ListsAgree t) ↔ Along (callStep φ) (CallSafe φ) w calls) := by
  refine ⟨?_, ?_, ?_⟩
  · intro uuid s r t hs hreg
    obtain ⟨hobjs, ht⟩ := register_refused hφ hs hreg
    exact ⟨hobjs, ht.listsAgree⟩
  · rintro ⟨t, hrun, -⟩
    exact along_callSafe_of_run hφ hw hrun
  · intro hsafe
    obtain ⟨t, hrun, ht⟩ := hsafe.completes hw fun s call hs hsafe => callStep_of_safe hs hφ hsafe
    exact ⟨t, hrun, ht.listsAgree⟩

instance (φ : Faults) (w : Db) : (call : Call) → Decidable (CallSafe φ w call)
  | .create _ => isTrue trivial
  | .destroy uuid => inferInstanceAs (Decidable (uuid ∈ w.dbObjs → Removes φ w.requests))

def failsAt (k : ℕ) : Faults := fun n => if n = k then some (.fails .storageNoSpace) else none

lemma failsAt_ne_reset (k n : ℕ) : failsAt k n ≠ some .reset := by
  unfold failsAt
  split_ifs <;> simp

def oneObject : Db :=
  ⟨freshMain, [zeroBytes 16], some (freshMain.encode ++ encodeObjs [zeroBytes 16]), [zeroBytes 16], 0, 0, []⟩

lemma oneObject_recorded : Recorded oneObject :=
  ⟨List.nodup_singleton _, by decide, [], by rw [List.append_nil]; rfl⟩

theorem persistent_object_lists_agree_retried :
    ∃ t, run (callStep (failsAt 1)) oneObject [.destroy (zeroBytes 16), .create [zeroBytes 16]] = .ok t ∧ ListsAgree t :=
  (persistent_object_lists_agree (failsAt 1) (failsAt_ne_reset 1) oneObject oneObject_recorded _).2.mpr
    (by decide +kernel)

theorem failed_unregister_write_panics :
    (∃ r t, unregisterPersistentObject (failsAt 2) (zeroBytes 16) oneObject = .error (.rc r) t ∧ t.dbObjs = [] ∧
      ∃ t', initPersistentDb noFaults t = .ok () t' ∧ t'.dbObjs = [zeroBytes 16]) ∧
    callStep (failsAt 2) oneObject (.destroy (zeroBytes 16)) = .error .panic := by
  have hrun := unregister_eq (φ := failsAt 2) (w := oneObject) (List.mem_singleton_self (zeroBytes 16)) rfl
  refine ⟨⟨.generalError, oneObject.tick.tick.tick.erased (zeroBytes 16), hrun, by decide, ?_⟩, ?_⟩
  · obtain ⟨t', ht', -, hobjs, -⟩ :=
      initPersistentDb_of_holds (w := oneObject.tick.tick.tick.erased (zeroBytes 16)) oneObject_recorded.holds
    exact ⟨t', ht', hobjs⟩
  · exact callStep_panics oneObject_recorded (failsAt_ne_reset 2) (by decide) (by decide)

end Optee.Pkcs11
