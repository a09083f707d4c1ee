import Optee.Pkcs11.DbCreation
import Optee.Pkcs11.SoCredential

/-! The initialisation of a token that has objects, interrupted at any of its storage operations. -/

namespace Optee.Pkcs11

open Lib.ByteStrings Lib.Effects List

section Turn

variable {k : ℕ} {w : Db} {uuid : Uuid}

lemma resetAt_self {n : ℕ} (h : k = n) : resetAt k n = some .reset := by rw [resetAt, if_pos h.symm]

lemma resetAt_other {n : ℕ} (h : k ≠ n) : resetAt k n = none := by rw [resetAt, if_neg h.symm]

lemma onRc_reset {α : Type} {p : DbM α} {q : Rc → DbM α} {t : Db} (h : p w = .error .reset t) :
    onRc p q w = .error .reset t := by
  unfold onRc
  rw [h]

lemma unregister_reset (hw : Recorded w) (hu : uuid ∈ w.dbObjs) :
    (∃ c < 3, k = w.requests + c ∧ ∃ t, unregisterOrPanic (resetAt k) uuid w = .error .reset t ∧ t.file = w.file ∧
      t.written = w.written) ∨
    (∀ c < 3, k ≠ w.requests + c) ∧ unregisterOrPanic (resetAt k) uuid w = .ok () (w.removed uuid) := by
  have hrun := unregister_eq (φ := resetAt k) hu hw.holds.isSome
  by_cases h0 : k = w.requests
  · rw [resetAt_self h0] at hrun
    exact .inl ⟨0, by omega, h0, w.tick, onRc_reset hrun, rfl, rfl⟩
  by_cases h1 : k = w.requests + 1
  · rw [resetAt_other h0, resetAt_self h1] at hrun
    exact .inl ⟨1, by omega, h1, w.tick.tick, onRc_reset hrun, rfl, rfl⟩
  by_cases h2 : k = w.requests + 2
  · rw [resetAt_other h0, resetAt_other h1, resetAt_self h2] at hrun
    exact .inl ⟨2, by omega, h2, w.tick.tick.tick, onRc_reset hrun, rfl, rfl⟩
  · rw [resetAt_other h0, resetAt_other h1, resetAt_other h2] at hrun
    exact .inr ⟨fun c hc => by omega, onRc_ok hrun⟩

lemma cleanup_reset (ho : uuid ∈ w.objects) :
    (∃ c < 2, k = w.requests + c ∧ ∃ t, cleanupPersistentObject (resetAt k) uuid w = .error .reset t ∧
      t.file = w.file ∧ t.written = w.written) ∨
    (∀ c < 2, k ≠ w.requests + c) ∧ cleanupPersistentObject (resetAt k) uuid w =
      .ok () { w with
        objects := w.objects.filter (· ≠ uuid), requests := w.requests + 2, written := w.written + 1 } := by
  by_cases h0 : k = w.requests
  · have hopen : attempt (openObjectFile (resetAt k) uuid) w = .error .reset w.tick := attempt_reset (resetAt_self h0)
    exact .inl ⟨0, by omega, h0, w.tick, bind_of_error hopen, rfl, rfl⟩
  have hopen : attempt (openObjectFile (resetAt k) uuid) w = .ok (.ok ()) w.tick :=
    attempt_ok (resetAt_other h0) (if_pos ho)
  by_cases h1 : k = w.requests + 1
  · have hdelete : attempt (deleteObjectFile (resetAt k) uuid) w.tick = .error .reset w.tick.tick :=
      attempt_reset (resetAt_self h1)
    exact .inl ⟨1, by omega, h1, w.tick.tick, (bind_of_ok hopen).trans (bind_of_error hdelete), rfl, rfl⟩
  · have hdelete : attempt (deleteObjectFile (resetAt k) uuid) w.tick = .ok (.ok ())
        { w.tick.tick with objects := w.objects.filter (· ≠ uuid), written := w.written + 1 } :=
      attempt_ok (resetAt_other h1) rfl
    exact .inr ⟨fun c hc => by omega, (bind_of_ok hopen).trans (bind_of_ok hdelete)⟩

lemma destroy_reset (hw : Recorded w) (hu : uuid ∈ w.dbObjs) (ho : uuid ∈ w.objects) :
    Ends
      (fun _ t => (∀ c < 5, k ≠ w.requests + c) ∧ t.requests = w.requests + 5 ∧ Recorded t ∧ t.dbMain = w.dbMain ∧
        t.dbObjs = w.dbObjs.erase uuid ∧ t.objects = w.objects.filter (· ≠ uuid) ∧ w.written ≤ t.written)
      (fun _ t => ∃ c < 5, k = w.requests + c ∧
        Holds t.file w.dbMain (if c < 3 then w.dbObjs else w.dbObjs.erase uuid) ∧ w.written ≤ t.written)
      (destroyPersistentObject (resetAt k) uuid w) := by
  rcases unregister_reset hw hu with ⟨c, hc, hk, t, hrun, hfile, hwritten⟩ | ⟨hpast, hrun⟩
  · rw [destroyPersistentObject, bind_of_error hrun]
    refine ⟨c, by omega, hk, ?_, hwritten.ge⟩
    rw [if_pos hc, hfile]
    exact hw.holds
  · rw [destroyPersistentObject, bind_of_ok hrun]
    have hholds : Holds (w.removed uuid).file w.dbMain (w.dbObjs.erase uuid) := (hw.removed uuid).holds
    rcases cleanup_reset (w := w.removed uuid) ho with ⟨c, hc, hk, t, hclean, hfile, hwritten⟩ | ⟨hpast', hclean⟩
    · rw [hclean]
      refine ⟨c + 3, by omega, ?_, ?_, ?_⟩
      · change k = w.requests + 3 + c at hk
        omega
      · rw [hfile]
        exact hholds
      · rw [hwritten]
        exact Nat.le_succ _
    · rw [hclean]
      refine ⟨?_, rfl, ⟨(hw.removed uuid).nodup, hholds⟩, rfl, rfl, rfl, ?_⟩
      · intro c hc
        rcases Nat.lt_or_ge c 3 with hlt | hge
        · exact hpast c hlt
        · have := hpast' (c - 3) (by omega)
          change k ≠ w.requests + 3 + (c - 3) at this
          omega
      · change w.written ≤ w.written + 1 + 1
        omega

lemma destroyAll_reset (uuids : List Uuid) (hw : Recorded w) (hperm : uuids.Perm w.dbObjs)
    (ho : ∀ u ∈ uuids, u ∈ w.objects) :
    Ends
      (fun _ t => (∀ c < 5 * uuids.length, k ≠ w.requests + c) ∧ Holds t.file w.dbMain [] ∧ w.written ≤ t.written)
      (fun _ t => ∃ c < 5 * uuids.length, k = w.requests + c ∧ ∃ objs, Holds t.file w.dbMain objs ∧
        objs ⊆ w.dbObjs ∧ (objs = [] ↔ 5 * uuids.length ≤ c + 2) ∧ w.written ≤ t.written)
      (uuids.forM (destroyPersistentObject (resetAt k)) w) := by
  induction uuids generalizing w with
  | nil =>
    have hnil : w.dbObjs = [] := hperm.symm.eq_nil
    refine ⟨fun c hc => absurd hc (by simp), ?_, le_rfl⟩
    exact hnil ▸ hw.holds
  | cons u us ih =>
    have hu : u ∈ w.dbObjs := hperm.subset (mem_cons_self)
    have hlen : w.dbObjs.length = us.length + 1 := by rw [← hperm.length_eq, length_cons]
    have hturn := destroy_reset (k := k) hw hu (ho u mem_cons_self)
    change Ends _ _ ((destroyPersistentObject (resetAt k) u >>= fun _ => us.forM _) w)
    cases hrun : destroyPersistentObject (resetAt k) u w with
    | error s t =>
      rw [hrun] at hturn
      rw [bind_of_error hrun]
      obtain ⟨c, hc, hk, hholds, hwritten⟩ := hturn
      refine ⟨c, by simp only [length_cons]; omega, hk, _, hholds, ?_, ?_, hwritten⟩
      · split_ifs
        · exact List.Subset.refl _
        · exact erase_subset
      · rw [← length_eq_zero_iff, length_cons]
        split_ifs
        · omega
        · rw [length_erase_of_mem hu]
          omega
    | ok a t =>
      rw [hrun] at hturn
      rw [bind_of_ok hrun]
      obtain ⟨hpast, hreq, hrec, hmain, hobjs, hfiles, hwritten⟩ := hturn
      have hperm' : us.Perm t.dbObjs := hobjs ▸ (cons_perm_iff_perm_erase.mp hperm).2
      have hnotin : u ∉ us := (nodup_cons.mp (hperm.nodup_iff.mpr hw.nodup)).1
      have ho' : ∀ v ∈ us, v ∈ t.objects := by
        intro v hv
        have hne : v ≠ u := fun heq => hnotin (heq ▸ hv)
        simpa [hfiles, hne] using ho v (mem_cons_of_mem _ hv)
      refine (ih hrec hperm' ho').mono ?_ ?_
      · rintro _ t' ⟨hpast', hholds, hle⟩
        refine ⟨fun c hc => ?_, hmain ▸ hholds, hwritten.trans hle⟩
        rw [length_cons] at hc
        rcases Nat.lt_or_ge c 5 with hlt | hge
        · exact hpast c hlt
        · have := hpast' (c - 5) (by omega)
          omega
      · rintro _ t' ⟨c, hc, hk, objs, hholds, hsub, hempty, hle⟩
        refine ⟨c + 5, by rw [length_cons]; omega, by omega, objs, hmain ▸ hholds, ?_, ?_, hwritten.trans hle⟩
        · exact List.Subset.trans hsub (hobjs ▸ erase_subset)
        · rw [hempty, length_cons]
          omega

end Turn

/-- Once the new record has reached the storage, a start loads it and finds none of the earlier objects. -/
def AllDestroyed (w t : Db) (main : Main) : Prop :=
  t.written ≠ w.written →
    ∃ s, initPersistentDb noFaults t = .ok () s ∧ s.dbMain = main ∧ ∀ u ∈ w.dbObjs, u ∉ s.dbObjs

lemma allDestroyed_iff {w t : Db} {main : Main} {objs : List Uuid} (hwritten : t.written ≠ w.written)
    (hholds : Holds t.file main objs) (hsub : objs ⊆ w.dbObjs) : AllDestroyed w t main ↔ objs = [] := by
  obtain ⟨s, hs, hmain, hobjs, -⟩ := initPersistentDb_of_holds hholds
  constructor
  · intro h
    obtain ⟨s', hs', -, hnone⟩ := h hwritten
    rw [hs] at hs'
    cases hs'
    rw [hobjs] at hnone
    exact eq_nil_iff_forall_not_mem.mpr fun u hu => hnone u (hsub hu) hu
  · rintro rfl _
    exact ⟨s, hs, hmain, fun u _ => by simp [hobjs]⟩

def rerecorded (w : Db) (main : Main) (tail : List UInt8) : Db :=
  Db.write { w with
    dbMain := main, history := [.cleared .user, .cleared .so] ++ w.history, requests := w.requests + 2 }
    (main.encode ++ tail)

lemma tokenInitialize_admitted {cfg : Config} {env : Env} {sessionExists : Bool} (label : Bytes 32) {pin : Pin}
    {w : Db} (uuids : List Uuid) {m : Main} {k : ℕ} {tail : List UInt8}
    (hauth : authenticate cfg env sessionExists pin w.dbMain = .admitted m) (hfile : w.file = some (w.dbMain.encode ++ tail)) :
    (k = w.requests ∨ k = w.requests + 1) ∧
      (final (tokenInitialize cfg (resetAt k) env sessionExists label pin uuids w)).written = w.written ∨
    (k ≠ w.requests ∧ k ≠ w.requests + 1) ∧
      tokenInitialize cfg (resetAt k) env sessionExists label pin uuids w =
        uuids.forM (destroyPersistentObject (resetAt k)) (rerecorded w (m.initialized label) tail) := by
  have hupdate := updatePersistentDb_eq (φ := resetAt k)
    (w := { w with dbMain := m.initialized label, history := [.cleared .user, .cleared .so] ++ w.history }) hfile
  rw [tokenInitialize, bind_get, hauth]
  simp only
  rw [setMain_bind]
  by_cases h0 : k = w.requests
  · rw [resetAt_self h0] at hupdate
    rw [bind_of_error hupdate]
    exact .inl ⟨.inl h0, rfl⟩
  by_cases h1 : k = w.requests + 1
  · rw [resetAt_other h0, resetAt_self h1] at hupdate
    rw [bind_of_error hupdate]
    exact .inl ⟨.inr h1, rfl⟩
  · rw [resetAt_other h0, resetAt_other h1] at hupdate
    rw [bind_of_ok hupdate]
    exact .inr ⟨⟨h0, h1⟩, rfl⟩

theorem token_initialize_destroys_objects (cfg : Config) (env : Env) (sessionExists : Bool) (label : Bytes 32) (pin : Pin)
    (w : Db) (uuids : List Uuid) (m : Main) (k : ℕ) (hw : Recorded w) (hperm : uuids.Perm w.dbObjs)
    (hobjs : ∀ u ∈ uuids, u ∈ w.objects) (hauth : authenticate cfg env sessionExists pin w.dbMain = .admitted m) :
    AllDestroyed w (final (tokenInitialize cfg (resetAt k) env sessionExists label pin uuids w)) (m.initialized label) ↔
      w.dbObjs = [] ∨ k ≤ w.requests + 1 ∨ w.requests + 5 * w.dbObjs.length ≤ k := by
  obtain ⟨hfits, rest, hfile⟩ := hw.holds
  rcases tokenInitialize_admitted label uuids hauth hfile with
    ⟨hcut, hwritten⟩ | ⟨⟨h0, h1⟩, hrun⟩
  · refine iff_of_true (fun hne => absurd hwritten hne) (.inr (.inl ?_))
    omega
  have hrec : Recorded (rerecorded w (m.initialized label) (encodeObjs w.dbObjs ++ rest)) :=
    ⟨hw.nodup, hfits, rest, rfl⟩
  have hall := destroyAll_reset (k := k) uuids hrec hperm hobjs
  rw [hrun]
  cases hloop : uuids.forM (destroyPersistentObject (resetAt k))
      (rerecorded w (m.initialized label) (encodeObjs w.dbObjs ++ rest)) with
  | ok a t =>
    rw [hloop] at hall
    obtain ⟨hpast, hholds, hle⟩ := hall
    change w.written + 1 ≤ t.written at hle
    have hwritten : t.written ≠ w.written := by omega
    refine iff_of_true ((allDestroyed_iff hwritten hholds (nil_subset _)).mpr rfl) ?_
    have hpast' : ∀ c < 5 * uuids.length, k ≠ w.requests + 2 + c := hpast
    rw [hperm.length_eq] at hpast'
    by_contra hnot
    exact hpast' (k - (w.requests + 2)) (by omega) (by omega)
  | error s t =>
    rw [hloop] at hall
    obtain ⟨c, hc, hk, objs, hholds, hsub, hempty, hle⟩ := hall
    change w.written + 1 ≤ t.written at hle
    change k = w.requests + 2 + c at hk
    have hwritten : t.written ≠ w.written := by omega
    refine (allDestroyed_iff hwritten hholds hsub).trans ?_
    rw [hempty, hperm.length_eq]
    rw [hperm.length_eq] at hc
    have hne : w.dbObjs ≠ [] := by
      intro hnil
      simp [hnil] at hc
    simp only [hne, false_or]
    omega

def twoObjects : Db :=
  let u : Uuid := zeroBytes 16
  let v : Uuid := List.Vector.replicate 16 1
  ⟨pinToken, [u, v], some (pinToken.encode ++ encodeObjs [u, v]), [u, v], 0, 0, []⟩

theorem token_initialize_destroys_objects_late_reset :
    AllDestroyed twoObjects (final (tokenInitialize toyConfig (resetAt 10) (toyEnv stranger) false toyLabel
      [48, 48, 48, 48] twoObjects.dbObjs.reverse twoObjects)) (pinToken.initialized toyLabel) :=
  (token_initialize_destroys_objects toyConfig (toyEnv stranger) false toyLabel [48, 48, 48, 48] twoObjects
    twoObjects.dbObjs.reverse pinToken 10 ⟨by decide, by decide, [], by rw [append_nil]; rfl⟩ (reverse_perm _)
    (fun _ => mem_reverse.mp) (by decide +kernel)).mpr (.inr (.inr (by decide)))

theorem token_initialize_leaves_objects :
    ¬AllDestroyed twoObjects (final (tokenInitialize toyConfig (resetAt 2) (toyEnv stranger) false toyLabel
      [48, 48, 48, 48] twoObjects.dbObjs.reverse twoObjects)) (pinToken.initialized toyLabel) := by
  have hfinal : final (tokenInitialize toyConfig (resetAt 2) (toyEnv stranger) false toyLabel [48, 48, 48, 48]
      twoObjects.dbObjs.reverse twoObjects) =
      (rerecorded twoObjects (pinToken.initialized toyLabel) (encodeObjs twoObjects.dbObjs)).tick := by
    decide +kernel
  have hholds : Holds (rerecorded twoObjects (pinToken.initialized toyLabel) (encodeObjs twoObjects.dbObjs)).tick.file
      (pinToken.initialized toyLabel) twoObjects.dbObjs := ⟨by decide, [], by rw [append_nil]; rfl⟩
  rw [hfinal, allDestroyed_iff (by decide) hholds (List.Subset.refl _)]
  decide

end Optee.Pkcs11
