import Optee.Pkcs11.PersistentToken

/-! Creating the database of a token, interrupted at any of its storage operations. -/

namespace Optee.Pkcs11

open Lib.ByteStrings Lib.Effects List Option

def Usable (file : Option (List UInt8)) : Prop :=
  ∀ w : Db, w.file = file →
    ∃ t, initPersistentDb noFaults w = .ok () t ∧ t.dbMain = freshMain ∧ t.dbObjs = [] ∧ t.file ≠ none

def stage : ℕ → Option (List UInt8)
  | 0 | 1 => none
  | 2 => some freshMain.encode
  | _ => some (freshMain.encode ++ encodeObjs [])

lemma resize_freshMain : resize freshMain.encode (mainSize + 4) = freshMain.encode ++ encodeObjs [] := by
  have hlen : freshMain.encode.length = mainSize := freshMain.encode_length
  rw [resize, extend, hlen, take_of_length_le (by simp)]
  rfl

lemma resetAt_eq_none {k n : ℕ} : resetAt k n = none ↔ n ≠ k := by
  unfold resetAt
  split_ifs with h <;> simp [h]

lemma resetAt_eq_some {k n : ℕ} {fault : Fault} : resetAt k n = some fault ↔ n = k ∧ fault = .reset := by
  unfold resetAt
  split_ifs with h <;> simp [h, eq_comm]

section Creation

variable {φ : Faults} {k r n : ℕ} {w : Db}

def Before (k r n : ℕ) (w : Db) : Prop := w.requests = r + n ∧ w.file = stage n ∧ ∀ i < n, k ≠ r + i

def CutAt (k r : ℕ) (w : Db) : Prop := ∃ n < 5, k = r + n ∧ w.file = stage n

lemma Before.next (h : Before k r n w) (hk : w.requests ≠ k) {t : Db} (ht : t.requests = w.requests + 1)
    (hf : t.file = stage (n + 1)) : Before k r (n + 1) t := by
  obtain ⟨hreq, _, hpast⟩ := h
  refine ⟨by omega, hf, ?_⟩
  intro i hi
  rcases Nat.lt_succ_iff_lt_or_eq.mp hi with hlt | rfl
  · exact hpast i hlt
  · omega

lemma creation_step (hφ : ∀ i < 5, φ (r + i) = resetAt k (r + i)) (hn : n < 5) {c : TeeError → Stop}
    {f : Db → TeeResult (Unit × Db)}
    (hf : ∀ w, w.file = stage n → ∃ t, f w = .ok ((), t) ∧ t.requests = w.requests ∧ t.file = stage (n + 1)) :
    Spec (Before k r n) (via c (operation φ f)) (fun _ => Before k r (n + 1)) (fun _ => CutAt k r) := by
  refine via_spec ?_ ?_
  · intro w hw hnone
    rw [hw.1, hφ n hn, ← hw.1] at hnone
    obtain ⟨t, ht, hreq, hfile⟩ := hf w.tick hw.2.1
    exact ⟨(), t, ht, hw.next (resetAt_eq_none.mp hnone) hreq hfile⟩
  · intro w fault hw hsome
    rw [hw.1, hφ n hn] at hsome
    exact ⟨n, hn, (resetAt_eq_some.mp hsome).1.symm, hw.2.1⟩

lemma createDb_spec (hφ : ∀ i < 5, φ (r + i) = resetAt k (r + i)) :
    Spec (Before k r 1) (createDb φ) (fun _ t => Before k r 5 t ∧ t.dbMain = freshMain ∧ t.dbObjs = [])
      (fun _ => CutAt k r) := by
  refine .bind (creation_step hφ (by omega) ?_) fun _ => .bind (creation_step hφ (by omega) ?_) fun _ =>
    .bind (creation_step hφ (by omega) ?_) fun _ => .bind (creation_step hφ (by omega) ?_) fun _ => .modify ?_
  · intro w hw
    refine ⟨w.write freshMain.encode, ?_, rfl, rfl⟩
    simp [hw, stage]
  · intro w hw
    refine ⟨_, rfl, rfl, ?_⟩
    rw [hw, stage, getD_some, resize_freshMain]
    rfl
  · intro w hw
    exact ⟨w, rfl, rfl, hw⟩
  · intro w hw
    refine ⟨_, rfl, rfl, ?_⟩
    have hstage : w.file = some (freshMain.encode ++ encodeObjs []) := hw
    rw [hstage]
    exact congrArg some (patch_append freshMain.encode_length _ _)
  · exact fun _ hw => ⟨hw, rfl, rfl⟩

lemma initPersistentDb_created (hφ : ∀ i < 5, φ (w.requests + i) = resetAt k (w.requests + i)) (hw : w.file = none) :
    Ends (fun _ t => Before k w.requests 5 t ∧ t.dbMain = freshMain ∧ t.dbObjs = []) (fun _ => CutAt k w.requests)
      (initPersistentDb φ w) := by
  have hopen := hφ 0 (by omega)
  rw [Nat.add_zero] at hopen
  cases hφ0 : φ w.requests with
  | some fault =>
    rw [hφ0] at hopen
    obtain ⟨hk, rfl⟩ := resetAt_eq_some.mp hopen.symm
    have hrun : attempt (openDbFile φ) w = .error .reset w.tick := attempt_reset hφ0
    rw [initPersistentDb, bind_of_error hrun]
    exact ⟨0, by omega, hk.symm, hw⟩
  | none =>
    rw [hφ0] at hopen
    have hrun : attempt (openDbFile φ) w = .ok (.error .itemNotFound) w.tick :=
      attempt_refused hφ0 (by simp [Db.tick, hw])
    rw [initPersistentDb, bind_of_ok hrun]
    have hbefore : Before k w.requests 0 w := ⟨rfl, hw, by omega⟩
    exact createDb_spec hφ _ (hbefore.next (resetAt_eq_none.mp hopen.symm) rfl hw)

end Creation

lemma holds_created : Holds (some (freshMain.encode ++ encodeObjs [])) freshMain [] :=
  ⟨by decide, [], by rw [append_nil]⟩

lemma usable_created : Usable (some (freshMain.encode ++ encodeObjs [])) := by
  intro w hw
  obtain ⟨t, ht, hmain, hobjs, hfile⟩ := initPersistentDb_of_holds (hw ▸ holds_created)
  exact ⟨t, ht, hmain, hobjs, by simp [hfile, hw]⟩

lemma usable_none : Usable none := by
  intro w hw
  have hcreated : Ends _ _ (initPersistentDb noFaults w) :=
    initPersistentDb_created (fun i _ => (resetAt_eq_none (k := w.requests + 5).mpr (by omega)).symm) hw
  cases hrun : initPersistentDb noFaults w with
  | ok _ t =>
    rw [hrun] at hcreated
    exact ⟨t, rfl, hcreated.2.1, hcreated.2.2, by simp [hcreated.1.2.1, stage]⟩
  | error _ t =>
    rw [hrun] at hcreated
    obtain ⟨n, hn, hk, -⟩ := hcreated
    omega

lemma initPersistentDb_panics {w : Db} (hw : w.file = some freshMain.encode) :
    ∃ t, initPersistentDb noFaults w = .error .panic t := by
  have hopen : attempt (openDbFile noFaults) w = .ok (.ok ()) w.tick := attempt_ok rfl (by simp [Db.tick, hw])
  have hmain : orPanic (readObjectData noFaults 0 mainSize) w.tick = .ok freshMain.encode w.tick.tick := by
    refine via_ok rfl ?_
    change Except.ok (slice (w.file.getD []) 0 mainSize, w.tick.tick) = _
    rw [hw, getD_some, slice, drop_zero, take_of_length_le freshMain.encode_length.le]
  have hcount : orPanic (readObjectData noFaults mainSize 4) w.tick.tick = .ok [] w.tick.tick.tick := by
    refine via_ok rfl ?_
    change Except.ok (slice (w.file.getD []) mainSize 4, w.tick.tick.tick) = _
    rw [hw, getD_some, slice, drop_of_length_le freshMain.encode_length.le, take_nil]
  refine ⟨w.tick.tick.tick, ?_⟩
  rw [initPersistentDb, bind_of_ok hopen]
  change loadDb noFaults w.tick = _
  rw [loadDb, bind_of_ok hmain, bind_of_ok (panicUnless_pos freshMain.encode_length), bind_of_ok hcount]
  rfl

lemma not_usable_encode : ¬Usable (some freshMain.encode) := by
  intro h
  obtain ⟨t, ht, -⟩ := h ⟨freshMain, [], some freshMain.encode, [], 0, 0, []⟩ rfl
  obtain ⟨t', ht'⟩ := initPersistentDb_panics (w := ⟨freshMain, [], some freshMain.encode, [], 0, 0, []⟩) rfl
  rw [ht] at ht'
  cases ht'

lemma usable_stage (n : ℕ) : Usable (stage n) ↔ n ≠ 2 := by
  match n with
  | 0 => exact iff_of_true usable_none (by omega)
  | 1 => exact iff_of_true usable_none (by omega)
  | 2 => exact iff_of_false not_usable_encode (by omega)
  | n + 3 => exact iff_of_true usable_created (by omega)

theorem init_persistent_db_survives_reset (k : ℕ) (w : Db) :
    Usable (final (initPersistentDb (resetAt k) { w with file := none })).file ↔ k ≠ w.requests + 2 := by
  have hcreated : Ends _ _ (initPersistentDb (resetAt k) { w with file := none }) :=
    initPersistentDb_created (fun _ _ => rfl) rfl
  cases hrun : initPersistentDb (resetAt k) { w with file := none } with
  | ok _ t =>
    rw [hrun] at hcreated
    obtain ⟨⟨-, hfile, hpast⟩, -⟩ := hcreated
    rw [final, hfile]
    exact iff_of_true usable_created (hpast 2 (by omega))
  | error _ t =>
    rw [hrun] at hcreated
    obtain ⟨n, -, hk, hfile⟩ := hcreated
    rw [final, hfile, usable_stage, hk]
    exact not_congr (Nat.add_left_cancel_iff).symm

theorem init_persistent_db_panics_after_reset :
    ∃ t, initPersistentDb (resetAt 2) ⟨freshMain, [], none, [], 0, 0, []⟩ = .error .reset t ∧
      ∃ t', initPersistentDb noFaults t = .error .panic t' :=
  ⟨_, rfl, initPersistentDb_panics rfl⟩

end Optee.Pkcs11
