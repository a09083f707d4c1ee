import Optee.Rpmb.Traversal

/-! Several threads that traverse the file allocation table: its buffer is one object shared by all of them. -/

namespace Optee.Rpmb

open Lib TeeResult List

inductive Place
  | idle
  | holding (traversal : Option Traversal)
  | leaving (traversal : Option Traversal)
  | outside (traversal : Option Traversal)
  deriving DecidableEq

def Place.traversal : Place → Option Traversal
  | .idle => none
  | .holding traversal => traversal
  | .leaving traversal => traversal
  | .outside traversal => traversal

def Place.isHolding : Place → Bool
  | .holding _ => true
  | _ => false

structure FatThreads where
  stored : StoredFat
  dir : Option FatEntryDir
  threads : List Place

inductive ThreadAct
  | lock
  | fat (event : FatEvent)
  | unlock
  | unlockPopulate
  | unlockRaw
  | finish

/-- No caller goes on with a failed traversal, and entries are written only outside of one or at its end. -/
def Issued : Option Traversal → FatEvent → Bool
  | some traversal, .next _ => !traversal.failed
  | some traversal, .write _ _ => traversal.ended && !traversal.failed
  | _, _ => true

namespace FatThreads

variable (F : FatConfig)

def world (w : FatThreads) (place : Place) : FatWorld := ⟨w.stored, w.dir, place.traversal⟩

def moved (w : FatThreads) (t : ℕ) (place : Place) : FatThreads := { w with threads := w.threads.set t place }

def fat (w : FatThreads) (t : ℕ) (place : Place) (event : FatEvent) (next : Option Traversal → Place) :
    TeeResult FatThreads :=
  if Issued place.traversal event then do
    let fw ← (w.world place).step F event
    pure { stored := fw.stored, dir := fw.dir, threads := w.threads.set t (next fw.traversal) }
  else .error .generic

def step (w : FatThreads) (move : ℕ × ThreadAct) : TeeResult FatThreads :=
  let t := move.1
  match w.threads[t]?, move.2 with
  | some .idle, .lock => if w.threads.any Place.isHolding then .error .generic else pure (w.moved t (.holding none))
  | some (.holding traversal), .fat event => w.fat F t (.holding traversal) event .holding
  | some (.holding none), .unlock => pure (w.moved t .idle)
  | some (.holding traversal), .unlockPopulate => pure (w.moved t (.leaving traversal))
  | some (.leaving traversal), .fat (.deinit shrinkFault) =>
    w.fat F t (.leaving traversal) (.deinit shrinkFault) (fun _ => .idle)
  | some (.holding none), .unlockRaw => pure (w.moved t (.outside none))
  | some (.outside traversal), .fat event => w.fat F t (.outside traversal) event .outside
  | some (.outside none), .finish => pure (w.moved t .idle)
  | _, _ => .error .generic

def Undisturbed (w : FatThreads) (move : ℕ × ThreadAct) : Prop :=
  (∀ traversal event, w.threads[move.1]? = some (.holding traversal) → move.2 = .fat event → Issued traversal event = true →
    (w.world (.holding traversal)).Faithful F event) ∧
  ∀ t traversal w', t ≠ move.1 → w.threads[t]? = some (.holding (some traversal)) → w.step F move = .ok w' → w'.dir = w.dir

/-- The mutex is taken only when no thread has work on the table left that it does without the mutex. -/
def NoStraggler (w : FatThreads) (move : ℕ × ThreadAct) : Prop :=
  match move.2 with
  | .lock => ∀ place ∈ w.threads, place.isHolding = false → place = .idle
  | _ => True

instance (w : FatThreads) (move : ℕ × ThreadAct) : Decidable (w.NoStraggler move) := by
  unfold NoStraggler
  split <;> infer_instance

structure Alone (w : FatThreads) : Prop where
  one : ∀ (t t' : ℕ) (p p' : Place), w.threads[t]? = some p → w.threads[t']? = some p' → p ≠ .idle → p' ≠ .idle → t = t'
  busy : ∀ p ∈ w.threads, p ≠ .idle → (w.world p).Coherent F
  rest : (∀ p ∈ w.threads, p = .idle) → (w.world .idle).Coherent F

variable {F} {w w' : FatThreads} {t : ℕ} {p q : Place} {dir : Option FatEntryDir} {stored : StoredFat}
  {event : FatEvent} {threads : List Place}

lemma calm_of_issued {traversal : Option Traversal} (h : Issued traversal event = true) :
    FatWorld.Calm F ⟨stored, dir, traversal⟩ event := by
  cases event with
  | init fault | deinit shrinkFault => trivial
  | next fault =>
    rintro tr (rfl : traversal = some tr)
    simpa [Issued] using h
  | write idx entry =>
    rintro tr (rfl : traversal = some tr) hended
    simp [Issued, hended] at h

lemma mem_set_idle (hone : ∀ t' p', threads[t']? = some p' → p' ≠ .idle → t' = t) (hmem : q ∈ threads.set t p) :
    q = p ∨ q = .idle := by
  obtain ⟨i, hi⟩ := mem_iff_getElem?.mp hmem
  rw [getElem?_set] at hi
  split_ifs at hi with hti
  · exact Or.inl (Option.some.inj hi).symm
  · by_contra hne
    rw [not_or] at hne
    exact hti (hone i q hi hne.2).symm

lemma Alone.moved (hlt : t < threads.length) (hone : ∀ t' p', threads[t']? = some p' → p' ≠ .idle → t' = t)
    (hcoherent : FatWorld.Coherent F ⟨stored, dir, q.traversal⟩) : Alone F ⟨stored, dir, threads.set t q⟩ where
  one t1 t2 p1 p2 h1 h2 hp1 hp2 := by
    have hself : ∀ i p, (threads.set t q)[i]? = some p → p ≠ .idle → i = t := by
      intro i p hi hp
      rw [getElem?_set] at hi
      split_ifs at hi with hti
      · exact hti.symm
      · exact hone i p hi hp
    rw [hself t1 p1 h1 hp1, hself t2 p2 h2 hp2]
  busy p hp hne := by
    rcases mem_set_idle hone hp with rfl | rfl
    · exact hcoherent
    · exact absurd rfl hne
  rest hidle := by
    have hq : q = .idle := hidle q (mem_set hlt q)
    rw [hq] at hcoherent
    exact hcoherent

lemma Alone.fat {next : Option Traversal → Place} (hR : 0 < F.rdEntries) (h : Alone F w) (hp : w.threads[t]? = some p)
    (hne : p ≠ .idle) (hnext : ∀ w1, (w.world p).step F event = .ok w1 → (next w1.traversal).traversal = w1.traversal)
    (hok : w.fat F t p event next = .ok w') : Alone F w' := by
  rw [FatThreads.fat] at hok
  split_ifs at hok with hissued
  obtain ⟨fw, hstep, hok⟩ := bind_eq_ok.mp hok
  cases hok
  have hcoherent := (h.busy p (mem_of_getElem? hp) hne).step hR (calm_of_issued hissued) hstep
  refine Alone.moved (List.getElem?_eq_some_iff.mp hp).1 (fun t' p' ht' hp' => h.one t' t p' p ht' hp hp' hne) ?_
  rw [hnext fw hstep]
  exact hcoherent

lemma Alone.place (h : Alone F w) (hp : w.threads[t]? = some p) (hne : p ≠ .idle) (hq : q.traversal = p.traversal) :
    Alone F (w.moved t q) := by
  refine Alone.moved (List.getElem?_eq_some_iff.mp hp).1 (fun t' p' ht' hp' => h.one t' t p' p ht' hp hp' hne) ?_
  rw [hq]
  exact h.busy p (mem_of_getElem? hp) hne

lemma Alone.step {move : ℕ × ThreadAct} (hR : 0 < F.rdEntries) (h : Alone F w) (hlock : w.NoStraggler move)
    (hok : w.step F move = .ok w') : Alone F w' := by
  obtain ⟨t, act⟩ := move
  unfold FatThreads.step at hok
  dsimp only at hok
  split at hok
  · rename_i ht
    split_ifs at hok with hany
    cases hok
    have hidle : ∀ p ∈ w.threads, p = .idle := by
      intro p hp
      refine hlock p hp ?_
      rw [Bool.not_eq_true, any_eq_false] at hany
      simpa using hany p hp
    refine Alone.moved (List.getElem?_eq_some_iff.mp ht).1 (fun t' p' ht' hp' => ?_) (h.rest hidle)
    exact absurd (hidle p' (mem_of_getElem? ht')) hp'
  · exact h.fat hR ‹_› (by simp) (fun _ _ => rfl) hok
  · rename_i ht
    cases hok
    exact h.place ht (by simp) rfl
  · rename_i traversal ht
    cases hok
    exact h.place ht (by simp) rfl
  · refine h.fat hR ‹_› (by simp) (fun w1 hw1 => ?_) hok
    cases hw1
    rfl
  · rename_i ht
    cases hok
    exact h.place ht (by simp) rfl
  · exact h.fat hR ‹_› (by simp) (fun _ _ => rfl) hok
  · rename_i ht
    cases hok
    exact h.place ht (by simp) rfl
  · cases hok

lemma Alone.undisturbed (hR : 0 < F.rdEntries) (h : Alone F w) (move : ℕ × ThreadAct) : w.Undisturbed F move := by
  refine ⟨fun traversal event ht _ hissued => ?_, fun t traversal w' hne ht hok => ?_⟩
  · exact (h.busy _ (mem_of_getElem? ht) (by simp)).faithful hR (calm_of_issued hissued)
  · obtain ⟨t', act⟩ := move
    have hidle : ∀ p, w.threads[t']? = some p → p = .idle := by
      intro p hp
      by_contra hpi
      exact hne (h.one t t' _ p ht hp (by simp) hpi)
    unfold FatThreads.step at hok
    dsimp only at hok
    split at hok
    · split_ifs at hok
      cases hok
      rfl
    all_goals first | exact absurd (hidle _ ‹_›) (by simp) | cases hok

end FatThreads

theorem locked_traversals_undisturbed (F : FatConfig) (hR : 0 < F.rdEntries) (stored : StoredFat) (n : ℕ)
    (moves : List (ℕ × ThreadAct))
    (hmoves : Runs.Along (FatThreads.step F) FatThreads.NoStraggler ⟨stored, none, List.replicate n .idle⟩ moves) :
    Runs.Along (FatThreads.step F) (FatThreads.Undisturbed F) ⟨stored, none, List.replicate n .idle⟩ moves := by
  have hinit : FatThreads.Alone F ⟨stored, none, List.replicate n .idle⟩ := by
    refine ⟨fun t t' p p' ht _ hp => ?_, fun p hp hne => ?_, fun _ => ⟨?_, ?_⟩⟩
    · exact absurd (eq_of_mem_replicate (mem_of_getElem? ht)) hp
    · exact absurd (eq_of_mem_replicate hp) hne
    · intro _ dir hdir
      cases hdir
    · intro traversal ht
      cases ht
  exact hmoves.imp_of_invariant hinit (fun _ _ _ hw hP hok => hw.step hR hP hok) (fun _ move hw _ => hw.undisturbed hR move)

def toyNext : ThreadAct := .fat (.next ⟨none, none⟩)

def toyInTurn : List (ℕ × ThreadAct) :=
  [(0, .lock), (0, .fat (.init none)), (0, toyNext), (0, .unlockPopulate), (0, .fat (.deinit false)), (1, .lock),
    (1, .fat (.init none)), (1, toyNext)]

theorem locked_traversals_undisturbed_in_turn :
    Runs.Along (FatThreads.step ⟨0, 8⟩) (FatThreads.Undisturbed ⟨0, 8⟩) ⟨toyStored, none, List.replicate 2 .idle⟩
      toyInTurn :=
  locked_traversals_undisturbed ⟨0, 8⟩ (by decide) toyStored 2 toyInTurn (by decide +kernel)

def toyLateReset : List (ℕ × ThreadAct) :=
  [(0, .lock), (0, .fat (.init none)), (0, toyNext), (0, .unlockPopulate), (1, .lock), (1, .fat (.init none)),
    (0, .fat (.deinit false))]

theorem late_reset_frees_buffer : ∃ w,
    Runs.run (FatThreads.step ⟨0, 8⟩) ⟨toyStored, none, List.replicate 2 .idle⟩ toyLateReset = .ok w ∧
    w.step ⟨0, 8⟩ (1, toyNext) = .error .panic ∧ ¬ w.Undisturbed ⟨0, 8⟩ (1, toyNext) := by
  have hrun : TeeResult.error? (do
      let w ← Runs.run (FatThreads.step ⟨0, 8⟩) ⟨toyStored, none, List.replicate 2 .idle⟩ toyLateReset
      assert (w.dir = none)
      assert (w.threads[1]? = some (.holding (some ⟨0, false, false⟩)))) = none := by decide +kernel
  obtain ⟨w, hw, hrun⟩ := ok_of_bind hrun
  obtain ⟨_, hdir, hrun⟩ := ok_of_bind hrun
  replace hdir := assert_eq_ok.mp hdir
  have hthread := of_assert hrun
  refine ⟨w, hw, ?_, fun h => ?_⟩
  · rw [FatThreads.step, hthread]
    simp [toyNext, FatThreads.fat, Issued, FatThreads.world, FatWorld.step, Place.traversal, hdir, orError]
  · obtain ⟨dir, hdir', -⟩ := h.1 _ _ hthread rfl rfl _ rfl
    rw [FatThreads.world, hdir] at hdir'
    cases hdir'

end Optee.Rpmb
