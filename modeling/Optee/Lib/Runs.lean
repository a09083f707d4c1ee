import Mathlib.Tactic.Common

/-! Runs of a step function that may fail, and invariants of such runs. -/

namespace Optee.Lib.Runs

variable {σ η ε : Type*} {step : σ → η → Except ε σ} {P Q : σ → η → Prop} {s t u : σ} {e : η} {es fs : List η}

def run (step : σ → η → Except ε σ) : σ → List η → Except ε σ
  | s, [] => .ok s
  | s, e :: es => step s e >>= fun t => run step t es

def Along (step : σ → η → Except ε σ) (P : σ → η → Prop) : σ → List η → Prop
  | _, [] => True
  | s, e :: es => P s e ∧ ∀ t, step s e = .ok t → Along step P t es

instance Along.decidable [∀ s e, Decidable (P s e)] : ∀ s es, Decidable (Along step P s es)
  | _, [] => isTrue trivial
  | s, e :: es =>
    match hstep : step s e with
    | .error x => decidable_of_iff (P s e) ⟨fun h => ⟨h, fun t ht => by rw [hstep] at ht; cases ht⟩, fun h => h.1⟩
    | .ok t =>
      have := Along.decidable t es
      decidable_of_iff (P s e ∧ Along step P t es)
        ⟨fun h => ⟨h.1, fun t' ht' => by rw [hstep] at ht'; cases ht'; exact h.2⟩, fun h => ⟨h.1, h.2 t hstep⟩⟩

lemma ok_bind {α β : Type} (a : α) (f : α → Except ε β) : (Except.ok a >>= f) = f a := rfl

lemma run_cons : run step s (e :: es) = .ok u ↔ ∃ t, step s e = .ok t ∧ run step t es = .ok u := by
  rw [run]
  cases step s e with
  | error x | ok t => simp [bind, Except.bind]

lemma run_append : run step s (es ++ fs) = .ok u ↔ ∃ t, run step s es = .ok t ∧ run step t fs = .ok u := by
  induction es generalizing s with
  | nil => simp [run]
  | cons e es ih =>
    simp only [List.cons_append, run_cons, ih]
    constructor
    · rintro ⟨t, ht, t', ht', hu⟩
      exact ⟨t', ⟨t, ht, ht'⟩, hu⟩
    · rintro ⟨t', ⟨t, ht, ht'⟩, hu⟩
      exact ⟨t, ht, t', ht', hu⟩

lemma Along.of_append (h : Along step P s (es ++ fs)) (hrun : run step s es = .ok t) : Along step P t fs := by
  induction es generalizing s with
  | nil =>
    cases hrun
    exact h
  | cons e es ih =>
    obtain ⟨s', hs', hrest⟩ := run_cons.mp hrun
    exact ih (h.2 s' hs') hrest

lemma Along.mono (h : Along step P s es) (hPQ : ∀ s e, P s e → Q s e) : Along step Q s es := by
  induction es generalizing s with
  | nil => trivial
  | cons e es ih => exact ⟨hPQ s e h.1, fun t ht => ih (h.2 t ht)⟩

lemma Along.of_forall (h : ∀ s e, P s e) : Along step P s es := by
  induction es generalizing s with
  | nil => trivial
  | cons e es ih => exact ⟨h s e, fun _ _ => ih⟩

lemma Along.of_mem (h : ∀ e ∈ es, ∀ s, P s e) : Along step P s es := by
  induction es generalizing s with
  | nil => trivial
  | cons e es ih =>
    rw [List.forall_mem_cons] at h
    exact ⟨h.1 s, fun _ _ => ih h.2⟩

lemma Along.and (h : Along step P s es) (h' : Along step Q s es) : Along step (fun s e => P s e ∧ Q s e) s es := by
  induction es generalizing s with
  | nil => trivial
  | cons e es ih => exact ⟨⟨h.1, h'.1⟩, fun t ht => ih (h.2 t ht) (h'.2 t ht)⟩

variable {I : σ → Prop}

lemma Along.invariant (h : Along step P s es) (hrun : run step s es = .ok t) (hs : I s)
    (hstep : ∀ s e t, I s → P s e → step s e = .ok t → I t) : I t := by
  induction es generalizing s with
  | nil =>
    cases hrun
    exact hs
  | cons e es ih =>
    obtain ⟨s', hs', hrest⟩ := run_cons.mp hrun
    exact ih (h.2 s' hs') hrest (hstep s e s' hs h.1 hs')

lemma Along.completes (h : Along step P s es) (hs : I s) (hstep : ∀ s e, I s → P s e → ∃ t, step s e = .ok t ∧ I t) :
    ∃ t, run step s es = .ok t ∧ I t := by
  induction es generalizing s with
  | nil => exact ⟨s, rfl, hs⟩
  | cons e es ih =>
    obtain ⟨t, ht, hI⟩ := hstep s e hs h.1
    obtain ⟨u, hu, hIu⟩ := ih (h.2 t ht) hI
    exact ⟨u, run_cons.mpr ⟨t, ht, hu⟩, hIu⟩

lemma Along.imp_of_invariant (h : Along step P s es) (hs : I s)
    (hstep : ∀ s e t, I s → P s e → step s e = .ok t → I t) (hPQ : ∀ s e, I s → P s e → Q s e) : Along step Q s es := by
  induction es generalizing s with
  | nil => trivial
  | cons e es ih => exact ⟨hPQ s e hs h.1, fun t ht => ih (h.2 t ht) (hstep s e t hs h.1 ht)⟩

end Optee.Lib.Runs
