import Mathlib.Tactic.Common

/-! Pre- and postconditions of programs that change a state and may stop with an exception. -/

namespace Optee.Lib.Effects

open List

variable {ε σ τ α β : Type}

def Ends (Q : α → σ → Prop) (R : ε → σ → Prop) : EStateM.Result ε σ α → Prop
  | .ok a s => Q a s
  | .error e s => R e s

instance (Q : α → σ → Prop) (R : ε → σ → Prop) [∀ a s, Decidable (Q a s)] [∀ e s, Decidable (R e s)] :
    (x : EStateM.Result ε σ α) → Decidable (Ends Q R x)
  | .ok a s => inferInstanceAs (Decidable (Q a s))
  | .error e s => inferInstanceAs (Decidable (R e s))

def Spec (P : σ → Prop) (p : EStateM ε σ α) (Q : α → σ → Prop) (R : ε → σ → Prop) : Prop :=
  ∀ s, P s → Ends Q R (p s)

abbrev Preserves (P : σ → Prop) (p : EStateM ε σ α) (R : ε → σ → Prop) : Prop := Spec P p (fun _ => P) R

variable {P P' : σ → Prop} {p : EStateM ε σ α} {f : α → EStateM ε σ β} {Q Q' : α → σ → Prop} {R R' : ε → σ → Prop}
  {S : β → σ → Prop} {x : EStateM.Result ε σ α} {s : σ} {g : ε → EStateM ε σ α}

lemma Ends.mono (h : Ends Q R x) (hQ : ∀ a s, Q a s → Q' a s) (hR : ∀ e s, R e s → R' e s) : Ends Q' R' x := by
  cases x with
  | ok a s => exact hQ a s h
  | error e s => exact hR e s h

def final : EStateM.Result ε σ α → σ
  | .ok _ s => s
  | .error _ s => s

lemma exists_ok_of_decide [Decidable (Ends Q (fun _ _ => False) x)] (h : decide (Ends Q (fun _ _ => False) x) = true) :
    ∃ a s, x = .ok a s ∧ Q a s := by
  have hends := of_decide_eq_true h
  cases x with
  | ok a s => exact ⟨a, s, rfl, hends⟩
  | error e s => exact absurd hends id

lemma Spec.mono (h : Spec P p Q R) (hP : ∀ s, P' s → P s) (hQ : ∀ a s, Q a s → Q' a s)
    (hR : ∀ e s, R e s → R' e s) : Spec P' p Q' R' :=
  fun s hs => (h s (hP s hs)).mono hQ hR

lemma Spec.of_imp (h : Spec P p Q R) (hP : ∀ s, P' s → P s) : Spec P' p Q R := fun s hs => h s (hP s hs)

lemma Spec.ends (h : Spec P p Q R) (hQ : ∀ a s, Q a s → Q' a s) (hR : ∀ e s, R e s → R' e s) : Spec P p Q' R' :=
  h.mono (fun _ => id) hQ hR

lemma Spec.post (h : Spec P p Q R) (hQ : ∀ a s, Q a s → Q' a s) : Spec P p Q' R := h.ends hQ (fun _ _ => id)

lemma Spec.fails (h : Spec P p Q R) (hR : ∀ e s, R e s → R' e s) : Spec P p Q R' := h.ends (fun _ _ => id) hR

lemma Spec.pure {a : α} (h : ∀ s, P s → Q a s) : Spec P (pure a : EStateM ε σ α) Q R := h

lemma Spec.throw {e : ε} (h : ∀ s, P s → R e s) : Spec P (throw e : EStateM ε σ α) Q R := h

lemma Spec.get {Q : σ → σ → Prop} (h : ∀ s, P s → Q s s) : Spec P (get : EStateM ε σ σ) Q R := h

lemma Spec.modify {g : σ → σ} {Q : PUnit → σ → Prop} (h : ∀ s, P s → Q ⟨⟩ (g s)) :
    Spec P (modify g : EStateM ε σ PUnit) Q R := h

lemma bind_of_ok {t : σ} {a : α} (h : p s = .ok a t) : (p >>= f) s = f a t := by
  change EStateM.bind p f s = _
  unfold EStateM.bind
  rw [h]

lemma bind_get {f : σ → EStateM ε σ β} : (get >>= f) s = f s s := rfl

lemma bind_of_error {t : σ} {e : ε} (h : p s = .error e t) : (p >>= f) s = .error e t := by
  change EStateM.bind p f s = _
  unfold EStateM.bind
  rw [h]

lemma Spec.bind (hp : Spec P p Q R) (hf : ∀ a, Spec (Q a) (f a) S R) : Spec P (p >>= f) S R := by
  intro s hs
  have hs' := hp s hs
  cases hx : p s with
  | error e t =>
    rw [hx] at hs'
    rw [bind_of_error hx]
    exact hs'
  | ok a t =>
    rw [hx] at hs'
    rw [bind_of_ok hx]
    exact hf a t hs'

lemma Spec.get_bind {f : σ → EStateM ε σ β} (hf : ∀ s, P s → Spec (· = s) (f s) S R) :
    Spec P (MonadState.get >>= f) S R :=
  fun s hs => hf s hs s rfl

lemma Spec.foldlM {γ : Type} {step : β → γ → EStateM ε σ β} {I : β → σ → Prop} (xs : List γ) (b : β)
    (h : ∀ b x, Spec (I b) (step b x) I R) : Spec (I b) (xs.foldlM step b) I R := by
  induction xs generalizing b with
  | nil => exact Spec.pure (fun _ => id)
  | cons x xs ih =>
    exact (h b x).bind ih

lemma Spec.forM {γ : Type} {g : γ → EStateM ε σ PUnit} (xs : List γ) (h : ∀ x, Preserves P (g x) R) :
    Preserves P (xs.forM g) R := by
  induction xs with
  | nil => exact Spec.pure fun _ => id
  | cons x xs ih => exact Spec.bind (h x) fun _ => ih

lemma Spec.forM_range {f : ℕ → EStateM ε σ PUnit} {I : ℕ → σ → Prop} (n : ℕ)
    (h : ∀ i < n, Spec (I i) (f i) (fun _ => I (i + 1)) R) :
    Spec (I 0) ((List.range n).forM f) (fun _ => I n) R := by
  induction n with
  | zero => exact Spec.pure (fun _ => id)
  | succ n ih =>
    rw [range_succ, List.forM_eq_forM, forM_append]
    exact (ih fun i hi => h i (by omega)).bind fun _ => (h n (by omega)).bind fun _ => Spec.pure (fun _ => id)

lemma Spec.foldlM_range {step : β → ℕ → EStateM ε σ β} {I : ℕ → β → σ → Prop} (n : ℕ) (b : β)
    (h : ∀ i < n, ∀ b, Spec (I i b) (step b i) (I (i + 1)) R) : Spec (I 0 b) ((List.range n).foldlM step b) (I n) R := by
  induction n with
  | zero => exact Spec.pure (fun _ => id)
  | succ n ih =>
    rw [range_succ, foldlM_append]
    exact (ih fun i hi => h i (by omega)).bind fun b' => (h n (by omega) b').bind fun _ => Spec.pure (fun _ => id)

lemma Spec.exists {ι : Type} {P : ι → σ → Prop} (h : ∀ x, Spec (P x) p Q R) : Spec (fun s => ∃ x, P x s) p Q R :=
  fun s ⟨x, hx⟩ => h x s hx

lemma Spec.and_left {A : Prop} (h : A → Spec P p Q R) : Spec (fun s => A ∧ P s) p Q R := fun s hs => h hs.1 s hs.2

lemma Spec.tryCatch (hp : Spec P p Q R) (hg : ∀ e, Spec (R e) (g e) Q R') : Spec P (tryCatch p g) Q R' := by
  intro s hs
  have hs' := hp s hs
  change Ends Q R' (EStateM.tryCatch p g s)
  unfold EStateM.tryCatch
  cases hx : p s with
  | ok a t =>
    rw [hx] at hs'
    exact hs'
  | error e t =>
    rw [hx] at hs'
    exact hg e t hs'

def Invariant (I : σ → Prop) (p : EStateM ε σ α) : Prop := Preserves I p (fun _ => I)

section Invariant

variable {I : σ → Prop}

lemma Invariant.pure (a : α) : Invariant I (pure a : EStateM ε σ α) := Spec.pure fun _ => id

lemma Invariant.throw (e : ε) : Invariant I (throw e : EStateM ε σ α) := Spec.throw fun _ => id

lemma Invariant.bind (hp : Invariant I p) (hf : ∀ a, Invariant I (f a)) : Invariant I (p >>= f) := Spec.bind hp hf

lemma Invariant.get_bind {f : σ → EStateM ε σ β} (hf : ∀ s, I s → Invariant I (f s)) : Invariant I (get >>= f) :=
  fun s hs => hf s hs s hs

lemma Invariant.modify {g : σ → σ} (h : ∀ s, I s → I (g s)) : Invariant I (modify g : EStateM ε σ PUnit) :=
  Spec.modify h

lemma Invariant.tryCatch (hp : Invariant I p) (hg : ∀ e, Invariant I (g e)) :
    Invariant I (tryCatch p g) := Spec.tryCatch hp hg

lemma Invariant.forM {γ : Type} {g : γ → EStateM ε σ PUnit} (xs : List γ) (h : ∀ x, Invariant I (g x)) :
    Invariant I (xs.forM g) := Spec.forM xs h

end Invariant

def zoom (view : σ → τ) (put : σ → τ → σ) (p : EStateM ε τ α) : EStateM ε σ α := fun s =>
  match p (view s) with
  | .ok a t => .ok a (put s t)
  | .error e t => .error e (put s t)

lemma Spec.zoom {view : σ → τ} {put : σ → τ → σ} {p : EStateM ε τ α} {A : α → τ → Prop} {B : ε → τ → Prop}
    (h : Ends A B (p (view s))) (hQ : ∀ a t, A a t → Q a (put s t)) (hR : ∀ e t, B e t → R e (put s t)) :
    Ends Q R (zoom view put p s) := by
  unfold Effects.zoom
  cases hx : p (view s) with
  | ok a t =>
    rw [hx] at h
    exact hQ a t h
  | error e t =>
    rw [hx] at h
    exact hR e t h

end Optee.Lib.Effects
