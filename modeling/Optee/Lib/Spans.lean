import Mathlib.Data.List.Basic
import Mathlib.Order.Nat

/-! Lists of half-open spans in ascending order, and the span that covers a point. -/

namespace Optee.Lib.Spans

open List

variable {α : Type*} (lo hi : α → ℕ)

structure Ascending (l : List α) : Prop where
  ordered : l.Pairwise fun x y => hi x ≤ lo y
  proper : ∀ x ∈ l, lo x ≤ hi x

def Covers (x : α) (a : ℕ) : Prop := lo x ≤ a ∧ a < hi x

instance (x : α) (a : ℕ) : Decidable (Covers lo hi x a) := inferInstanceAs (Decidable (_ ∧ _))

def covering (l : List α) (a : ℕ) : Option α := l.find? fun x => Covers lo hi x a

variable {lo hi} {l l₁ l₂ : List α} {x y : α} {a : ℕ}

lemma Ascending.sublist (h : Ascending lo hi l₂) (hl : l₁.Sublist l₂) : Ascending lo hi l₁ :=
  ⟨h.ordered.sublist hl, fun x hx => h.proper x (hl.subset hx)⟩

lemma ascending_nil : Ascending lo hi ([] : List α) := ⟨.nil, nofun⟩

lemma ascending_cons : Ascending lo hi (x :: l) ↔ lo x ≤ hi x ∧ (∀ y ∈ l, hi x ≤ lo y) ∧ Ascending lo hi l := by
  constructor
  · intro h
    obtain ⟨hx, hl⟩ := pairwise_cons.mp h.ordered
    exact ⟨h.proper x mem_cons_self, hx, hl, fun y hy => h.proper y (mem_cons_of_mem _ hy)⟩
  · rintro ⟨hx, hall, hl⟩
    refine ⟨pairwise_cons.mpr ⟨hall, hl.ordered⟩, fun y hy => ?_⟩
    rcases mem_cons.mp hy with rfl | hy
    · exact hx
    · exact hl.proper y hy

lemma ascending_append :
    Ascending lo hi (l₁ ++ l₂) ↔
      Ascending lo hi l₁ ∧ Ascending lo hi l₂ ∧ ∀ x ∈ l₁, ∀ y ∈ l₂, hi x ≤ lo y := by
  constructor
  · intro h
    obtain ⟨h1, h2, h12⟩ := pairwise_append.mp h.ordered
    exact ⟨⟨h1, fun x hx => h.proper x (mem_append_left _ hx)⟩,
      ⟨h2, fun x hx => h.proper x (mem_append_right _ hx)⟩, h12⟩
  · rintro ⟨h1, h2, h12⟩
    refine ⟨pairwise_append.mpr ⟨h1.ordered, h2.ordered, h12⟩, fun x hx => ?_⟩
    exact (mem_append.mp hx).elim (h1.proper x) (h2.proper x)

lemma Ascending.le_of_head (h : Ascending lo hi (x :: l)) {n : ℕ} (hn : n ≤ lo x) : ∀ y ∈ x :: l, n ≤ lo y := by
  obtain ⟨hx, hall, -⟩ := ascending_cons.mp h
  intro y hy
  rcases mem_cons.mp hy with rfl | hy
  · exact hn
  · exact hn.trans (hx.trans (hall y hy))

lemma Ascending.eq_of_covers (h : Ascending lo hi l) (hx : x ∈ l) (hy : y ∈ l) (hxa : Covers lo hi x a)
    (hya : Covers lo hi y a) : x = y := by
  induction l with
  | nil => cases hx
  | cons z l ih =>
    obtain ⟨-, hall, hl⟩ := ascending_cons.mp h
    rcases mem_cons.mp hx with rfl | hxl <;> rcases mem_cons.mp hy with rfl | hyl
    · rfl
    · exact absurd (hxa.2.trans_le ((hall y hyl).trans hya.1)) (lt_irrefl _)
    · exact absurd (hya.2.trans_le ((hall x hxl).trans hxa.1)) (lt_irrefl _)
    · exact ih hl hxl hyl

lemma covering_eq_some (h : Ascending lo hi l) : covering lo hi l a = some x ↔ x ∈ l ∧ Covers lo hi x a := by
  constructor
  · intro hx
    exact ⟨mem_of_find?_eq_some hx, by simpa using find?_some hx⟩
  · rintro ⟨hx, hxa⟩
    cases hy : covering lo hi l a with
    | none =>
      have := find?_eq_none.mp hy x hx
      simp [hxa] at this
    | some y =>
      have hya : Covers lo hi y a := by simpa using find?_some hy
      rw [h.eq_of_covers (mem_of_find?_eq_some hy) hx hya hxa]

end Optee.Lib.Spans
