import Mathlib.Algebra.Order.BigOperators.Group.List
import Mathlib.Algebra.Order.Ring.Nat

/-! A list of threads of which one moves at a time. -/

namespace Optee.Lib.Threads

open List

variable {α : Type*} {xs : List α} {i j : ℕ} {a b : α}

lemma set_self (h : xs[i]? = some a) : (xs.set i b)[i]? = some b := by
  obtain ⟨hlt, -⟩ := List.getElem?_eq_some_iff.mp h
  rw [getElem?_set_self hlt]

lemma set_other (hij : i ≠ j) : (xs.set i b)[j]? = xs[j]? := getElem?_set_ne hij

lemma sum_set (f : α → ℕ) (h : xs[i]? = some a) (b : α) : ((xs.set i b).map f).sum + f a = (xs.map f).sum + f b := by
  induction xs generalizing i with
  | nil => cases h
  | cons x xs ih =>
    cases i with
    | zero =>
      cases h
      simp only [set_cons_zero, map_cons, sum_cons]
      omega
    | succ i =>
      have := ih h
      simp only [set_cons_succ, map_cons, sum_cons]
      omega

lemma le_sum (f : α → ℕ) (h : a ∈ xs) : f a ≤ (xs.map f).sum :=
  single_le_sum (fun _ _ => Nat.zero_le _) _ (mem_map_of_mem h)

lemma set_cases {c : α} (h : xs[i]? = some a) (hj : (xs.set i b)[j]? = some c) :
    (j = i ∧ c = b) ∨ (j ≠ i ∧ xs[j]? = some c) := by
  by_cases hij : i = j
  · subst hij
    exact .inl ⟨rfl, (Option.some.inj ((set_self h).symm.trans hj)).symm⟩
  · exact .inr ⟨fun he => hij he.symm, (set_other hij).symm.trans hj⟩

lemma mem_set_of_ne {c : α} (h : xs[i]? = some a) (hc : c ∈ xs) (hne : c ≠ a) : c ∈ xs.set i b := by
  obtain ⟨j, hj⟩ := mem_iff_getElem?.mp hc
  refine mem_of_getElem? ((set_other ?_).trans hj)
  rintro rfl
  exact hne (Option.mem_unique hj h)

lemma eq_of_set {P : α → Prop} {c d : α} {k : ℕ}
    (h : ∀ (i j : ℕ) (a b : α), xs[i]? = some a → xs[j]? = some b → P a → P b → i = j) (hi : xs[i]? = some a)
    (hb : P b → P a ∨ ∀ x ∈ xs, ¬P x) (hj : (xs.set i b)[j]? = some c) (hk : (xs.set i b)[k]? = some d) (hc : P c) (hd : P d) : j = k := by
  have hone : ∀ {j : ℕ} {c : α}, j ≠ i → xs[j]? = some c → P c → ¬P b := fun hne hj hc hb' =>
    (hb hb').elim (fun ha => hne (h _ _ _ _ hj hi hc ha)) fun hno => hno _ (mem_of_getElem? hj) hc
  obtain ⟨rfl, rfl⟩ | ⟨hji, gj⟩ := set_cases hi hj
  · obtain ⟨rfl, -⟩ | ⟨hki, gk⟩ := set_cases hi hk
    · rfl
    · exact absurd hc (hone hki gk hd)
  · obtain ⟨rfl, rfl⟩ | ⟨-, gk⟩ := set_cases hi hk
    · exact absurd hd (hone hji gj hc)
    · exact h _ _ _ _ gj gk hc hd

lemma set_same (h : xs[i]? = some a) : xs.set i a = xs := by
  obtain ⟨hlt, ha⟩ := List.getElem?_eq_some_iff.mp h
  rw [← ha, set_getElem_self]

lemma append_other (hi : i ≠ xs.length) : (xs ++ [a])[i]? = xs[i]? := by
  by_cases hlt : i < xs.length
  · exact getElem?_append_left hlt
  · rw [getElem?_eq_none (by rw [length_append, length_singleton]; omega), getElem?_eq_none (by omega)]

end Optee.Lib.Threads
