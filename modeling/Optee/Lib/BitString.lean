import Mathlib.Data.List.GetD
import Mathlib.Tactic.Common

/-! Bit strings that grow when a bit is set. -/

namespace Optee.Lib.BitString

open List

variable (bits : List Bool) (i j : ℕ)

def test : Bool := bits.getD i false

def grow : List Bool := bits ++ List.replicate (i + 1 - bits.length) false

def set : List Bool := (grow bits i).set i true

def clear : List Bool := bits.set i false

def firstClear : ℕ := bits.idxOf false

lemma grow_length : (grow bits i).length = max bits.length (i + 1) := by
  rw [grow, length_append, length_replicate]
  omega

lemma test_grow : test (grow bits i) j = test bits j := by
  rw [test, test, grow]
  by_cases hj : j < bits.length
  · rw [getD_append _ _ _ _ hj]
  · rw [getD_append_right _ _ _ _ (by omega), getD_eq_getElem?_getD,
      getElem?_getD_replicate_default_eq, getD_eq_default _ _ (by omega)]

lemma getD_set {bits : List Bool} (h : i < bits.length) (b : Bool) :
    (bits.set i b).getD j false = if j = i then b else bits.getD j false := by
  rw [getD_eq_getElem?_getD, getD_eq_getElem?_getD, getElem?_set]
  by_cases hij : j = i
  · subst hij
    simp [h]
  · rw [if_neg (Ne.symm hij), if_neg hij]

lemma test_set : test (set bits i) j = (decide (j = i) || test bits j) := by
  have hi : i < (grow bits i).length := by
    rw [grow_length]
    omega
  rw [← test_grow bits i j, set, test, getD_set i j hi, test]
  by_cases hij : j = i
  · simp [hij]
  · simp [hij]

lemma test_clear : test (clear bits i) j = (test bits j && decide (j ≠ i)) := by
  rw [clear, test, test]
  by_cases hi : i < bits.length
  · rw [getD_set i j hi]
    by_cases hij : j = i
    · simp [hij]
    · simp [hij]
  · rw [set_eq_of_length_le (by omega)]
    by_cases hij : j = i
    · rw [hij, getD_eq_default _ _ (Nat.le_of_not_lt hi), Bool.false_and]
    · simp [hij]

lemma test_firstClear : test bits (firstClear bits) = false := by
  rw [test, firstClear]
  by_cases h : false ∈ bits
  · rw [getD_eq_getElem _ _ (idxOf_lt_length_iff.mpr h), getElem_idxOf]
  · rw [getD_eq_default _ _ (Nat.le_of_eq (idxOf_eq_length h).symm)]

lemma clear_eq_nil {bits : List Bool} {i : ℕ} : clear bits i = [] ↔ bits = [] := set_eq_nil_iff i false

end Optee.Lib.BitString
