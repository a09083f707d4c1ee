import Optee.Vm.Access

/-! The translation tables that go with a removed region. -/

namespace Optee.Vm

open Lib.Spans

section Flush

variable (cfg : Config)

def roundupTable (v : ℕ) : ℕ := rounddown ((v + (cfg.pgdirSize - 1)) % cfg.wordSize) cfg.pgdirSize

def unusedBegin (r : Region) (prev : Option Region) : ℕ :=
  prev.elim (rounddown r.va cfg.pgdirSize) fun p => max (rounddown r.va cfg.pgdirSize) (roundupTable cfg p.endVa)

def unusedLast (r : Region) (next : Option Region) : ℕ :=
  next.elim (roundupTable cfg r.endVa) fun n => min (roundupTable cfg r.endVa) (rounddown n.va cfg.pgdirSize)

def pgtEntryMatches (vabase first last : ℕ) : Bool :=
  first < last && bufferInside cfg vabase smallPageSize first (last - first)

def FindsUnused (xs : List Region) (r : Region) (ys : List Region) : Prop :=
  unusedBegin cfg r xs.getLast? < unusedLast cfg r ys.head?

instance (xs : List Region) (r : Region) (ys : List Region) : Decidable (FindsUnused cfg xs r ys) :=
  inferInstanceAs (Decidable (_ < _))

def remUmRegionFlushes (xs : List Region) (r : Region) (ys : List Region) (vabase : ℕ) : Bool :=
  FindsUnused cfg xs r ys && pgtEntryMatches cfg vabase r.va r.endVa

def Region.Uses (r : Region) (t : ℕ) : Prop :=
  ∃ a, r.Contains a ∧ t * cfg.pgdirSize ≤ a ∧ a < (t + 1) * cfg.pgdirSize

def Spares (t : ℕ) (rest : List Region) : Prop := ∀ x ∈ rest, ¬x.Uses cfg t

def FlushesExactly (xs : List Region) (r : Region) (ys : List Region) : Prop :=
  (∀ t, remUmRegionFlushes cfg xs r ys (t * cfg.pgdirSize) = true → Spares cfg t (xs ++ ys)) ∧
    ∀ t, r.Uses cfg t → Spares cfg t (xs ++ ys) → remUmRegionFlushes cfg xs r ys (t * cfg.pgdirSize) = true

end Flush

variable {cfg : Config} {xs ys : List Region} {r : Region} {t : ℕ}

lemma pgtEntryMatches_iff (hr : Placed cfg r) :
    pgtEntryMatches cfg (t * cfg.pgdirSize) r.va r.endVa = true ↔ r.Contains (t * cfg.pgdirSize) := by
  have hfits := cfg.range_fits
  have hend := hr.end_le
  obtain ⟨k, hk⟩ := Nat.dvd_add hr.va_aligned hr.size_aligned
  obtain ⟨j, hj⟩ := Nat.dvd_trans cfg.pgdir_aligned (Nat.dvd_mul_left _ t)
  simp only [pgtEntryMatches, bufferInside, Region.Contains, Covers, Bool.and_eq_true, decide_eq_true_eq, hj]
  simp only [Region.endVa, smallPageSize] at hend hk ⊢
  omega

def toyTables : Config := { toyConfig with vaRangeSize := 0x400000, range_fits := by decide }

def tableMobj : Mobj := ⟨1, 0x200000, false, true, some 1, false, 0⟩

def tableRegion (va size : ℕ) : Region := ⟨tableMobj, 0, va, size, 0x1891, 0⟩

def mapTable (va size : ℕ) : Call × List Bool :=
  (.mapPad va size (Mattr.pr ||| Mattr.ur).toUInt32 0 tableMobj 0 0 0 0, [])

end Optee.Vm
