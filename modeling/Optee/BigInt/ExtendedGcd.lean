import Mathlib.Algebra.Ring.Divisibility.Basic
import Mathlib.Algebra.Ring.Int.Parity
import Mathlib.Algebra.Ring.Int.Units
import Mathlib.Tactic.LinearCombination
import Mathlib.Tactic.Ring

/-! The extended greatest common divisor; its loops run for a given number of turns at most. -/

namespace Optee.BigInt

structure Mpi where
  s : ℤˣ
  abs : ℕ

/-- The sign of 0 may be negative. -/
def Mpi.value (m : Mpi) : ℤ := m.s * m.abs

/-- `mbedtls_mpi_shift_r` by one bit: the magnitude is halved. -/
def shiftR (n : ℤ) : ℤ := n.tdiv 2

/-- `u` with `A` and `B`, or `gcd` with `C` and `D`. -/
structure Row where
  n : ℤ
  a : ℤ
  b : ℤ

def halve (x y : ℤ) (r : Row) : Row :=
  if ¬Even r.a ∨ ¬Even r.b then ⟨shiftR r.n, shiftR (r.a + y), shiftR (r.b - x)⟩
  else ⟨shiftR r.n, shiftR r.a, shiftR r.b⟩

def Row.sub (r r' : Row) : Row := ⟨r.n - r'.n, r.a - r'.a, r.b - r'.b⟩

def halveWhileEven (x y : ℤ) : ℕ → Row → Option Row
  | 0, _ => none
  | turns + 1, r => if Even r.n then halveWhileEven x y turns (halve x y r) else some r

def egcdLoop (x y : ℤ) : ℕ → Row → Row → Option Row
  | 0, _, _ => none
  | turns + 1, u, gcd =>
    if u.n = 0 then some gcd
    else do
      let u ← halveWhileEven x y turns u
      let gcd ← halveWhileEven x y turns gcd
      if gcd.n ≤ u.n then egcdLoop x y turns (u.sub gcd) gcd else egcdLoop x y turns u (gcd.sub u)

def shiftWhileEven : ℕ → ℕ → ℤ → ℤ → Option (ℕ × ℤ × ℤ)
  | 0, _, _, _ => none
  | turns + 1, k, x, y =>
    if Even x ∧ Even y then shiftWhileEven turns (k + 1) (shiftR x) (shiftR y) else some (k, x, y)

def mpiEgcd (turns : ℕ) (x y : ℤ) : Option Row :=
  if y = 0 then some ⟨x, 1, 0⟩
  else do
    let (k, x, y) ← shiftWhileEven turns 0 x y
    let gcd ← egcdLoop x y turns ⟨x, 1, 0⟩ ⟨y, 0, 1⟩
    some ⟨gcd.n * 2 ^ k, gcd.a, gcd.b⟩

/-- `TEE_BigIntComputeExtendedGcd` with the numbers stored in `gcd`, `u` and `v`, both given. -/
def computeExtendedGcd (turns : ℕ) (op1 op2 : Mpi) : Option Row :=
  if op1.abs = op2.abs then some ⟨op1.abs, 1 * op1.s, 0 * op2.s⟩
  else if op2.abs < op1.abs then do
    let r ← mpiEgcd turns op1.abs op2.abs
    some ⟨r.n, r.a * op1.s, r.b * op2.s⟩
  else do
    let r ← mpiEgcd turns op2.abs op1.abs
    some ⟨r.n, r.b * op1.s, r.a * op2.s⟩

variable {x y : ℤ} {r u g : Row} (turns : ℕ)

lemma two_mul_shiftR {n : ℤ} (h : Even n) : 2 * shiftR n = n := Int.mul_tdiv_cancel' h.two_dvd

def Row.Of (r : Row) (x y : ℤ) : Prop := r.a * x + r.b * y = r.n

lemma Row.Of.sub (hu : u.Of x y) (hg : g.Of x y) : (u.sub g).Of x y := by
  unfold Row.Of Row.sub at *
  linear_combination hu - hg

/-- With `x` and `y` not both even, adding `y` and subtracting `x` makes both coefficients even. -/
lemma Row.Of.halve (hr : r.Of x y) (hxy : ¬(Even x ∧ Even y)) (hn : Even r.n) : (halve x y r).Of x y := by
  have hparity : Even (r.a * x + r.b * y) := by rwa [hr]
  have hhalf := two_mul_shiftR hn
  rw [Int.even_add, Int.even_mul, Int.even_mul] at hparity
  unfold BigInt.halve Row.Of at *
  split
  next hodd =>
    have ha := two_mul_shiftR (n := r.a + y) (by rw [Int.even_add]; tauto)
    have hb := two_mul_shiftR (n := r.b - x) (by rw [Int.even_sub]; tauto)
    dsimp only
    have htwice : 2 * (shiftR (r.a + y) * x + shiftR (r.b - x) * y) = 2 * shiftR r.n := by
      linear_combination x * ha + y * hb + hr - hhalf
    exact mul_left_cancel₀ two_ne_zero htwice
  next heven =>
    rw [not_or, not_not, not_not] at heven
    have htwice : 2 * (shiftR r.a * x + shiftR r.b * y) = 2 * shiftR r.n := by
      linear_combination x * two_mul_shiftR heven.1 + y * two_mul_shiftR heven.2 + hr - hhalf
    exact mul_left_cancel₀ two_ne_zero htwice

@[simp] lemma halve_n : (halve x y r).n = shiftR r.n := by
  rw [halve]
  split <;> rfl

lemma halveWhileEven_spec (hxy : ¬(Even x ∧ Even y)) (hr : r.Of x y) (hpos : 0 < r.n) (hturns : r.n < turns) :
    ∃ r', halveWhileEven x y turns r = some r' ∧ r'.Of x y ∧ 0 < r'.n ∧ r'.n ∣ r.n := by
  induction turns generalizing r with
  | zero => omega
  | succ turns ih =>
    rw [halveWhileEven]
    split
    next hn =>
      have hhalf := two_mul_shiftR hn
      obtain ⟨r', hrun, hof, hpos', hdvd⟩ := ih (hr.halve hxy hn) (by rw [halve_n]; omega) (by rw [halve_n]; omega)
      rw [halve_n] at hdvd
      exact ⟨r', hrun, hof, hpos', hdvd.trans ⟨2, by omega⟩⟩
    next => exact ⟨r, rfl, hr, hpos, dvd_rfl⟩

/-- What divides `u` and `gcd` divides `x` and `y`, so at the end `gcd` does. -/
lemma egcdLoop_spec (hxy : ¬(Even x ∧ Even y)) (hu : u.Of x y) (hg : g.Of x y) (hu0 : 0 ≤ u.n) (hg0 : 0 < g.n)
    (hdvd : ∀ t, t ∣ u.n → t ∣ g.n → t ∣ x ∧ t ∣ y) (hturns : u.n + g.n < turns) :
    ∃ r, egcdLoop x y turns u g = some r ∧ r.Of x y ∧ 0 < r.n ∧ r.n ∣ x ∧ r.n ∣ y := by
  induction turns generalizing u g with
  | zero => omega
  | succ turns ih =>
    rw [egcdLoop]
    split
    next hzero => exact ⟨g, rfl, hg, hg0, hdvd g.n (hzero ▸ dvd_zero _) dvd_rfl⟩
    next hne =>
      obtain ⟨u', hurun, hu', hupos, hudvd⟩ := halveWhileEven_spec turns hxy hu (by omega) (by omega)
      obtain ⟨g', hgrun, hg', hgpos, hgdvd⟩ := halveWhileEven_spec turns hxy hg hg0 (by omega)
      have hule := Int.le_of_dvd (by omega) hudvd
      have hgle := Int.le_of_dvd hg0 hgdvd
      rw [hurun, hgrun]
      simp only [Option.bind_eq_bind, Option.bind_some]
      split
      next hle =>
        refine ih (hu'.sub hg') hg' (sub_nonneg.mpr hle) hgpos (fun t htu htg => ?_) (by dsimp only [Row.sub]; omega)
        exact hdvd t (((dvd_sub_left htg).mp htu).trans hudvd) (htg.trans hgdvd)
      next hlt =>
        refine ih hu' (hg'.sub hu') hupos.le (sub_pos.mpr (not_le.mp hlt)) (fun t htu htg => ?_)
          (by dsimp only [Row.sub]; omega)
        exact hdvd t (htu.trans hudvd) (((dvd_sub_left htu).mp htg).trans hgdvd)

lemma shiftWhileEven_spec (k : ℕ) (hx : 0 ≤ x) (hy : 0 < y) (hturns : y < turns) :
    ∃ i x' y', shiftWhileEven turns k x y = some (k + i, x', y') ∧ x = x' * 2 ^ i ∧ y = y' * 2 ^ i ∧
      0 ≤ x' ∧ 0 < y' ∧ x' ≤ x ∧ y' ≤ y ∧ ¬(Even x' ∧ Even y') := by
  induction turns generalizing k x y with
  | zero => omega
  | succ turns ih =>
    rw [shiftWhileEven]
    split
    next heven =>
      have hx2 := two_mul_shiftR heven.1
      have hy2 := two_mul_shiftR heven.2
      obtain ⟨i, x', y', hrun, hxi, hyi, hx', hy', hxle, hyle, hodd⟩ :=
        ih (k + 1) (x := shiftR x) (y := shiftR y) (by omega) (by omega) (by omega)
      refine ⟨i + 1, x', y', by rw [hrun, add_assoc, add_comm 1 i], ?_, ?_, hx', hy', by omega, by omega, hodd⟩
      · rw [← hx2, hxi]
        ring
      · rw [← hy2, hyi]
        ring
    next hodd => exact ⟨0, x, y, rfl, by ring, by ring, hx, hy, le_rfl, le_rfl, hodd⟩

lemma mpiEgcd_spec (hx : 0 ≤ x) (hy : 0 ≤ y) (hturns : x + y < turns) :
    ∃ r, mpiEgcd turns x y = some r ∧ r.Of x y ∧ r.n = Int.gcd x y := by
  rw [mpiEgcd]
  split
  next hzero =>
    refine ⟨_, rfl, by simp [Row.Of], ?_⟩
    rw [hzero, Int.gcd_zero_right, Int.natAbs_of_nonneg hx]
  next hne =>
    obtain ⟨k, x', y', hshift, rfl, rfl, hx', hy', hxle, hyle, hodd⟩ :=
      shiftWhileEven_spec turns 0 hx (y := y) (by omega) (by omega)
    obtain ⟨r, hrun, hof, hpos, hdvdx, hdvdy⟩ := egcdLoop_spec turns (u := ⟨x', 1, 0⟩) (g := ⟨y', 0, 1⟩) hodd
      (by simp [Row.Of]) (by simp [Row.Of]) hx' hy' (fun t htx hty => ⟨htx, hty⟩) (by dsimp only; omega)
    rw [hshift]
    simp only [Option.bind_eq_bind, Option.bind_some, hrun, zero_add]
    have hcomb : r.a * (x' * 2 ^ k) + r.b * (y' * 2 ^ k) = r.n * 2 ^ k := by
      unfold Row.Of at hof
      linear_combination 2 ^ k * hof
    have hnonneg : 0 ≤ r.n * 2 ^ k := Int.mul_nonneg hpos.le (Int.pow_nonneg zero_le_two)
    refine ⟨_, rfl, hcomb, Int.dvd_antisymm hnonneg (Int.natCast_nonneg _) ?_ ?_⟩
    · exact Int.dvd_coe_gcd (mul_dvd_mul_right hdvdx _) (mul_dvd_mul_right hdvdy _)
    · rw [← hcomb]
      exact dvd_add ((Int.gcd_dvd_left ..).mul_left _) ((Int.gcd_dvd_right ..).mul_left _)

lemma units_mul_value (m : Mpi) (c : ℤ) : c * m.s * m.value = c * m.abs := by
  obtain h | h := Int.units_eq_one_or m.s <;> simp [Mpi.value, h]

lemma gcd_value (op1 op2 : Mpi) : Int.gcd op1.value op2.value = Nat.gcd op1.abs op2.abs := by
  simp [Mpi.value, Int.gcd, Int.natAbs_mul, Int.natAbs_of_isUnit]

theorem extended_gcd (op1 op2 : Mpi) :
    ∃ bound, ∀ turns ≥ bound, ∃ u v, computeExtendedGcd turns op1 op2 = some ⟨Int.gcd op1.value op2.value, u, v⟩ ∧
      u * op1.value + v * op2.value = Int.gcd op1.value op2.value := by
  refine ⟨op1.abs + op2.abs + 1, fun turns hturns => ?_⟩
  rw [computeExtendedGcd, gcd_value]
  split
  next heq =>
    refine ⟨1 * op1.s, 0 * op2.s, by rw [← heq, Nat.gcd_self], ?_⟩
    rw [units_mul_value, ← heq, Nat.gcd_self]
    ring
  next =>
    split
    next =>
      obtain ⟨r, hrun, hof, hn⟩ :=
        mpiEgcd_spec turns (x := op1.abs) (y := op2.abs) (by omega) (by omega) (by omega)
      rw [hrun, ← Int.gcd_natCast_natCast, ← hn]
      refine ⟨r.a * op1.s, r.b * op2.s, rfl, ?_⟩
      rw [units_mul_value, units_mul_value, hof]
    next =>
      obtain ⟨r, hrun, hof, hn⟩ :=
        mpiEgcd_spec turns (x := op2.abs) (y := op1.abs) (by omega) (by omega) (by omega)
      rw [hrun, Nat.gcd_comm, ← Int.gcd_natCast_natCast, ← hn]
      refine ⟨r.b * op1.s, r.a * op2.s, rfl, ?_⟩
      rw [units_mul_value, units_mul_value, add_comm, hof]

end Optee.BigInt
