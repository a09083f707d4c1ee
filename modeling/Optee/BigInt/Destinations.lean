import Mathlib.Data.Int.Notation
import Mathlib.Data.List.Basic
import Mathlib.Tactic.Common

/-! Results of big integer functions, as they are stored in their destinations. -/

namespace Optee.BigInt

open List

structure Number where
  s : ℤ
  p : List UInt32

structure Written where
  nblimbs : ℕ
  sign : ℤ
  limbs : List UInt32
  deriving DecidableEq

def significant (p : List UInt32) : ℕ := (p.reverse.dropWhile (· = 0)).length

/-- `none` is `TEE_ERROR_OVERFLOW`. -/
def copyMpiToBigint (mpi : Number) (allocSize : ℕ) : Option Written :=
  let n := significant mpi.p
  if allocSize < n then none else some ⟨n, mpi.s, mpi.p⟩

inductive Outcome
  | success
  | overflow
  | panic
  deriving DecidableEq

/-- A number that mbedtls computed, unless it failed, and the limbs its destination has room for. -/
structure Store where
  result : Option Number
  allocSize : ℕ

abbrev Effect := List (ℕ × Written) × Outcome

def checked : List Store → Effect
  | [] => ([], .success)
  | ⟨result, allocSize⟩ :: stores =>
    match result.bind (copyMpiToBigint · allocSize) with
    | none => ([], .panic)
    | some w => ((allocSize, w) :: (checked stores).1, (checked stores).2)

def limb : List UInt8 → UInt32 := foldl (fun n b => n * 256 + b.toUInt32) 0

/-- `mbedtls_mpi_lset` gives even the empty string a limb. -/
def mpiReadBinary (buffer : List UInt8) : Option Number :=
  let limbs := (buffer.length + 3) / 4
  let bytes := replicate (4 * limbs - buffer.length) 0 ++ buffer
  if 10000 < limbs then none
  else some ⟨1, (range (max 1 limbs)).map fun i => limb ((bytes.reverse.drop (4 * i)).take 4).reverse⟩

inductive Call
  | convertFromOctetString (buffer : List UInt8) (sign : ℤ) (dest : ℕ)
  -- `ConvertFromS32`, `ShiftRight`, `Add`, `Sub`, `Neg`, `ConvertFromFMM`, `ComputeFMM`
  | single (dest : Store)
  -- `Mod`, `AddMod`, `SubMod`, `MulMod`, `InvMod` check their operands first
  | guarded (refused : Bool) (dest : Store)
  | mul (tmp dest : Store)
  | div (q r : Option Store)
  | extendedGcd (coefficients : Option (Store × Store)) (gcd : Store)

def Call.stores : Call → List Store
  | convertFromOctetString buffer sign dest =>
    [⟨(mpiReadBinary buffer).map fun m => if sign < 0 then { m with s := -1 } else m, dest⟩]
  | single dest => [dest]
  | guarded refused dest => if refused then [] else [dest]
  | mul tmp dest => [tmp, dest]
  | div q r => q.toList ++ r.toList
  | extendedGcd none gcd => [gcd]
  | extendedGcd (some (u, v)) gcd => [u, v, gcd]

def Call.run (c : Call) : Effect :=
  match c with
  | convertFromOctetString .. =>
    match checked c.stores with
    | (ws, .panic) => (ws, .overflow)
    | effect => effect
  | guarded true _ => ([], .panic)
  | _ => checked c.stores

def Store.fits (s : Store) : Prop := ∃ m, s.result = some m ∧ significant m.p ≤ s.allocSize

/-- A store stays inside its destination; where one does not fit nothing is written and the call says so. -/
structure Inside (c : Call) : Prop where
  room : ∀ w ∈ c.run.1, w.2.limbs.length ≤ w.1
  refused : ∀ s ∈ c.stores, ¬s.fits → c.run.2 ≠ .success
  significant : ∀ w ∈ c.run.1, significant w.2.limbs ≤ w.1

def reached (stores : List Store) : List (ℕ × Number) :=
  match stores with
  | [] => []
  | s :: stores =>
    match s.result with
    | none => []
    | some m => if s.allocSize < significant m.p then [] else (s.allocSize, m) :: reached stores

variable {stores : List Store}

lemma checked_fst : (checked stores).1 = (reached stores).map fun x => (x.1, ⟨significant x.2.p, x.2.s, x.2.p⟩) := by
  induction stores with
  | nil => rfl
  | cons s stores ih =>
    obtain ⟨_ | m, allocSize⟩ := s
    · rfl
    rw [checked, reached, Option.bind_some, copyMpiToBigint]
    by_cases hlt : allocSize < significant m.p
    · simp [hlt]
    · simp [hlt, ih]

lemma checked_success (h : (checked stores).2 = .success) : ∀ s ∈ stores, s.fits := by
  induction stores with
  | nil => nofun
  | cons s stores ih =>
    obtain ⟨_ | m, allocSize⟩ := s
    · cases h
    rw [checked, Option.bind_some, copyMpiToBigint] at h
    by_cases hlt : allocSize < significant m.p
    · simp [hlt] at h
    · rw [forall_mem_cons]
      refine ⟨⟨m, rfl, Nat.not_lt.mp hlt⟩, ih ?_⟩
      simpa [hlt] using h

lemma reached_fits {x : ℕ × Number} (h : x ∈ reached stores) : significant x.2.p ≤ x.1 := by
  induction stores with
  | nil => cases h
  | cons s stores ih =>
    obtain ⟨_ | m, allocSize⟩ := s
    · cases h
    rw [reached] at h
    by_cases hlt : allocSize < significant m.p
    · simp [hlt] at h
    · obtain rfl | h := by simpa [hlt] using h
      · exact Nat.not_lt.mp hlt
      · exact ih h

lemma run_fst (c : Call) : c.run.1 = (checked c.stores).1 := by
  unfold Call.run
  split
  · split <;> simp [*]
  · rfl
  · rfl

lemma run_success {c : Call} (h : c.run.2 = .success) : (checked c.stores).2 = .success := by
  unfold Call.run at h
  split at h
  · split at h <;> simp_all
  · cases h
  · exact h

end Optee.BigInt
