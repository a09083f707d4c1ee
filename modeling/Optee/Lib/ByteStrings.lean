import Mathlib.Data.List.GetD
import Mathlib.Data.Vector.Basic
import Mathlib.Tactic.Linarith

/-! Fixed-width byte strings, little-endian numbers and byte arrays with zero fill. -/

namespace Optee.Lib.ByteStrings

open List

abbrev Bytes (n : ℕ) := List.Vector UInt8 n

def zeroBytes (n : ℕ) : Bytes n := List.Vector.replicate n 0

def leBytes : ℕ → ℕ → List UInt8
  | 0, _ => []
  | w + 1, n => UInt8.ofNat (n % 256) :: leBytes w (n / 256)

def leNat : List UInt8 → ℕ
  | [] => 0
  | b :: bs => b.toNat + 256 * leNat bs

@[simp] lemma leBytes_length (w n : ℕ) : (leBytes w n).length = w := by
  induction w generalizing n with
  | zero => rfl
  | succ w ih => simp [leBytes, ih]

lemma leNat_leBytes (w n : ℕ) : leNat (leBytes w n) = n % 256 ^ w := by
  induction w generalizing n with
  | zero => simp [leBytes, leNat, Nat.mod_one]
  | succ w ih =>
    have hb : (UInt8.ofNat (n % 256)).toNat = n % 256 := by simp
    rw [leBytes, leNat, ih, hb, pow_succ', Nat.mod_mul]

variable {n pos : ℕ} {xs pre : List UInt8}

lemma leBytes_injective {w m : ℕ} (hm : m < 256 ^ w) (hn : n < 256 ^ w) (h : leBytes w m = leBytes w n) : m = n := by
  have hh := congrArg leNat h
  rwa [leNat_leBytes, leNat_leBytes, Nat.mod_eq_of_lt hm, Nat.mod_eq_of_lt hn] at hh

def extend (F : List UInt8) (n : ℕ) : List UInt8 := F ++ List.replicate (n - F.length) 0

def resize (F : List UInt8) (n : ℕ) : List UInt8 := (extend F n).take n

def patch (F : List UInt8) (pos : ℕ) (b : List UInt8) : List UInt8 :=
  (extend F (pos + b.length)).take pos ++ b ++ F.drop (pos + b.length)

def slice (F : List UInt8) (pos len : ℕ) : List UInt8 := (F.drop pos).take len

section

variable (xs F : List UInt8) (n pos : ℕ) (b : List UInt8) (len i : ℕ)

@[simp] lemma extend_length : (extend F n).length = max F.length n := by
  simp [extend]; omega

@[simp] lemma resize_length : (resize F n).length = n := by
  simp [resize]

@[simp] lemma patch_length : (patch F pos b).length = max F.length (pos + b.length) := by
  simp [patch]; omega

@[simp] lemma slice_length : (slice F pos len).length = min len (F.length - pos) := by
  simp [slice]

lemma getD_append (ys : List UInt8) :
    (xs ++ ys).getD i 0 = if i < xs.length then xs.getD i 0 else ys.getD (i - xs.length) 0 := by
  split_ifs with h
  · exact List.getD_append _ _ _ _ h
  · exact getD_append_right _ _ _ _ (by omega)

lemma getD_replicate : (List.replicate n (0 : UInt8)).getD i 0 = 0 := by
  simp [getD_eq_getElem?_getD, getElem?_replicate]
  split_ifs <;> rfl

lemma getD_take : (xs.take n).getD i 0 = if i < n then xs.getD i 0 else 0 := by
  simp only [getD_eq_getElem?_getD, getElem?_take]
  split_ifs <;> rfl

lemma getD_drop : (xs.drop n).getD i 0 = xs.getD (n + i) 0 := by
  simp [getD_eq_getElem?_getD, getElem?_drop]

variable {xs i} in
lemma getD_of_length_le (h : xs.length ≤ i) : xs.getD i 0 = 0 :=
  getD_eq_default _ _ h

@[simp] lemma getD_extend : (extend F n).getD i 0 = F.getD i 0 := by
  rw [extend, getD_append]
  split_ifs with h
  · rfl
  · rw [getD_replicate, getD_of_length_le (by omega)]

lemma getD_resize : (resize F n).getD i 0 = if i < n then F.getD i 0 else 0 := by
  rw [resize, getD_take, getD_extend]

lemma getD_patch : (patch F pos b).getD i 0 =
      if i < pos then F.getD i 0 else if i < pos + b.length then b.getD (i - pos) 0
      else F.getD i 0 := by
  have hl : ((extend F (pos + b.length)).take pos).length = pos := by simp
  rw [patch, append_assoc, getD_append, getD_append, getD_take, getD_drop, getD_extend, hl]
  split_ifs with h1 h2 h3
  · rfl
  · rfl
  · omega
  · omega
  · congr 1; omega

lemma getD_slice : (slice F pos len).getD i 0 = if i < len then F.getD (pos + i) 0 else 0 := by
  rw [slice, getD_take, getD_drop]

end

lemma ext_getD {ys : List UInt8} (hl : xs.length = ys.length) (h : ∀ i, i < xs.length → xs.getD i 0 = ys.getD i 0) :
    xs = ys := by
  apply ext_getElem hl
  intro i hx hy
  have := h i hx
  rwa [getD_eq_getElem _ _ hx, getD_eq_getElem _ _ hy] at this

lemma patch_patch (F : List UInt8) (pos : ℕ) (a b : List UInt8) :
    patch (patch F pos a) (pos + a.length) b = patch F pos (a ++ b) := by
  apply ext_getD
  · simp only [patch_length, length_append]
    omega
  · intro i _
    simp only [getD_patch, getD_append, length_append]
    split_ifs <;> first | rfl | omega | (congr 1; omega)

lemma patch_length_self (F b : List UInt8) : patch F F.length b = F ++ b := by
  apply ext_getD
  · simp only [patch_length, length_append]
    omega
  · intro i _
    simp only [getD_patch, getD_append]
    split_ifs with h1 h2
    · rfl
    · rfl
    · rw [getD_of_length_le (by omega), getD_of_length_le (by omega)]

lemma patch_append (h : pre.length = pos) (old b : List UInt8) :
    patch (pre ++ old) pos b = pre ++ (b ++ old.drop b.length) := by
  subst h
  simp [patch, extend, append_assoc, drop_append]

lemma resize_append (h : pre.length = pos) (old : List UInt8) (n : ℕ) :
    resize (pre ++ old) (pos + n) = pre ++ resize old n := by
  subst h
  have hlen : pre.length + n - (pre.length + old.length) = n - old.length := by omega
  simp [resize, extend, append_assoc, take_append, hlen]

lemma slice_append_slice {F : List UInt8} {m : ℕ} (h : pos + n ≤ F.length) :
    slice F pos n ++ slice F (pos + n) m = slice F pos (n + m) := by
  have hl : (slice F pos n).length = n := by simp only [slice_length]; omega
  apply ext_getD
  · simp only [slice_length, length_append]
    omega
  · intro i _
    rw [getD_append, hl]
    simp only [getD_slice]
    split_ifs <;> first | rfl | omega | (congr 1; omega)

lemma slice_mid {x post : List UInt8} (hpre : pre.length = pos) (hx : x.length = n) :
    slice (pre ++ (x ++ post)) pos n = x := by
  subst hpre hx
  simp [slice]

end Optee.Lib.ByteStrings
