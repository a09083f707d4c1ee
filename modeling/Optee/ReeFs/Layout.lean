import Optee.FsHtree.Images

/-! Where the REE file system puts heads, nodes and blocks in the host file. -/

namespace Optee.ReeFs

open FsHtree

def blockShift : ℕ := 12
def blockSize : ℕ := 2 ^ blockShift

lemma blockSize_eq : blockSize = 4096 := rfl

def roundup (n : ℕ) : ℕ := (n + blockSize - 1) % 2 ^ 64 / blockSize * blockSize

variable {num offs idx w : ℕ} {v : Bool} {s : Slot}

lemma lt_roundup_iff {n : ℕ} (hn : n ≤ 2 ^ 31) : num * blockSize < roundup n ↔ num * blockSize < n := by
  simp only [roundup, blockSize_eq]
  omega

lemma roundup_div {n : ℕ} (hn : n < 2 ^ 63) : roundup n / blockSize = (n + 4095) / 4096 := by
  simp only [roundup, blockSize_eq]
  omega

lemma stop_head (v : Bool) : (Slot.head v).stop blockSize = 68 * v.toNat + 68 := rfl

lemma stop_node (idx : ℕ) (v : Bool) :
    (Slot.node idx v).stop blockSize = (1 + idx / 31 * 31 * 2) * 4096 + 132 * (idx % 31) + 66 * v.toNat + 66 := rfl

lemma stop_block (idx : ℕ) (v : Bool) : (Slot.block idx v).stop blockSize =
    (2 + (2 * idx + v.toNat) + (2 * idx + v.toNat) / 61) * 4096 + 4096 := rfl

def Slot.Occupies (s : Slot) (offs : ℕ) : Prop :=
  (getOffsSize blockSize s).1 ≤ offs ∧ offs < s.stop blockSize

lemma occupies_head : Slot.Occupies (.head v) offs ↔ 68 * v.toNat ≤ offs ∧ offs < 68 * v.toNat + 68 := Iff.rfl

lemma occupies_node : Slot.Occupies (.node idx v) offs ↔
    (1 + idx / 31 * 31 * 2) * 4096 + 132 * (idx % 31) + 66 * v.toNat ≤ offs ∧
      offs < (1 + idx / 31 * 31 * 2) * 4096 + 132 * (idx % 31) + 66 * v.toNat + 66 := Iff.rfl

lemma occupies_block : Slot.Occupies (.block idx v) offs ↔
    (2 + (2 * idx + v.toNat) + (2 * idx + v.toNat) / 61) * 4096 ≤ offs ∧
      offs < (2 + (2 * idx + v.toNat) + (2 * idx + v.toNat) / 61) * 4096 + 4096 := Iff.rfl

lemma toNat_inj {u : Bool} (h : u.toNat = v.toNat) : u = v := by
  cases u <;> cases v <;> simp_all

theorem slot_disjoint {t : Slot} (hs : Slot.Occupies s offs) (ht : Slot.Occupies t offs) : s = t := by
  cases s with
  | head u =>
    rw [occupies_head] at hs
    have hu := u.toNat_le
    cases t with
    | head v =>
      rw [occupies_head] at ht
      rw [toNat_inj (u := u) (v := v) (by omega)]
    | node j v => rw [occupies_node] at ht; omega
    | block j v => rw [occupies_block] at ht; omega
  | node i u =>
    rw [occupies_node] at hs
    have hu := u.toNat_le
    cases t with
    | head v => rw [occupies_head] at ht; have := v.toNat_le; omega
    | node j v =>
      rw [occupies_node] at ht
      have hv := v.toNat_le
      have hq : i / 31 = j / 31 := by omega
      rw [toNat_inj (u := u) (v := v) (by omega)]
      congr 1
      omega
    | block j v =>
      rw [occupies_block] at ht
      have h1 : offs / 4096 = 1 + i / 31 * 31 * 2 := by omega
      omega
  | block i u =>
    rw [occupies_block] at hs
    have hu := u.toNat_le
    cases t with
    | head v => rw [occupies_head] at ht; have := v.toNat_le; omega
    | node j v =>
      rw [occupies_node] at ht
      have hv := v.toNat_le
      have h2 : offs / 4096 = 1 + j / 31 * 31 * 2 := by omega
      omega
    | block j v =>
      rw [occupies_block] at ht
      have hv := v.toNat_le
      rw [toNat_inj (u := u) (v := v) (by omega)]
      congr 1
      omega

def offsSize (w : ℕ) : Slot → ℕ × ℕ
  | .head vers => (headSize * vers.toNat % 2 ^ w, headSize)
  | .node idx vers =>
    let blockNodes := blockSize / (nodeSize * 2)
    let pbn := (1 + idx / blockNodes * blockNodes * 2 % 2 ^ w) % 2 ^ w
    (((pbn * blockSize % 2 ^ w + 2 * nodeSize * (idx % blockNodes) % 2 ^ w) % 2 ^ w + nodeSize * vers.toNat % 2 ^ w) % 2 ^ w,
      nodeSize)
  | .block idx vers =>
    let blockNodes := blockSize / (nodeSize * 2)
    let bidx := (2 * idx % 2 ^ w + vers.toNat) % 2 ^ w
    let pbn := ((2 + bidx) % 2 ^ w + bidx / (blockNodes * 2 - 1)) % 2 ^ w
    (pbn * blockSize % 2 ^ w, blockSize)

lemma offsSize_eq (h : (getOffsSize blockSize s).1 < 2 ^ w) : offsSize w s = getOffsSize blockSize s := by
  cases s with
  | head v => exact congrArg (·, headSize) (Nat.mod_eq_of_lt h)
  | node idx v =>
    have hexact : (1 + idx / 31 * 31 * 2) * 4096 + 132 * (idx % 31) + 66 * v.toNat < 2 ^ w := h
    change ((((1 + idx / 31 * 31 * 2 % 2 ^ w) % 2 ^ w * 4096 % 2 ^ w + 132 * (idx % 31) % 2 ^ w) % 2 ^ w +
      66 * v.toNat % 2 ^ w) % 2 ^ w, 66) = ((1 + idx / 31 * 31 * 2) * 4096 + 132 * (idx % 31) + 66 * v.toNat, 66)
    have hpbn : (1 + idx / 31 * 31 * 2 % 2 ^ w) % 2 ^ w = 1 + idx / 31 * 31 * 2 := by
      rw [Nat.mod_eq_of_lt (a := idx / 31 * 31 * 2) (by omega), Nat.mod_eq_of_lt (by omega)]
    rw [hpbn]
    generalize (1 + idx / 31 * 31 * 2) * 4096 = a at hexact ⊢
    simp (disch := omega) only [Nat.mod_eq_of_lt]
  | block idx v =>
    have hexact : (2 + (2 * idx + v.toNat) + (2 * idx + v.toNat) / 61) * 4096 < 2 ^ w := h
    change (((2 + (2 * idx % 2 ^ w + v.toNat) % 2 ^ w) % 2 ^ w + (2 * idx % 2 ^ w + v.toNat) % 2 ^ w / 61) % 2 ^ w * 4096 %
      2 ^ w, 4096) = ((2 + (2 * idx + v.toNat) + (2 * idx + v.toNat) / 61) * 4096, 4096)
    simp (disch := omega) only [Nat.mod_eq_of_lt]

def truncateAt (num : ℕ) : ℕ := (Slot.block num true).stop blockSize

lemma stop_block_le (h : idx ≤ num) (v : Bool) : (Slot.block idx v).stop blockSize ≤ truncateAt num := by
  have := v.toNat_le
  rw [truncateAt, stop_block, stop_block, Bool.toNat_true]
  omega

lemma stop_node_le (h : idx ≤ num + 1) (v : Bool) : (Slot.node idx v).stop blockSize ≤ truncateAt num := by
  have := v.toNat_le
  rw [truncateAt, stop_block, stop_node, Bool.toNat_true]
  omega

def rpcLength (w newLen : ℕ) : ℕ :=
  let r := offsSize w (.block (roundup newLen / blockSize) true)
  (r.1 + r.2) % 2 ^ w

lemma rpcLength_eq {newLen : ℕ} (hlen : newLen < 2 ^ 63) (hcut : truncateAt ((newLen + 4095) / 4096) < 2 ^ w) :
    rpcLength w newLen = truncateAt ((newLen + 4095) / 4096) := by
  have hoffs : (getOffsSize blockSize (.block ((newLen + 4095) / 4096) true)).1 < 2 ^ w :=
    Nat.lt_of_le_of_lt (Nat.le_add_right _ _) hcut
  rw [rpcLength, roundup_div hlen, offsSize_eq hoffs]
  exact Nat.mod_eq_of_lt hcut

lemma offsSize_stop (h : s.stop blockSize < 2 ^ w) : (offsSize w s).1 + (offsSize w s).2 = s.stop blockSize := by
  rw [offsSize_eq (Nat.lt_of_le_of_lt (Nat.le_add_right _ _) h)]
  rfl

lemma stop_head_le (num : ℕ) (v : Bool) : (Slot.head v).stop blockSize ≤ truncateAt num := by
  have := v.toNat_le
  rw [truncateAt, stop_block, stop_head]
  omega

end Optee.ReeFs
