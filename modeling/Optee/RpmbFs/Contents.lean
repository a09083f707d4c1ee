import Optee.RpmbFs.Table

/-! The contents of files: what reading returns and what writing makes of them. -/

namespace Optee.RpmbFs

open Lib.ByteStrings Rpmb List TeeResult

def contents (K : Crypto) (uuid : Option Uuid) (d : Device) (e : FatEntry) : TeeResult (List UInt8) := do
  let ps ← (List.range (span e.startAddress.toNat e.dataSize.toNat)).mapM (fun i =>
    plainBlock K (some e.fek) uuid d (e.firstBlock + i))
  pure (slice (ps.flatMap List.Vector.toList) (e.startAddress.toNat % 256) e.dataSize.toNat)

def Contains (K : Crypto) (fek : Option (Bytes 16)) (uuid : Option Uuid) (d : Device) (idx : ℕ) (G : List UInt8) : Prop :=
  ∃ B, Stores K fek uuid d idx ((G.length + 255) / 256) B ∧ B.take G.length = G

variable {K : Crypto} {ctx : Ctx} {φ : Faults} {d d' : Device} {fek : Option (Bytes 16)}
  {uuid : Option Uuid} {F G B b : List UInt8} {idx n pos len addr : ℕ} {e : FatEntry}

lemma flatMap_toList_length (ps : List (Bytes 256)) : (ps.flatMap List.Vector.toList).length = ps.length * 256 := by
  induction ps with
  | nil => rfl
  | cons p ps ih =>
    rw [flatMap_cons, length_append, List.Vector.toList_length, length_cons]
    omega

lemma stores_of_mapM {ps : List (Bytes 256)}
    (h : (List.range n).mapM (fun i => plainBlock K fek uuid d (idx + i)) = .ok ps) :
    Stores K fek uuid d idx n (ps.flatMap List.Vector.toList) := by
  have hall := mapM_eq_ok.mp h
  have hlen : ps.length = n := by rw [← hall.length_eq, length_range]
  refine ⟨by rw [flatMap_toList_length, hlen], fun i hi => ?_⟩
  have hip : i < ps.length := by omega
  have hget := hall.get (by simpa using hi) hip
  rw [block_flatten ps (getElem?_eq_getElem hip)]
  simpa using hget

lemma exists_mapM_of_stores (h : Stores K fek uuid d idx n B) :
    ∃ ps, (List.range n).mapM (fun i => plainBlock K fek uuid d (idx + i)) = .ok ps ∧ ps.flatMap List.Vector.toList = B := by
  obtain ⟨ps, hps⟩ := exists_mapM.mpr (fun i hi => ⟨_, h.plain i (mem_range.mp hi)⟩)
  exact ⟨ps, hps, (stores_of_mapM hps).unique h⟩

lemma contents_eq_ok (hal : e.startAddress.toNat % 256 = 0) :
    contents K uuid d e = .ok F ↔ F.length = e.dataSize.toNat ∧ Contains K (some e.fek) uuid d e.firstBlock F := by
  have hspan : span e.startAddress.toNat e.dataSize.toNat = (e.dataSize.toNat + 255) / 256 := by rw [span, hal]
  rw [contents, bind_eq_ok, hspan, hal]
  constructor
  · rintro ⟨ps, hps, hF⟩
    have hst := stores_of_mapM hps
    cases hF
    have hl : (slice (ps.flatMap List.Vector.toList) 0 e.dataSize.toNat).length = e.dataSize.toNat := by
      rw [slice_length, hst.length]
      omega
    refine ⟨hl, ps.flatMap List.Vector.toList, by rwa [hl], ?_⟩
    rw [hl, slice, drop_zero]
  · rintro ⟨hlen, B, hB, htake⟩
    rw [hlen] at hB htake
    obtain ⟨ps, hps, rfl⟩ := exists_mapM_of_stores hB
    refine ⟨ps, hps, ?_⟩
    rw [slice, drop_zero, htake]
    rfl

namespace Contains

lemma congr (h : Contains K fek uuid d idx G) (hd : ∀ b, idx ≤ b → b < idx + (G.length + 255) / 256 → d' b = d b) :
    Contains K fek uuid d' idx G := by
  obtain ⟨B, hB, htake⟩ := h
  exact ⟨B, hB.congr hd, htake⟩

lemma nil : Contains K fek uuid d idx [] := ⟨[], ⟨rfl, fun i hi => absurd hi (Nat.not_lt_zero i)⟩, rfl⟩

lemma append {H : List UInt8} (h : Contains K fek uuid d idx G) (hlen : G.length = n * 256)
    (h' : Contains K fek uuid d (idx + n) H) : Contains K fek uuid d idx (G ++ H) := by
  obtain ⟨B, hB, htake⟩ := h
  obtain ⟨C, hC, htake'⟩ := h'
  have hn : (G.length + 255) / 256 = n := by omega
  rw [hn] at hB
  have hBG : B = G := by rw [← htake, hlen, ← hB.length, take_length]
  subst hBG
  refine ⟨B ++ C, ?_, ?_⟩
  · have hsum : ((B ++ H).length + 255) / 256 = n + (H.length + 255) / 256 := by
      rw [length_append]
      omega
    rw [hsum]
    exact hB.append hC
  · rw [length_append, take_length_add_append, htake']

lemma part (h : Contains K fek uuid d idx F) (hpos : pos + len ≤ F.length) :
    ∃ B, Stores K fek uuid d (idx + pos / 256) ((len + pos % 256 + 255) / 256) B ∧
      slice B (pos % 256) len = slice F pos len := by
  obtain ⟨B, hB, htake⟩ := h
  refine ⟨_, hB.part (by omega), ?_⟩
  have hlen := hB.length
  apply ext_getD
  · simp only [slice_length, hlen]
    omega
  · intro x hx
    simp only [slice_length, hlen] at hx
    have hx' : x < len := by omega
    rw [getD_slice, if_pos hx', getD_slice, if_pos (by omega), getD_slice, if_pos hx', ← htake, getD_take, if_pos (by omega)]
    exact congrArg (B.getD · 0) (by omega)

end Contains

lemma contains_of_written {k : Bytes 16} (h : Written K (some k) uuid addr b d d') (hK : Decrypts K) (hk : k ≠ zeroBytes 16)
    (hal : addr % 256 = 0) : Contains K (some k) uuid d' (addr / 256) b := by
  obtain ⟨tmp, hlen, -, hst⟩ := h.stores hK hk
  rw [hal] at hst
  have hspan : span addr b.length = (b.length + 255) / 256 := by rw [span, hal]
  rw [hspan] at hst hlen
  refine ⟨_, hst, ?_⟩
  apply ext_getD
  · rw [length_take, patch_length]
    omega
  · intro x hx
    rw [length_take] at hx
    rw [getD_take, if_pos (by omega), getD_patch, if_neg (Nat.not_lt_zero x), if_pos (by omega), Nat.sub_zero]

lemma block_patch {tmp : List UInt8} {j : ℕ} (hj : j < (b.length + pos % 256 + 255) / 256)
    (htmp : ∀ x < (b.length + pos % 256 + 255) / 256 * 256, (x < pos % 256 ∨ pos % 256 + b.length ≤ x) →
      tmp.getD x 0 = B.getD (pos / 256 * 256 + x) 0) :
    block (patch tmp (pos % 256) b) j = block (patch B pos b) (pos / 256 + j) := by
  refine bytes_ext fun x hx => ?_
  have hy : j * 256 + x < (b.length + pos % 256 + 255) / 256 * 256 := by omega
  rw [block_getD _ hx, block_getD _ hx, getD_patch, getD_patch, Nat.add_mul, add_assoc]
  split_ifs with h1 h2 h3 h4
  · exact htmp _ hy (.inl h1)
  · omega
  · omega
  · omega
  · exact congrArg (b.getD · 0) (by omega)
  · omega
  · omega
  · omega
  · exact htmp _ hy (.inr (by omega))

lemma Contains.write {k : Bytes 16} (h : Contains K (some k) uuid d idx F)
    (hw : Written K (some k) uuid (idx * 256 + pos) b d d') (hK : Decrypts K) (hk : k ≠ zeroBytes 16)
    (hb : 0 < b.length) (hpos : pos + b.length ≤ F.length) : Contains K (some k) uuid d' idx (patch F pos b) := by
  obtain ⟨B, hB, htake⟩ := h
  obtain ⟨tmp, hlen, hold, hst⟩ := hw.stores hK hk
  have hdiv : (idx * 256 + pos) / 256 = idx + pos / 256 := by omega
  have hmod : (idx * 256 + pos) % 256 = pos % 256 := by omega
  have hspan : span (idx * 256 + pos) b.length = (b.length + pos % 256 + 255) / 256 := by rw [span, hmod]
  have hlenF : (patch F pos b).length = F.length := by rw [patch_length]; omega
  have hlenB := hB.length
  rw [hdiv, hmod, hspan] at hold hst
  have htmp : ∀ x < (b.length + pos % 256 + 255) / 256 * 256, (x < pos % 256 ∨ pos % 256 + b.length ≤ x) →
      tmp.getD x 0 = B.getD (pos / 256 * 256 + x) 0 := by
    intro x hx hout
    have hn : ¬(pos % 256 = 0 ∧ b.length % 256 = 0) := by
      omega
    rw [(hold hn).unique (hB.part (by omega)), getD_slice, if_pos hx]
  refine ⟨patch B pos b, ⟨?_, fun i hi => ?_⟩, ?_⟩
  · rw [patch_length]
    omega
  · rw [hlenF] at hi
    by_cases hin : pos / 256 ≤ i ∧ i < pos / 256 + (b.length + pos % 256 + 255) / 256
    · obtain ⟨j, rfl⟩ := Nat.exists_eq_add_of_le hin.1
      have hj : j < (b.length + pos % 256 + 255) / 256 := by omega
      rw [← add_assoc, hst.plain j hj, block_patch hj htmp]
    have hplain : plainBlock K (some k) uuid d' (idx + i) = plainBlock K (some k) uuid d (idx + i) := by
      unfold plainBlock
      rw [hw.same (by rw [hdiv]; omega)]
    rw [hplain, hB.plain i hi]
    refine congrArg Except.ok (bytes_ext fun x hx => ?_)
    rw [block_getD _ hx, block_getD _ hx, getD_patch]
    split_ifs
    · rfl
    · omega
    · rfl
  · rw [hlenF]
    apply ext_getD
    · rw [length_take, patch_length]
      omega
    · intro x hx
      rw [length_take] at hx
      rw [getD_take, if_pos (by omega), getD_patch, getD_patch]
      split_ifs
      · rw [← htake, getD_take, if_pos (by omega)]
      · rfl
      · rw [← htake, getD_take, if_pos (by omega)]

def kept (F : List UInt8) (pos : ℕ) : List UInt8 :=
  extend (F.take ((pos + tmpBlockSize - 1) / tmpBlockSize * tmpBlockSize)) F.length

def rewritten (F : List UInt8) (pos : ℕ) (b : List UInt8) : List UInt8 := patch (kept F pos) pos b

lemma rewritten_length (F : List UInt8) (pos : ℕ) (b : List UInt8) :
    (rewritten F pos b).length = max (pos + b.length) F.length := by
  rw [rewritten, patch_length, kept, extend_length, length_take]
  omega

lemma getD_rewritten (F : List UInt8) (pos : ℕ) (b : List UInt8) (x : ℕ) : (rewritten F pos b).getD x 0 =
    if pos ≤ x ∧ x < pos + b.length then b.getD (x - pos) 0 else if x / tmpBlockSize * tmpBlockSize < pos then F.getD x 0 else 0 := by
  rw [rewritten, getD_patch, kept, getD_extend, getD_take]
  unfold tmpBlockSize
  split_ifs <;> first | rfl | omega

section Update

variable {size off old : ℕ} {F b : List UInt8}

def oldBlock (F : List UInt8) (pos off blkSize : ℕ) : List UInt8 :=
  if off < pos ∧ off < F.length then slice F off (min blkSize (F.length - off)) else []

variable {blkSize i : ℕ}

lemma getD_oldBlock (F : List UInt8) {x : ℕ} (hx : x < blkSize) : (oldBlock F pos (tmpBlockSize * i) blkSize).getD x 0 =
      if tmpBlockSize * i < pos then F.getD (tmpBlockSize * i + x) 0 else 0 := by
  unfold oldBlock
  by_cases h1 : tmpBlockSize * i < pos
  · rw [if_pos h1]
    by_cases h2 : tmpBlockSize * i < F.length
    · rw [if_pos ⟨h1, h2⟩, getD_slice]
      split_ifs with h3
      · rfl
      · rw [getD_of_length_le (by omega)]
    · have hlen : F.length ≤ tmpBlockSize * i + x := by omega
      rw [if_neg (fun h => h2 h.2), getD_of_length_le hlen]
      rfl
  · rw [if_neg (fun h => h1 h.1), if_neg h1]
    rfl

lemma updateBlock_length {blkOffset : ℕ} {old rem : List UInt8} (hold : old.length ≤ blkSize) :
    (updateBlock pos size blkOffset blkSize old rem).1.length = blkSize := by
  unfold updateBlock
  split_ifs
  · rw [length_take, patch_length, extend_length]
    omega
  · rw [extend_length]
    omega

lemma updateBlock_rem {old : List UInt8} :
    (updateBlock pos b.length (tmpBlockSize * i) blkSize old (b.drop (tmpBlockSize * i - pos))).2 =
      b.drop (tmpBlockSize * (i + 1) - pos) := by
  unfold updateBlock tmpBlockSize
  split_ifs with h
  · dsimp only
    rw [drop_drop, length_drop]
    by_cases hc : 4096 - (pos - 4096 * i) ≤ b.length - (4096 * i - pos)
    · congr 1
      omega
    · have h1 : b.length ≤ 4096 * i - pos + min (4096 - (pos - 4096 * i)) (b.length - (4096 * i - pos)) := by omega
      have h2 : b.length ≤ 4096 * (i + 1) - pos := by omega
      rw [drop_eq_nil_of_le h1, drop_eq_nil_of_le h2]
  · dsimp only
    by_cases hc : 4096 * (i + 1) ≤ pos
    · congr 1
      omega
    · have h1 : b.length ≤ 4096 * i - pos := by omega
      have h2 : b.length ≤ 4096 * (i + 1) - pos := by omega
      rw [drop_eq_nil_of_le h1, drop_eq_nil_of_le h2]

lemma updateBlock_buf (hsize : blkSize = min tmpBlockSize (max (pos + b.length) F.length - tmpBlockSize * i)) :
    (updateBlock pos b.length (tmpBlockSize * i) blkSize (oldBlock F pos (tmpBlockSize * i) blkSize)
      (b.drop (tmpBlockSize * i - pos))).1 = slice (rewritten F pos b) (tmpBlockSize * i) blkSize := by
  have hold : (oldBlock F pos (tmpBlockSize * i) blkSize).length ≤ blkSize := by
    unfold oldBlock
    split_ifs
    · rw [slice_length]
      omega
    · exact Nat.zero_le _
  apply ext_getD
  · rw [updateBlock_length hold, slice_length, rewritten_length]
    omega
  intro x hx
  rw [updateBlock_length hold] at hx
  have hblk : x < tmpBlockSize := by omega
  have hstart : (tmpBlockSize * i + x) / tmpBlockSize * tmpBlockSize = tmpBlockSize * i := by
    rw [tmpBlockSize] at hblk ⊢
    omega
  rw [getD_slice, if_pos hx, getD_rewritten, hstart]
  have hbuf : (extend (oldBlock F pos (tmpBlockSize * i) blkSize) blkSize).getD x 0 =
      if tmpBlockSize * i < pos then F.getD (tmpBlockSize * i + x) 0 else 0 := by
    rw [getD_extend, getD_oldBlock F hx]
  rw [← hbuf]
  unfold updateBlock
  by_cases hsplice : tmpBlockSize * i + tmpBlockSize > pos ∧ tmpBlockSize * i < pos + b.length
  · rw [if_pos hsplice]
    rw [getD_take, if_pos hx, getD_patch, length_take, length_drop]
    by_cases hin : pos ≤ tmpBlockSize * i + x ∧ tmpBlockSize * i + x < pos + b.length
    · rw [if_pos hin, if_neg (by omega), if_pos (by omega), getD_take, if_pos (by omega), getD_drop]
      exact congrArg (b.getD · 0) (by omega)
    · rw [if_neg hin]
      by_cases hlow : x < pos - tmpBlockSize * i
      · rw [if_pos hlow]
      · rw [if_neg hlow, if_neg (by omega)]
  · rw [if_neg hsplice, if_neg (by omega)]

end Update

end Optee.RpmbFs
