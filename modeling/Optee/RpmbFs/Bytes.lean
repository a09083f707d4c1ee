import Optee.RpmbFs.Device

/-! Byte ranges of the device as the bytes under the encryption. -/

namespace Optee.RpmbFs

open Lib.ByteStrings Lib.Effects Rpmb TeeResult

def Decrypts (K : Crypto) : Prop :=
  ∀ uuid fek idx plain cipher, K.encryptBlock uuid fek idx plain = .ok cipher → K.decryptBlock uuid fek idx cipher = .ok plain

section Definitions

variable (K : Crypto) (fek : Option (Bytes 16)) (uuid : Option Uuid)

structure Stores (d : Device) (idx n : ℕ) (B : List UInt8) : Prop where
  length : B.length = n * 256
  plain : ∀ i < n, plainBlock K fek uuid d (idx + i) = .ok (block B i)

def span (addr len : ℕ) : ℕ := (len + addr % 256 + 255) / 256

end Definitions

variable {K : Crypto} {ctx : Ctx} {φ : Faults} {d d' : Device} {fek : Option (Bytes 16)} {uuid : Option Uuid}
  {data B C : List UInt8} {idx n addr len : ℕ} {i b : ℕ}

lemma block_getD (B : List UInt8) {x : ℕ} (hx : x < 256) : (block B i).toList.getD x 0 = B.getD (i * 256 + x) 0 := by
  change (resize (B.drop (i * 256)) 256).getD x 0 = _
  rw [getD_resize, if_pos hx, getD_drop]

lemma bytes_ext {p q : Bytes n} (h : ∀ x < n, p.toList.getD x 0 = q.toList.getD x 0) : p = q := by
  apply List.Vector.toList_injective
  exact ext_getD (by simp) (fun x hx => h x (by simpa using hx))

lemma block_flatten (ps : List (Bytes 256)) {p : Bytes 256} (hp : ps[i]? = some p) :
    block (ps.flatMap List.Vector.toList) i = p := by
  induction ps generalizing i with
  | nil => cases hp
  | cons q ps ih =>
    rw [List.flatMap_cons]
    cases i with
    | zero =>
      obtain rfl : q = p := Option.some.inj hp
      apply bytes_ext
      intro x hx
      rw [block_getD _ hx, Nat.zero_mul, zero_add, getD_append, if_pos (by simpa using hx)]
    | succ i =>
      rw [← ih hp, add_comm, ← block_drop, List.drop_left' q.toList_length]

section

variable (h : Stores K fek uuid d idx n B)
include h

lemma Stores.congr (hd : ∀ b, idx ≤ b → b < idx + n → d' b = d b) :
    Stores K fek uuid d' idx n B where
  length := h.length
  plain i hi := by
    rw [← h.plain i hi]
    unfold plainBlock
    rw [hd _ (by omega) (by omega)]

lemma Stores.part {k m : ℕ} (hkm : k + m ≤ n) :
    Stores K fek uuid d (idx + k) m (slice B (k * 256) (m * 256)) where
  length := by
    rw [slice_length, h.length]
    omega
  plain i hi := by
    rw [add_assoc, h.plain (k + i) (by omega)]
    refine congrArg Except.ok (bytes_ext fun x hx => ?_)
    rw [block_getD _ hx, block_getD _ hx, getD_slice, if_pos (by omega)]
    exact congrArg (B.getD · 0) (by omega)

lemma Stores.append {m : ℕ} (h' : Stores K fek uuid d (idx + n) m C) :
    Stores K fek uuid d idx (n + m) (B ++ C) where
  length := by
    rw [List.length_append, h.length, h'.length, Nat.add_mul]
  plain i hi := by
    by_cases hin : i < n
    · rw [h.plain i hin]
      refine congrArg Except.ok (bytes_ext fun x hx => ?_)
      rw [block_getD _ hx, block_getD _ hx, getD_append, if_pos (by rw [h.length]; omega)]
    · obtain ⟨j, rfl⟩ := Nat.exists_eq_add_of_le (Nat.le_of_not_lt hin)
      rw [← add_assoc, h'.plain j (by omega), ← block_drop, ← h.length, List.drop_left]

lemma Stores.unique (h' : Stores K fek uuid d idx n C) : B = C := by
  apply ext_getD (h.length.trans h'.length.symm)
  intro x hx
  rw [h.length] at hx
  have hi : x / 256 < n := Nat.div_lt_of_lt_mul (by rwa [mul_comm] at hx)
  have heq : block B (x / 256) = block C (x / 256) :=
    Except.ok.inj ((h.plain _ hi).symm.trans (h'.plain _ hi))
  have hb := congrArg (fun p : Bytes 256 => p.toList.getD (x % 256) 0) heq
  rw [block_getD _ (Nat.mod_lt _ (by decide)), block_getD _ (Nat.mod_lt _ (by decide)), Nat.div_add_mod'] at hb
  exact hb

end

lemma exists_stores (h : ∀ i < n, ∃ p, plainBlock K fek uuid d (idx + i) = .ok p) : ∃ B, Stores K fek uuid d idx n B := by
  induction n with
  | zero => exact ⟨[], ⟨rfl, fun i hi => absurd hi (Nat.not_lt_zero i)⟩⟩
  | succ n ih =>
    obtain ⟨B, hB⟩ := ih (fun i hi => h i (by omega))
    obtain ⟨p, hp⟩ := h n (by omega)
    refine ⟨B ++ p.toList, hB.append ⟨by simp, fun i hi => ?_⟩⟩
    obtain rfl : i = 0 := by omega
    have hb := block_flatten [p] (i := 0) rfl
    rw [List.flatMap_cons, List.flatMap_nil, List.append_nil] at hb
    rw [hb]
    exact hp

lemma decryptFrame_eq {frm : Frame} {size offset : ℕ} (h : size + offset ≤ 256) (hd : frm.data = d b) :
    decryptFrame K fek uuid frm size offset (UInt16.ofNat b) =
      (plainBlock K fek uuid d b).map (fun p => slice p.toList offset size) := by
  unfold decryptFrame plainBlock
  rw [if_neg (by rw [dataSize]; omega), hd]
  cases fek with
  | none => rfl
  | some fek =>
    dsimp only
    split_ifs
    · rfl
    · cases K.decryptBlock uuid fek (UInt16.ofNat b) (d b) <;> rfl

lemma readFrames_getLast (d : Device) (idx m : ℕ) : ∃ last, (readFrames d idx (m + 1)).getLast? = some last ∧
    last.data = d (idx + m) ∧ last.address = UInt16.ofNat idx := by
  rw [readFrames, List.range_succ, List.map_append, List.map_singleton, List.getLast?_concat]
  exact ⟨_, rfl, rfl, rfl⟩

lemma readFrames_dropLast (d : Device) (idx m : ℕ) : ∃ f : ℕ → Frame, (∀ i, (f i).data = d (idx + i)) ∧
    (readFrames d idx (m + 1)).dropLast.zipIdx = (List.range m).map (fun i => (f i, i)) := by
  refine ⟨fun i => { Frame.zero with
      data := d (idx + i), address := UInt16.ofNat idx, blockCount := UInt16.ofNat (m + 1), msgType := respAuthDataRead },
    fun i => rfl, ?_⟩
  rw [readFrames]
  apply List.ext_getElem
  · simp
  · simp

lemma slice_block {o s : ℕ} (hos : s + o ≤ 256) (hB : (i + 1) * 256 ≤ B.length) :
    slice (block B i).toList o s = slice B (i * 256 + o) s := by
  apply ext_getD
  · simp only [slice_length, List.Vector.toList_length]
    omega
  · intro x hx
    rw [slice_length] at hx
    rw [getD_slice, getD_slice, if_pos (by omega), if_pos (by omega), block_getD _ (by omega), add_assoc]

lemma flatten_parts {m off : ℕ} (hB : (m + 1) * 256 ≤ B.length) (hoff : off < 256) :
    ((List.range (m + 1)).map (fun i => slice (block B i).toList (if i = 0 then off else 0)
      (dataSize - if i = 0 then off else 0))).flatten = slice B off ((m + 1) * 256 - off) := by
  induction m with
  | zero =>
    rw [List.range_one, List.map_singleton, if_pos rfl, dataSize,
      slice_block (by omega) (by omega)]
    simp
  | succ m ih =>
    have hm : (m + 1) * 256 ≤ B.length := Nat.le_trans (Nat.mul_le_mul_right 256 (Nat.le_succ _)) hB
    rw [List.range_succ, List.map_append, List.flatten_append, ih hm, List.map_singleton, List.flatten_singleton,
      if_neg (Nat.succ_ne_zero m), dataSize, slice_block (by omega) hB]
    have hpos : (m + 1) * 256 + 0 = off + ((m + 1) * 256 - off) := by omega
    rw [hpos, slice_append_slice (by omega)]
    congr 1
    omega

section Copy

variable {raw : RawData} {last : Frame} {m off : ℕ}

lemma dataCpyMacCalc_of_stores (hB : Stores K fek uuid d idx (m + 1) B) (hlen : raw.len.toNat = len)
    (hoff : raw.byteOffset.toNat = off) (hsum : (raw.len + raw.byteOffset.toUInt32).toNat = len + off)
    (hlo : m * 256 < len + off) (hhi : len + off ≤ (m + 1) * 256) (hlt : off < 256)
    (hlast : (readFrames d idx (m + 1)).getLast? = some last) :
    ∃ mac, dataCpyMacCalc K ctx raw (readFrames d idx (m + 1)) last fek uuid = .ok (slice B off len, mac) := by
  obtain ⟨last', hlast', hdata, haddr⟩ := readFrames_getLast d idx m
  obtain rfl : last' = last := Option.mem_unique hlast' hlast
  have hframes : (readFrames d idx (m + 1)).length = m + 1 := by simp [readFrames]
  have hblock : ∀ {i size offset : ℕ}, i < m + 1 → size + offset ≤ 256 → ∀ {frm : Frame}, frm.data = d (idx + i) →
      decryptFrame K fek uuid frm size offset (UInt16.ofNat (idx + i)) = .ok (slice (block B i).toList offset size) := by
    intro i size offset hi hsize frm hfrm
    rw [decryptFrame_eq hsize hfrm, hB.plain i hi]
    rfl
  unfold dataCpyMacCalc
  dsimp only
  rw [hlen, hoff, hframes, haddr]
  by_cases hm : m = 0
  · subst hm
    rw [if_pos rfl, if_neg (by rw [dataSize]; omega), ← add_zero idx, hblock (by omega) (by omega) hdata,
      slice_block (by omega) (by rw [hB.length])]
    exact ⟨_, by rw [Nat.zero_mul, zero_add]; rfl⟩
  · obtain ⟨f, hf, hzip⟩ := readFrames_dropLast d idx m
    have hparts : (readFrames d idx (m + 1)).dropLast.zipIdx.mapM (fun x => decryptFrame K fek uuid x.1
        (dataSize - if x.2 = 0 then off else 0) (if x.2 = 0 then off else 0) (UInt16.ofNat idx + UInt16.ofNat x.2)) =
        .ok ((List.range m).map (fun i => slice (block B i).toList (if i = 0 then off else 0)
          (dataSize - if i = 0 then off else 0))) := by
      rw [hzip, mapM_eq_ok, List.forall₂_map_left_iff, List.forall₂_map_right_iff, List.forall₂_same]
      intro i hi
      rw [← UInt16.ofNat_add]
      refine hblock (by have := List.mem_range.mp hi; omega) ?_ (hf i)
      rw [dataSize]
      split_ifs <;> omega
    rw [hparts, ok_bind, Nat.add_sub_cancel, ← UInt16.ofNat_add]
    obtain ⟨k, rfl⟩ := Nat.exists_eq_succ_of_ne_zero hm
    rw [flatten_parts (by rw [hB.length]; omega) hlt, hblock (by omega) ?_ hdata,
      slice_block ?_ (by rw [hB.length])]
    · refine ⟨_, congrArg Except.ok (congrArg (·, _) ?_)⟩
      have hpos : (k + 1) * 256 + 0 = off + ((k + 1) * 256 - off) := by omega
      rw [hpos, slice_append_slice (by rw [hB.length]; omega)]
      congr 1
      rw [dataSize]
      split_ifs <;> omega
    · rw [dataSize]
      split_ifs <;> omega
    · rw [dataSize]
      split_ifs <;> omega

lemma plain_of_decryptFrame {frm : Frame} {size offset : ℕ} {r : List UInt8} (hd : frm.data = d b)
    (h : decryptFrame K fek uuid frm size offset (UInt16.ofNat b) = .ok r) :
    ∃ p, plainBlock K fek uuid d b = .ok p := by
  by_cases hsize : size + offset ≤ 256
  · rw [decryptFrame_eq hsize hd] at h
    cases hp : plainBlock K fek uuid d b with
    | error e =>
      rw [hp] at h
      cases h
    | ok p => exact ⟨p, rfl⟩
  · unfold decryptFrame at h
    rw [if_pos (by rw [dataSize]; omega)] at h
    cases h

lemma stores_of_dataCpyMacCalc {r : List UInt8 × Bytes 32} (hlast : (readFrames d idx (m + 1)).getLast? = some last)
    (h : dataCpyMacCalc K ctx raw (readFrames d idx (m + 1)) last fek uuid = .ok r) :
    ∃ B, Stores K fek uuid d idx (m + 1) B := by
  obtain ⟨last', hlast', hdata, haddr⟩ := readFrames_getLast d idx m
  obtain rfl : last' = last := Option.mem_unique hlast' hlast
  have hframes : (readFrames d idx (m + 1)).length = m + 1 := by simp [readFrames]
  unfold dataCpyMacCalc at h
  rw [hframes, haddr] at h
  apply exists_stores
  by_cases hm : m = 0
  · subst hm
    rw [if_pos rfl] at h
    split_ifs at h
    obtain ⟨x, hx, -⟩ := bind_eq_ok.mp h
    intro i hi
    obtain rfl : i = 0 := by omega
    exact plain_of_decryptFrame hdata hx
  · rw [if_neg (by omega)] at h
    obtain ⟨parts, hparts, hrest⟩ := bind_eq_ok.mp h
    obtain ⟨tail, htail, -⟩ := bind_eq_ok.mp hrest
    obtain ⟨f, hf, hzip⟩ := readFrames_dropLast d idx m
    rw [← UInt16.ofNat_add] at htail
    intro i hi
    by_cases him : i = m
    · subst him
      exact plain_of_decryptFrame hdata htail
    rw [hzip] at hparts
    obtain ⟨x, hx⟩ := exists_mapM.mp ⟨parts, hparts⟩ (f i, i)
      (List.mem_map.mpr ⟨i, List.mem_range.mpr (by omega), rfl⟩)
    dsimp only at hx
    rw [← UInt16.ofNat_add] at hx
    exact plain_of_decryptFrame (hf i) hx

end Copy

lemma blkIdx_eq (h : addr / 256 < 2 ^ 16) : blkIdx addr = addr / 256 := Nat.mod_eq_of_lt h

lemma blkcnt_eq (h : span addr len < 2 ^ 16) : blkcnt addr len = span addr len := Nat.mod_eq_of_lt h

lemma teeRpmbRead_spec (hlen : 0 < len) (hspan : span addr len < 2 ^ 16)
    (hfit : addr / 256 + span addr len ≤ ctx.maxBlkIdx.toNat + 1) :
    Spec (At d) (teeRpmbRead K ctx φ addr len fek uuid)
      (fun data w => At d w ∧ ∃ B, Stores K fek uuid d (addr / 256) (span addr len) B ∧ data = slice B (addr % 256) len)
      (fun e _ => Struck φ e ∨ ∀ B, ¬Stores K fek uuid d (addr / 256) (span addr len) B) := by
  rintro w rfl
  have hmax := ctx.maxBlkIdx.toNat_lt
  have hspan' : span addr len = (len + addr % 256 + 255) / 256 := rfl
  have hoff : addr % 256 < 256 := Nat.mod_lt _ (by decide)
  obtain ⟨m, hm⟩ : ∃ m, span addr len = m + 1 := ⟨span addr len - 1, by omega⟩
  have hlo : m * 256 < len + addr % 256 := by omega
  have hhi : len + addr % 256 ≤ (m + 1) * 256 := by omega
  have hidx : blkIdx addr = addr / 256 := blkIdx_eq (by omega)
  have hcnt := blkcnt_eq hspan
  obtain ⟨last, hlast, -, -⟩ := readFrames_getLast w.dev (addr / 256) m
  have hcopy : ∀ (raw : RawData) r, dataCpyMacCalc K ctx raw (readFrames w.dev (addr / 256) (m + 1)) last fek uuid = r →
      raw.len = UInt32.ofNat len → raw.byteOffset = UInt8.ofNat (addr % 256) →
      ∀ B, Stores K fek uuid w.dev (addr / 256) (m + 1) B → ∃ mac, r = .ok (slice B (addr % 256) len, mac) := by
    rintro raw r rfl hrawLen hrawOff B hB
    have hlen' : (UInt32.ofNat len).toNat = len := UInt32.toNat_ofNat_of_lt' (by rw [UInt32.size]; omega)
    have hoff' : (UInt8.ofNat (addr % 256)).toNat = addr % 256 := UInt8.toNat_ofNat_of_lt' hoff
    refine dataCpyMacCalc_of_stores hB ?_ ?_ ?_ hlo hhi hoff hlast
    · rw [hrawLen, hlen']
    · rw [hrawOff, hoff']
    · rw [hrawLen, hrawOff, UInt32.toNat_add, UInt8.toNat_toUInt32, hlen', hoff', Nat.mod_eq_of_lt (by omega)]
  unfold teeRpmbRead
  rw [if_neg (by omega), if_neg (by rw [hcnt]; omega), hidx, hcnt, hm]
  cases hfault : φ w.requests with
  | some f => exact .inl ⟨_, f, hfault, rfl⟩
  | none =>
    dsimp only
    rw [hlast]
    dsimp only
    split
    · rename_i e hcpy
      refine .inr fun B hB => ?_
      obtain ⟨mac, hok⟩ := hcopy _ _ hcpy rfl rfl B hB
      cases hok
    · rename_i data mac hcpy
      obtain ⟨B, hB⟩ := stores_of_dataCpyMacCalc hlast hcpy
      obtain ⟨mac', hok⟩ := hcopy _ _ hcpy rfl rfl B hB
      cases hok
      exact ⟨rfl, B, hB, rfl⟩

lemma Enciphered.stores {k : Bytes 16} (h : Enciphered K (some k) uuid idx n data d d') (hK : Decrypts K)
    (hk : k ≠ zeroBytes 16) (hlen : data.length = n * 256) : Stores K (some k) uuid d' idx n data where
  length := hlen
  plain i hi := by
    unfold plainBlock
    dsimp only
    rw [if_neg hk]
    exact hK _ _ _ _ _ (h.stored i hi)

lemma patch_all (tmp data : List UInt8) (h : tmp.length ≤ data.length) : patch tmp 0 data = data := by
  apply ext_getD
  · rw [patch_length]
    omega
  · intro i hi
    rw [patch_length] at hi
    rw [getD_patch, if_neg (Nat.not_lt_zero i), if_pos (by omega), Nat.sub_zero]

def Written (K : Crypto) (fek : Option (Bytes 16)) (uuid : Option Uuid) (addr : ℕ) (data : List UInt8) (d d' : Device) : Prop :=
  ∃ tmp, tmp.length = span addr data.length * 256 ∧
    (¬(addr % 256 = 0 ∧ data.length % 256 = 0) → Stores K fek uuid d (addr / 256) (span addr data.length) tmp) ∧
    Enciphered K fek uuid (addr / 256) (span addr data.length) (patch tmp (addr % 256) data) d d'

lemma Written.same (h : Written K fek uuid addr data d d')
    (hb : b < addr / 256 ∨ addr / 256 + span addr data.length ≤ b) : d' b = d b := by
  obtain ⟨tmp, -, -, henc⟩ := h
  exact henc.same b hb

lemma Written.of_aligned (h : addr % 256 = 0 ∧ data.length % 256 = 0)
    (henc : Enciphered K fek uuid (addr / 256) (span addr data.length) data d d') : Written K fek uuid addr data d d' := by
  refine ⟨List.replicate (span addr data.length * 256) 0, List.length_replicate, fun hn => absurd h hn, ?_⟩
  rw [h.1, patch_all _ _ (by rw [List.length_replicate, span]; omega)]
  exact henc

lemma Written.stores {k : Bytes 16} (h : Written K (some k) uuid addr data d d') (hK : Decrypts K)
    (hk : k ≠ zeroBytes 16) : ∃ tmp, tmp.length = span addr data.length * 256 ∧
      (¬(addr % 256 = 0 ∧ data.length % 256 = 0) → Stores K (some k) uuid d (addr / 256) (span addr data.length) tmp) ∧
      Stores K (some k) uuid d' (addr / 256) (span addr data.length) (patch tmp (addr % 256) data) := by
  obtain ⟨tmp, hlen, hold, henc⟩ := h
  refine ⟨tmp, hlen, hold, henc.stores hK hk ?_⟩
  rw [patch_length, hlen, span]
  omega

lemma teeRpmbWrite_spec (hpos : 0 < span addr data.length) (hspan : span addr data.length < 2 ^ 16)
    (hfit : addr / 256 + span addr data.length ≤ ctx.maxBlkIdx.toNat + 1) :
    Spec (At d) (teeRpmbWrite K ctx φ addr data fek uuid) (fun _ w => Written K fek uuid addr data d w.dev)
      (fun _ _ => True) := by
  have hidx : blkIdx addr = addr / 256 := blkIdx_eq (by have := ctx.maxBlkIdx.toNat_lt; omega)
  unfold teeRpmbWrite
  rw [hidx, blkcnt_eq hspan]
  split_ifs with hal
  · exact (teeRpmbWriteBlk_spec hspan).post (fun _ _ henc => .of_aligned hal henc)
  have hcount : span (addr / 256 * 256) (span addr data.length * 256) = span addr data.length := by
    rw [span]
    omega
  refine Spec.bind (Q := fun tmp w => At d w ∧ Stores K fek uuid d (addr / 256) (span addr data.length) tmp) ?_ (fun tmp => ?_)
  · refine (teeRpmbRead_spec (by omega) (by rw [hcount]; exact hspan)
      (by rw [hcount, Nat.mul_div_cancel _ (by decide)]; exact hfit)).ends ?_ (fun _ _ _ => trivial)
    rintro tmp w ⟨hw, B, hB, rfl⟩
    rw [hcount, Nat.mul_div_cancel _ (by decide)] at hB
    rw [Nat.mul_mod_left, ← hB.length, slice, List.drop_zero, List.take_length]
    exact ⟨hw, hB⟩
  · rintro w ⟨hw, hB⟩
    exact (teeRpmbWriteBlk_spec hspan w hw).mono (fun _ _ henc => ⟨tmp, hB.length, fun _ => hB, henc⟩) (fun _ _ => id)

end Optee.RpmbFs
