import Optee.RpmbFs.Bytes

/-! A write of a byte range and what any later read returns. -/

namespace Optee.RpmbFs

open Lib.ByteStrings Lib.Effects Rpmb List

section Definitions

variable (K : Crypto) (ctx : Ctx) (fek : Option (Bytes 16)) (uuid : Option Uuid)

def chunk (idx n i : ℕ) : ℕ × ℕ :=
  (idx + i * ctx.relWrBlkcnt.toNat,
    if i = nbrWrites ctx n - 1 then n - ctx.relWrBlkcnt.toNat * (nbrWrites ctx n - 1) else ctx.relWrBlkcnt.toNat)

def chunks (idx n : ℕ) : List (ℕ × ℕ) := (List.range (nbrWrites ctx n)).map (chunk ctx idx n)

def byteAt (d : Device) (x : ℕ) : TeeResult UInt8 :=
  (plainBlock K fek uuid d (x / 256)).map (fun p => p.toList.getD (x % 256) 0)

end Definitions

variable {K : Crypto} {ctx : Ctx} {φ : Faults} {d d' : Device} {fek : Option (Bytes 16)} {uuid : Option Uuid}
  {data B : List UInt8} {idx n addr len x : ℕ}

lemma last_chunk (ctx : Ctx) (hrel : 0 < ctx.relWrBlkcnt.toNat) (hn : n ≠ 0) :
    n - ctx.relWrBlkcnt.toNat * (nbrWrites ctx n - 1) =
      if n % ctx.relWrBlkcnt.toNat = 0 then ctx.relWrBlkcnt.toNat else n % ctx.relWrBlkcnt.toNat := by
  unfold nbrWrites
  generalize ctx.relWrBlkcnt.toNat = r at *
  have hdiv := Nat.div_add_mod n r
  by_cases hmod : n % r = 0
  · rw [if_pos hmod, hmod, if_neg (lt_irrefl 0), add_zero]
    have hle : r ≤ n := Nat.le_of_dvd (pos_of_ne_zero hn) (Nat.dvd_of_mod_eq_zero hmod)
    rw [Nat.mul_sub_one]
    omega
  · rw [if_neg hmod, if_pos (pos_of_ne_zero hmod), Nat.add_sub_cancel]
    omega

lemma requests_fit_iff (hrel : 0 < ctx.relWrBlkcnt.toNat) :
    (∀ c ∈ chunks ctx idx n, memReqSize ctx n ≤ reqSize + c.2 * dataFrameSize) ↔
      n ≤ ctx.relWrBlkcnt.toNat ∨ ctx.relWrBlkcnt.toNat ∣ n := by
  by_cases hn : n = 0
  · subst hn
    simp [chunks, nbrWrites]
  obtain ⟨hN, -⟩ := nbrWrites_bounds ctx hn
  have hlast := last_chunk ctx hrel hn
  simp only [chunks, forall_mem_map, mem_range, chunk]
  constructor
  · intro h
    by_contra hcon
    obtain ⟨hgt, hmod⟩ := not_or.mp hcon
    have hmem := h (nbrWrites ctx n - 1) (by omega)
    rw [if_pos rfl, hlast, if_neg (fun h0 => hmod (Nat.dvd_of_mod_eq_zero h0)), memReqSize, if_neg (by omega),
      mul_comm] at hmem
    have := Nat.mod_lt n hrel
    have := Nat.le_of_mul_le_mul_right (Nat.le_of_add_le_add_left hmem) (by decide : 0 < dataFrameSize)
    omega
  · rintro h i hi
    -- a write of more blocks than a request holds must come out even
    have hcount : memReqSize ctx n ≤ reqSize + ctx.relWrBlkcnt.toNat * dataFrameSize := by
      rw [memReqSize, mul_comm ctx.relWrBlkcnt.toNat]
      split_ifs with hlt
      · exact Nat.add_le_add_left (Nat.mul_le_mul_left _ hlt.le) _
      · exact Nat.le_refl _
    split_ifs with heq
    · rw [hlast]
      split_ifs with hmod
      · exact hcount
      · have hle : n ≤ ctx.relWrBlkcnt.toNat := h.resolve_right (fun hdvd => hmod (Nat.mod_eq_zero_of_dvd hdvd))
        rw [Nat.mod_eq_of_lt (Nat.lt_of_le_of_ne hle (fun heq => hmod (by rw [heq, Nat.mod_self])))]
        exact memReqSize_le_of_le hle
    · exact hcount

lemma full_chunks (idx r k : ℕ) : (List.range k).flatMap (fun i => List.range' (idx + i * r) r) = List.range' idx (k * r) := by
  induction k with
  | zero => rw [Nat.zero_mul]; rfl
  | succ k ih =>
    rw [range_succ, flatMap_append, ih, flatMap_singleton, range'_append_1, Nat.add_mul, one_mul]

lemma chunks_cover (ctx : Ctx) (idx n : ℕ) : (chunks ctx idx n).flatMap (fun c => List.range' c.1 c.2) = List.range' idx n := by
  by_cases hn : n = 0
  · subst hn
    simp [chunks, nbrWrites]
  obtain ⟨hN, hle⟩ := nbrWrites_bounds ctx hn
  obtain ⟨k, hk⟩ := Nat.exists_eq_add_of_lt hN
  rw [zero_add] at hk
  rw [hk, Nat.add_sub_cancel] at hle
  have hfull : (List.range k).flatMap (fun i => List.range' (chunk ctx idx n i).1 (chunk ctx idx n i).2) =
      (List.range k).flatMap (fun i => List.range' (idx + i * ctx.relWrBlkcnt.toNat) ctx.relWrBlkcnt.toNat) := by
    apply flatMap_congr
    intro i hi
    rw [chunk, if_neg (by have := mem_range.mp hi; omega)]
  rw [chunks, flatMap_map, hk, range_succ, flatMap_append, hfull, full_chunks, flatMap_singleton, chunk,
    if_pos (by omega), hk, Nat.add_sub_cancel, range'_append_1, mul_comm k, Nat.add_sub_cancel' hle]

lemma chunk_frames {c : ℕ × ℕ} (hc : c ∈ chunks ctx idx n) (hn : n < 2 ^ 16) {mem : ℕ} {wrCnt : UInt32} {frames : List Frame}
    (h : packWrite K (writeCall mem c.1 (data.drop ((c.1 - idx) * 256)) c.2 fek uuid) ctx wrCnt none = .ok frames) :
    frames.length = c.2 ∧ ∀ i < c.2, ∃ f, frames[i]? = some f ∧ f.address = UInt16.ofNat c.1 ∧
      cipherBlock K fek uuid (c.1 + i) (block data (c.1 - idx + i)) = .ok f.data := by
  have hcount : c.2 ≤ n := by
    have hsub := sublist_flatten_of_mem (mem_map.mpr ⟨c, hc, rfl⟩ :
      List.range' c.1 c.2 ∈ (chunks ctx idx n).map (fun c => List.range' c.1 c.2))
    rw [← flatMap_def, chunks_cover] at hsub
    simpa using hsub.length_le
  set call := writeCall mem c.1 (data.drop ((c.1 - idx) * 256)) c.2 fek uuid with hcall
  have hcnt : call.blkcnt.toNat = c.2 := UInt16.toNat_ofNat_of_lt' (by rw [UInt16.size]; omega)
  obtain ⟨hlen, hget⟩ := packWrite_data h
  rw [hcnt] at hlen hget
  refine ⟨hlen, fun i hi => ?_⟩
  obtain ⟨f, hf, hdata, haddr⟩ := hget i hi
  rw [packData_request (rfl)] at hdata
  refine ⟨f, hf, haddr, ?_⟩
  rw [← block_drop]
  exact hdata

lemma Stores.byteAt (h : Stores K fek uuid d idx n B) (hlo : idx * 256 ≤ x) (hhi : x < (idx + n) * 256) :
    byteAt K fek uuid d x = .ok (B.getD (x - idx * 256) 0) := by
  obtain ⟨i, hi⟩ := Nat.exists_eq_add_of_le (show idx ≤ x / 256 by omega)
  rw [RpmbFs.byteAt, hi, h.plain i (by omega)]
  refine congrArg Except.ok ?_
  dsimp only
  rw [block_getD _ (Nat.mod_lt _ (by decide))]
  exact congrArg (B.getD · 0) (by omega)

lemma plainBlock_of_cipherBlock (hK : Decrypts K) {b : ℕ} {p q : Bytes 256} (hc : cipherBlock K fek uuid b p = .ok (d b))
    (hp : plainBlock K fek uuid d b = .ok q) : q = p := by
  cases fek with
  | none => exact (Except.ok.inj hp).symm.trans (Except.ok.inj hc).symm
  | some k =>
    unfold plainBlock at hp
    dsimp only at hp
    split_ifs at hp
    exact Except.ok.inj (hp.symm.trans (hK _ _ _ _ _ hc))

lemma Written.byteAt (h : Written K fek uuid addr data d d') (hK : Decrypts K) {y : UInt8}
    (hy : byteAt K fek uuid d' x = .ok y) :
    .ok y = if addr ≤ x ∧ x < addr + data.length then .ok (data.getD (x - addr) 0) else byteAt K fek uuid d x := by
  by_cases hb : x / 256 < addr / 256 ∨ addr / 256 + span addr data.length ≤ x / 256
  · have hsame := h.same hb
    rw [span] at hb
    rw [if_neg (by omega), ← hy]
    unfold RpmbFs.byteAt plainBlock
    rw [hsame]
  obtain ⟨tmp, hlen, hold, henc⟩ := h
  obtain ⟨i, hi⟩ := Nat.exists_eq_add_of_le (show addr / 256 ≤ x / 256 by omega)
  have hspan : span addr data.length = (data.length + addr % 256 + 255) / 256 := rfl
  have hstored := henc.stored i (by omega)
  have hbyte : y = (patch tmp (addr % 256) data).getD (x - addr / 256 * 256) 0 := by
    unfold RpmbFs.byteAt at hy
    cases hp : plainBlock K fek uuid d' (x / 256) with
    | error e =>
      rw [hp] at hy
      cases hy
    | ok q =>
      rw [hp] at hy
      cases hy
      rw [hi] at hp
      dsimp only
      rw [plainBlock_of_cipherBlock hK hstored hp, block_getD _ (Nat.mod_lt _ (by decide))]
      exact congrArg (List.getD _ · 0) (by omega)
  rw [hbyte, getD_patch]
  by_cases hin : addr ≤ x ∧ x < addr + data.length
  · rw [if_pos hin, if_neg (by omega), if_pos (by omega)]
    exact congrArg (fun k => Except.ok (data.getD k 0)) (by omega)
  rw [if_neg hin, (hold (by omega)).byteAt (by omega) (by omega)]
  refine congrArg Except.ok ?_
  split_ifs with h1 h2
  · rfl
  · omega
  · rfl

lemma span_le (hfit : addr + len ≤ (ctx.maxBlkIdx.toNat + 1) * 256) :
    addr / 256 + span addr len ≤ ctx.maxBlkIdx.toNat + 1 ∧ (span addr len = 2 ^ 16 ∨ span addr len < 2 ^ 16) := by
  have := ctx.maxBlkIdx.toNat_lt
  rw [span]
  omega

lemma blkcnt_of_span (h : span addr len = 2 ^ 16) : blkcnt addr len = 0 := by
  rw [blkcnt, ← span, h, Nat.mod_self]

variable {w' w : World}

lemma written_of_teeRpmbWrite (hfit : addr + data.length ≤ (ctx.maxBlkIdx.toNat + 1) * 256)
    (h : teeRpmbWrite K ctx φ addr data fek uuid w = .ok () w') :
    addr / 256 < 2 ^ 16 ∧ span addr data.length < 2 ^ 16 ∧ Written K fek uuid addr data w.dev w'.dev := by
  obtain ⟨hle, hspan⟩ := span_le hfit
  have hcnt : blkcnt addr data.length ≠ 0 := by
    intro h0
    unfold teeRpmbWrite at h
    rw [h0] at h
    split_ifs at h
    all_goals cases h
  have hlt : span addr data.length < 2 ^ 16 := hspan.resolve_left fun heq => hcnt (blkcnt_of_span heq)
  rw [blkcnt_eq hlt] at hcnt
  have hends : Ends _ _ (teeRpmbWrite K ctx φ addr data fek uuid w) := teeRpmbWrite_spec (pos_of_ne_zero hcnt) hlt hle w rfl
  rw [h] at hends
  have := ctx.maxBlkIdx.toNat_lt
  exact ⟨by omega, hlt, hends⟩

lemma byteAt_of_teeRpmbRead {bytes : List UInt8} (hfit : addr + len ≤ (ctx.maxBlkIdx.toNat + 1) * 256)
    (h : teeRpmbRead K ctx φ addr len fek uuid w = .ok bytes w') :
    bytes.length = len ∧ ∀ i < len, byteAt K fek uuid w.dev (addr + i) = .ok (bytes.getD i 0) := by
  obtain ⟨hle, hspan⟩ := span_le hfit
  have hpos : 0 < len := pos_of_ne_zero fun h0 => by
    subst h0
    cases h
  have hlt : span addr len < 2 ^ 16 := by
    refine hspan.resolve_left fun heq => ?_
    unfold teeRpmbRead at h
    rw [blkcnt_of_span heq] at h
    split_ifs at h
    cases hφ : φ w.requests <;> simp [hφ, readFrames] at h
  have hends : Ends _ _ (teeRpmbRead K ctx φ addr len fek uuid w) := teeRpmbRead_spec hpos hlt hle w rfl
  rw [h] at hends
  obtain ⟨-, B, hB, rfl⟩ := hends
  have hspan' : span addr len = (len + addr % 256 + 255) / 256 := rfl
  refine ⟨by rw [slice_length, hB.length]; omega, fun i hi => ?_⟩
  rw [hB.byteAt (by omega) (by omega), getD_slice, if_pos hi]
  exact congrArg (fun k => Except.ok (B.getD k 0)) (by omega)

def toyPair : Ctx := { toyCtx with relWrBlkcnt := 2 }

def toyBlank : World := ⟨fun _ => zeroBytes 256, 0, 0, []⟩

def toyTen (w : World) : EStateM.Result Stop World Unit :=
  teeRpmbWrite toyCrypto toyPair (fun _ => none) 250 (List.replicate 10 1) none none w

lemma toyTen_ok : decide (Ends (fun _ _ => True) (fun _ _ => False) (toyTen toyBlank)) = true := by decide +kernel

lemma toyTen_reads : decide (Ends (fun _ _ => True) (fun _ _ => False)
    (teeRpmbRead toyCrypto toyPair (fun _ => none) 240 30 none none (final (toyTen toyBlank)))) = true := by decide +kernel

def toyThree (w : World) : EStateM.Result Stop World Unit :=
  teeRpmbWrite toyCrypto toyPair (fun _ => none) 0 (List.replicate 768 1) none none w

lemma exists_error_of_decide {α : Type} {R : Stop → World → Prop} {r : EStateM.Result Stop World α}
    [Decidable (Ends (fun _ _ => False) R r)] (h : decide (Ends (fun _ _ => False) R r) = true) :
    ∃ e w, r = .error e w ∧ R e w := by
  have hends := of_decide_eq_true h
  cases r with
  | ok a w => exact hends.elim
  | error e w => exact ⟨e, w, rfl, hends⟩

lemma toyThree_stops : decide (Ends (fun _ _ => False) (fun e w => e = .reset ∧ w.requests = 1) (toyThree toyBlank)) = true := by
  decide +kernel

end Optee.RpmbFs
