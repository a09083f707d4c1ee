import Optee.RpmbFs.Contents

/-! Writing to a file: in place, or to a new place from where the table then takes it. -/

namespace Optee.Rpmb.FatEntry

def place (e : FatEntry) (addr size : ℕ) : FatEntry :=
  { e with dataSize := UInt32.ofNat size, startAddress := UInt32.ofNat addr }

end Optee.Rpmb.FatEntry

namespace Optee.RpmbFs

open Lib.ByteStrings Lib.Effects Rpmb Mm List

def Turns (K : Crypto) (uuid : Option Uuid) (f : List UInt8 → List UInt8) (d : Device) (e : FatEntry) (d' : Device)
    (e' : FatEntry) : Prop :=
  Decrypts K → e.fek ≠ zeroBytes 16 → ∀ F, contents K uuid d e = .ok F → contents K uuid d' e' = .ok (f F)

def Fits (ctx : Ctx) (e : FatEntry) : Prop :=
  e.dataSize ≠ 0 → e.startAddress.toNat % 256 = 0 ∧ e.endBlock ≤ ctx.maxBlkIdx.toNat

variable {K : Crypto} {ctx : Ctx} {φ : Faults} {d d' d₁ : Device} {fh : Fh} {e : FatEntry}
  {uuid : Option Uuid} {F G b : List UInt8} {n i nb pos size : ℕ}

lemma Layout.fits (h : Layout ctx n d) (hi : i < n) (hactive : (entry d i).isActive = true) : Fits ctx (entry d i) := fun h0 =>
  have hp := h.placed i hi ⟨hactive, h0⟩
  ⟨hp.aligned, hp.inside⟩

lemma Fits.contains (h : Fits ctx e) (hF : contents K uuid d e = .ok F) :
    F.length = e.dataSize.toNat ∧ (e.dataSize ≠ 0 → Contains K (some e.fek) uuid d e.firstBlock F) := by
  by_cases h0 : e.dataSize = 0
  · obtain ⟨ps, -, heq⟩ := TeeResult.bind_eq_ok.mp hF
    cases heq
    rw [h0]
    exact ⟨rfl, fun hne => absurd rfl hne⟩
  · obtain ⟨hlen, hc⟩ := (contents_eq_ok (h h0).1).mp hF
    exact ⟨hlen, fun _ => hc⟩

section OldBlocks

variable {blkSize : ℕ}

def Intact (e : FatEntry) (d d₁ : Device) : Prop :=
  e.dataSize ≠ 0 → ∀ b, e.firstBlock ≤ b → b < e.endBlock → d₁ b = d b

lemma readOldBlock_spec (hfits : Fits ctx fh.fatEntry) (hold : Intact fh.fatEntry d d₁) (hpos : 0 < blkSize)
    (hblk : blkSize ≤ tmpBlockSize) :
    Spec (At d₁) (readOldBlock K ctx φ fh pos (tmpBlockSize * i) blkSize)
      (fun old w => At d₁ w ∧ old.length ≤ blkSize ∧
        ∀ F, contents K fh.uuid d fh.fatEntry = .ok F → old = oldBlock F pos (tmpBlockSize * i) blkSize)
      (fun _ _ => True) := by
  unfold readOldBlock
  by_cases hread : tmpBlockSize * i < pos ∧ tmpBlockSize * i < fh.fatEntry.dataSize.toNat
  · rw [if_pos hread]
    have h0 : fh.fatEntry.dataSize ≠ 0 := fun h0 => by
      rw [h0] at hread
      exact absurd hread.2 (Nat.not_lt_zero _)
    obtain ⟨hal, hin⟩ := hfits h0
    have hoff : tmpBlockSize * i % 256 = 0 := by rw [tmpBlockSize]; omega
    rw [tmpBlockSize] at hblk
    rw [FatEntry.endBlock] at hin
    set off := tmpBlockSize * i with hoffdef
    set len := min blkSize (fh.fatEntry.dataSize.toNat - off) with hlen
    have hspan : span (fh.fatEntry.startAddress.toNat + off) len = (len + 255) / 256 := by
      rw [span, Nat.add_mod, hal, hoff]
    have hdiv : (fh.fatEntry.startAddress.toNat + off) / 256 = fh.fatEntry.firstBlock + off / 256 := by
      rw [FatEntry.firstBlock]
      omega
    have hmod : (fh.fatEntry.startAddress.toNat + off) % 256 = 0 := by omega
    refine (teeRpmbRead_spec (by omega) (by rw [hspan]; omega)
      (by rw [hdiv]; omega)).ends ?_ (fun _ _ _ => trivial)
    rintro old w ⟨hw, B, hB, rfl⟩
    refine ⟨hw, by rw [slice_length]; omega, fun F hF => ?_⟩
    obtain ⟨hFlen, hc⟩ := hfits.contains hF
    have hc' : Contains K (some fh.fatEntry.fek) fh.uuid d₁ fh.fatEntry.firstBlock F := by
      refine (hc h0).congr (fun x hlo hhi => hold h0 x hlo ?_)
      rw [FatEntry.endBlock]
      omega
    have hle : off + len ≤ F.length := by omega
    obtain ⟨B', hB', hslice⟩ := hc'.part hle
    rw [hspan, hdiv] at hB
    rw [hoff] at hB'
    rw [hmod, hB.unique hB', oldBlock, if_pos (by omega), hFlen, ← hslice, hoff]
  · rw [if_neg hread]
    refine .pure (fun w hw => ⟨hw, Nat.zero_le _, fun F hF => ?_⟩)
    rw [oldBlock, (hfits.contains hF).1, if_neg hread]

end OldBlocks

def blocks (size : ℕ) : ℕ := (size + 255) / 256

lemma updateTurn_spec {rem : List UInt8} {k : ℕ} (hfits : Fits ctx fh.fatEntry) (hold : Intact fh.fatEntry d d₁)
    (hsize : size = max (pos + b.length) fh.fatEntry.dataSize.toNat) (hk : tmpBlockSize * k < size)
    (hin : nb + blocks size ≤ ctx.maxBlkIdx.toNat + 1) (hrem : rem = b.drop (tmpBlockSize * k - pos)) :
    Spec (At d₁) (do
        let old ← readOldBlock K ctx φ fh pos (tmpBlockSize * k) (min tmpBlockSize (size - tmpBlockSize * k))
        let blk := updateBlock pos b.length (tmpBlockSize * k) (min tmpBlockSize (size - tmpBlockSize * k)) old rem
        teeRpmbWrite K ctx φ (nb * 256 + tmpBlockSize * k) blk.1 (some fh.fatEntry.fek) fh.uuid
        pure blk.2)
      (fun rem' w => rem' = b.drop (tmpBlockSize * (k + 1) - pos) ∧
        SameOutside nb (nb + blocks size) d₁ w.dev ∧ (∀ x < nb + 16 * k, w.dev x = d₁ x) ∧
        (Decrypts K → fh.fatEntry.fek ≠ zeroBytes 16 → ∀ F, contents K fh.uuid d fh.fatEntry = .ok F →
          Contains K (some fh.fatEntry.fek) fh.uuid w.dev (nb + 16 * k)
            (slice (rewritten F pos b) (tmpBlockSize * k) (min tmpBlockSize (size - tmpBlockSize * k)))))
      (fun _ _ => True) := by
  set blkSize := min tmpBlockSize (size - tmpBlockSize * k) with hblk
  have hblkpos : 0 < blkSize := by rw [tmpBlockSize] at hblk hk; omega
  have hblkle : blkSize ≤ tmpBlockSize := by omega
  refine .bind (readOldBlock_spec hfits hold hblkpos hblkle) (fun old => ?_)
  rintro w ⟨hw, hlen, hof⟩
  set blk := updateBlock pos b.length (tmpBlockSize * k) blkSize old rem with hblkdef
  have hbuf : blk.1.length = blkSize := updateBlock_length hlen
  have haddr : (nb * 256 + tmpBlockSize * k) / 256 = nb + 16 * k := by rw [tmpBlockSize]; omega
  have hal : (nb * 256 + tmpBlockSize * k) % 256 = 0 := by rw [tmpBlockSize]; omega
  have hspan : span (nb * 256 + tmpBlockSize * k) blk.1.length = blocks blkSize := by
    rw [span, hal, hbuf, blocks]
  have htop : 16 * k + blocks blkSize ≤ blocks size := by
    rw [blocks, blocks]
    omega
  refine Spec.bind (teeRpmbWrite_spec (by rw [hspan, blocks]; omega) (by rw [hspan, blocks]; rw [tmpBlockSize] at hblkle; omega)
    (by rw [haddr]; omega)) (fun _ => Spec.pure (fun t hwritten => ?_)) w hw
  have hsame := fun x hx => hwritten.same (b := x) hx
  rw [haddr] at hsame
  refine ⟨by rw [hblkdef, hrem, updateBlock_rem], fun x hx => hsame x (by omega), fun x hx => hsame x (.inl hx), ?_⟩
  intro hK hkey F hF
  have hc := contains_of_written hwritten hK hkey hal
  rw [haddr, hblkdef, hof F hF, hrem] at hc
  rwa [updateBlock_buf (by rw [(hfits.contains hF).1, ← hsize])] at hc

lemma updateWriteHelper_spec (hfits : Fits ctx fh.fatEntry)
    (hsize : size = max (pos + b.length) fh.fatEntry.dataSize.toNat) (hin : nb + blocks size ≤ ctx.maxBlkIdx.toNat + 1)
    (hfree : ∀ d', SameOutside nb (nb + blocks size) d d' → Intact fh.fatEntry d d') :
    Spec (At d) (updateWriteHelper K ctx φ fh pos b (nb * 256) size)
      (fun _ w => SameOutside nb (nb + blocks size) d w.dev ∧
        (Decrypts K → fh.fatEntry.fek ≠ zeroBytes 16 → ∀ F, contents K fh.uuid d fh.fatEntry = .ok F →
          Contains K (some fh.fatEntry.fek) fh.uuid w.dev nb (rewritten F pos b)))
      (fun _ _ => True) := by
  refine (Spec.foldlM_range (I := fun k rem w => rem = b.drop (tmpBlockSize * k - pos) ∧
      SameOutside nb (nb + blocks size) d w.dev ∧
      (Decrypts K → fh.fatEntry.fek ≠ zeroBytes 16 → ∀ F, contents K fh.uuid d fh.fatEntry = .ok F →
        Contains K (some fh.fatEntry.fek) fh.uuid w.dev nb ((rewritten F pos b).take (tmpBlockSize * k)))) _ b
    (fun k hk rem => ?_)).mono ?_ ?_ (fun _ _ => id)
  · rintro w ⟨hrem, hsame, hcont⟩
    have hturn : tmpBlockSize * k < size := by rw [tmpBlockSize] at hk ⊢; omega
    refine (updateTurn_spec hfits (hfree _ hsame) hsize hturn hin hrem w rfl).mono ?_ (fun _ _ => id)
    rintro rem' t ⟨hrem', hout, hbelow, hcont'⟩
    refine ⟨hrem', fun x hx => by rw [hout x hx, hsame x hx], fun hK hkey F hF => ?_⟩
    have hlen : (rewritten F pos b).length = size := by rw [rewritten_length, (hfits.contains hF).1, hsize]
    have htake : ((rewritten F pos b).take (tmpBlockSize * k)).length = 16 * k * 256 := by
      rw [length_take]
      rw [tmpBlockSize] at hturn ⊢
      omega
    have hfirst : Contains K _ fh.uuid t.dev nb _ :=
      (hcont hK hkey F hF).congr (fun x _ hx => hbelow x (by rw [htake] at hx; omega))
    have hboth := hfirst.append htake (hcont' hK hkey F hF)
    rw [slice, ← take_add] at hboth
    convert hboth using 1
    apply take_eq_take_iff.mpr
    rw [tmpBlockSize] at hturn ⊢
    omega
  · rintro w rfl
    exact ⟨by rw [Nat.mul_zero, Nat.zero_sub, drop_zero], fun _ _ => rfl, fun _ _ F _ => Contains.nil⟩
  · rintro - w ⟨-, hsame, hcont⟩
    refine ⟨hsame, fun hK hkey F hF => ?_⟩
    have hall := hcont hK hkey F hF
    rwa [take_of_length_le] at hall
    rw [rewritten_length, (hfits.contains hF).1]
    rw [tmpBlockSize]
    omega

structure Relocated (K : Crypto) (ctx : Ctx) (uuid : Option Uuid) (n i size : ℕ) (f : List UInt8 → List UInt8)
    (d d₁ : Device) (e : FatEntry) : Prop where
  same : SameUsed ctx n d d₁
  moved : ∃ addr c, e = ((entry d i).place addr size).stamp c
  aligned : e.startAddress.toNat % 256 = 0
  sized : e.dataSize.toNat = size
  pos : 0 < size
  free : ∀ x, e.firstBlock ≤ x → x < e.endBlock → Free ctx n d x
  turns : Turns K uuid f d (entry d i) d₁ e

namespace Relocated

variable {f : List UInt8 → List UInt8}

section

variable (h : Relocated K ctx uuid n i size f d d₁ e)
include h

lemma placed : Placed ctx n e := by
  have hsized := h.sized
  have hpos := h.pos
  have hlt : e.firstBlock < e.endBlock := by
    rw [FatEntry.firstBlock, FatEntry.endBlock]
    omega
  have hlast := (h.free (e.endBlock - 1) (by omega) (by omega)).inside
  exact ⟨h.aligned, (h.free e.firstBlock (Nat.le_refl _) hlt).above, by omega⟩

lemma clear {j : ℕ} (hj : j < n) (ho : (entry d j).Occupies) : e.Clear (entry d j) := by
  by_contra hno
  rw [FatEntry.Clear] at hno
  have hlt := ho.firstBlock_lt
  have hlt' : e.firstBlock < e.endBlock := by
    have := h.sized
    have := h.pos
    rw [FatEntry.firstBlock, FatEntry.endBlock]
    omega
  have := (h.free (max e.firstBlock (entry d j).firstBlock) (by omega) (by omega)).clear j hj ho
  omega

end

lemma of_free {c : UInt32} (hnb : ∀ x, nb ≤ x → x < nb + blocks size → Free ctx n d x) (hpos : 0 < size)
    (hsame : SameOutside nb (nb + blocks size) d d₁)
    (hc : Decrypts K → (entry d i).fek ≠ zeroBytes 16 → ∀ F, contents K uuid d (entry d i) = .ok F →
      (f F).length = size ∧ Contains K (some (entry d i).fek) uuid d₁ nb (f F)) :
    Relocated K ctx uuid n i size f d d₁ (((entry d i).place (nb * 256) size).stamp c) := by
  have hmax := ctx.maxBlkIdx.toNat_lt
  have hblocks : blocks size = (size + 255) / 256 := rfl
  have hinside := (hnb (nb + blocks size - 1) (by omega) (by omega)).inside
  have hsize : (UInt32.ofNat size).toNat = size := UInt32.toNat_ofNat_of_lt' (by rw [UInt32.size]; omega)
  have haddr : (UInt32.ofNat (nb * 256)).toNat = nb * 256 := UInt32.toNat_ofNat_of_lt' (by rw [UInt32.size]; omega)
  have hfirst : (((entry d i).place (nb * 256) size).stamp c).firstBlock = nb := by
    change (UInt32.ofNat (nb * 256)).toNat / 256 = nb
    omega
  have hend : (((entry d i).place (nb * 256) size).stamp c).endBlock = nb + blocks size := by
    change ((UInt32.ofNat (nb * 256)).toNat + (UInt32.ofNat size).toNat - 1) / 256 + 1 = nb + blocks size
    omega
  have hal : (((entry d i).place (nb * 256) size).stamp c).startAddress.toNat % 256 = 0 := by
    change (UInt32.ofNat (nb * 256)).toNat % 256 = 0
    omega
  refine ⟨fun x hx => ?_, ⟨_, _, rfl⟩, hal, hsize, hpos, fun x hlo hhi => ?_, fun hK hkey F hF => ?_⟩
  · refine hsame x ?_
    by_contra hin
    exact hx (hnb x (by omega) (by omega))
  · rw [hfirst] at hlo
    rw [hend] at hhi
    exact hnb x hlo hhi
  · obtain ⟨hlen, hcont⟩ := hc hK hkey F hF
    rw [contents_eq_ok hal, hfirst]
    exact ⟨hlen.trans hsize.symm, hcont⟩

end Relocated

def InPlace (ctx : Ctx) (e : FatEntry) (pos size : ℕ) : Prop :=
  pos + size ≤ e.dataSize.toNat ∧ teeRpmbWriteIsAtomic ctx (e.startAddress.toNat + pos) size = true

instance (e : FatEntry) : Decidable (InPlace ctx e pos size) := inferInstanceAs (Decidable (_ ∧ _))

inductive Wrote (K : Crypto) (ctx : Ctx) (uuid : Option Uuid) (n i pos : ℕ) (b : List UInt8) (d : Device) : Device → Prop
  | inPlace {d' : Device} (hin : InPlace ctx (entry d i) pos b.length)
      (hw : Written K (some (entry d i).fek) uuid ((entry d i).startAddress.toNat + pos) b d d') : Wrote K ctx uuid n i pos b d d'
  | moved {d₁ : Device} {e : FatEntry} (hin : ¬InPlace ctx (entry d i) pos b.length)
      (hr : Relocated K ctx uuid n i (max (pos + b.length) (entry d i).dataSize.toNat) (rewritten · pos b) d d₁ e) :
      Wrote K ctx uuid n i pos b d (setEntry d₁ i e)

section Specs

variable {p : Pool}

lemma reallocate_spec (h : Layout ctx n d) (hi : i < n)
    (hactive : (entry d i).isActive = true) (hp : Offers ctx n d p) (hfe : fh.fatEntry = entry d i)
    (haddr : fh.rpmbFatAddress = fatAddress i) (hb : b ≠ []) :
    Spec (Here fh d) (reallocate K ctx φ fh p pos b)
      (fun _ s => ∃ d₁ e, Relocated K ctx fh.uuid n i (max (pos + b.length) (entry d i).dataSize.toNat)
        (rewritten · pos b) d d₁ e ∧ Here { fh with fatEntry := e } (setEntry d₁ i e) s) (fun _ _ => True) := by
  have hpos : 0 < b.length := length_pos_iff.mpr hb
  unfold reallocate
  dsimp only
  rw [hfe]
  set size := max (pos + b.length) (entry d i).dataSize.toNat with hsize
  split
  · exact .throw (fun _ _ => trivial)
  rename_i mm p' halloc
  obtain ⟨hmm, hnb⟩ := hp.free size mm p' (by omega) halloc
  have hsize' : blocks size ≤ mm.size := by rw [blocks]; omega
  replace hnb : ∀ x, mm.offset ≤ x → x < mm.offset + blocks size → Free ctx n d x := fun x hlo hhi => hnb x hlo (by omega)
  have hsmem : p.getSmem mm = mm.offset * 256 := by
    have := (hnb mm.offset (Nat.le_refl _) (by rw [blocks]; omega)).inside
    have := ctx.maxBlkIdx.toNat_lt
    rw [Pool.getSmem, hp.shift, hp.lo]
    omega
  rw [hsmem]
  have hused : ∀ d', SameOutside mm.offset (mm.offset + blocks size) d d' → SameUsed ctx n d d' := by
    intro d' hd' x hx
    refine hd' x ?_
    by_contra hin
    exact hx (hnb x (by omega) (by omega))
  have hfits : Fits ctx fh.fatEntry := hfe ▸ h.fits hi hactive
  have hinside : mm.offset + blocks size ≤ ctx.maxBlkIdx.toNat + 1 := by
    have := (hnb (mm.offset + blocks size - 1) (by rw [blocks]; omega) (by rw [blocks]; omega)).inside
    omega
  have hintact : ∀ d', SameOutside mm.offset (mm.offset + blocks size) d d' → Intact fh.fatEntry d d' := by
    intro d' hd' h0 x hlo hhi
    rw [hfe] at h0 hlo hhi
    refine hused d' hd' x fun hf => ?_
    have := hf.clear i hi ⟨hactive, h0⟩
    omega
  refine .bind ((Spec.onDevice (updateWriteHelper_spec hfits (by rw [hfe]) hinside hintact)).fails (fun _ _ _ => trivial)) (fun _ => ?_)
  -- the file is at its new place, and the table follows
  rintro s ⟨hfh, hsame, hcont⟩
  have hreloc : ∀ c, Relocated K ctx fh.uuid n i size (rewritten · pos b) d s.2.dev
      (((entry d i).place (mm.offset * 256) size).stamp c) := by
    intro c
    refine Relocated.of_free hnb (by omega) hsame (fun hK hkey F hF => ?_)
    rw [hfe] at hcont
    refine ⟨?_, hcont hK hkey F hF⟩
    rw [rewritten_length, ((hfe ▸ hfits : Fits ctx (entry d i)).contains hF).1]
  have hroom := h.room
  refine Spec.bind (Q := fun _ t => Here (setPlace (mm.offset * 256) size fh) s.2.dev t)
    (Spec.modifyFh (fun t (ht : Here fh s.2.dev t) => ⟨congrArg (setPlace _ size) ht.1, ht.2⟩)) (fun _ => ?_) s ⟨hfh, rfl⟩
  have haddr' : (setPlace (mm.offset * 256) size fh).rpmbFatAddress = fatAddress i := haddr
  refine (writeFatEntry_spec (by omega) haddr' true).post ?_
  rintro - t ⟨c, ht⟩
  refine ⟨s.2.dev, _, hreloc c, ?_⟩
  rw [← hfe]
  exact ht

lemma span_inside (hal : e.startAddress.toNat % 256 = 0) (hle : pos + b.length ≤ e.dataSize.toNat) :
    e.firstBlock ≤ (e.startAddress.toNat + pos) / 256 ∧
      (e.startAddress.toNat + pos) / 256 + span (e.startAddress.toNat + pos) b.length ≤ e.endBlock := by
  rw [FatEntry.firstBlock, FatEntry.endBlock, span]
  omega

lemma writeFile_spec (h : Layout ctx n d) (hi : i < n) (hactive : (entry d i).isActive = true) (hp : Offers ctx n d p)
    (hfe : fh.fatEntry = entry d i) (haddr : fh.rpmbFatAddress = fatAddress i) (hb : b ≠ []) :
    Spec (Here fh d) (writeFile K ctx φ fh p pos b)
      (fun _ s => ∃ d', Wrote K ctx fh.uuid n i pos b d d' ∧ Here { fh with fatEntry := entry d' i } d' s)
      (fun _ _ => True) := by
  have hpos : 0 < b.length := length_pos_iff.mpr hb
  unfold writeFile
  rw [if_neg (by rw [hfe, h.going i hi]; decide)]
  split_ifs with hover hin
  · exact .throw (fun _ _ => trivial)
  · rw [hfe] at hin ⊢
    have hsize : 0 < (entry d i).dataSize.toNat := by omega
    have ho : (entry d i).Occupies := ⟨hactive, fun h0 => by rw [h0] at hsize; exact absurd hsize (lt_irrefl 0)⟩
    have hplaced := h.placed i hi ho
    obtain ⟨hlo, hhi⟩ := span_inside hplaced.aligned hin.1
    have hinside := hplaced.inside
    have hmax := ctx.maxBlkIdx.toNat_lt
    have hspan : span ((entry d i).startAddress.toNat + pos) b.length < 2 ^ 16 := by omega
    refine (Spec.onDevice (teeRpmbWrite_spec (by rw [span]; omega) hspan (by omega))).ends ?_ (fun _ _ _ => trivial)
    rintro - s ⟨hfh, hw⟩
    refine ⟨s.2.dev, .inPlace hin hw, ?_, rfl⟩
    rw [hfh, entry_congr (hw.same (.inl (by have := hplaced.above; omega))), ← hfe]
  · rw [hfe] at hin
    refine (reallocate_spec h hi hactive hp hfe haddr hb).post ?_
    rintro - s ⟨d₁, e, hr, hs⟩
    refine ⟨_, .moved hin hr, ?_⟩
    rwa [entry_setEntry_self]

lemma rpmbFsWritePrimitive_spec (h : Layout ctx n d) (hf : find ctx d (cstr fh.filename) = some i) (hb : b ≠ []) :
    Spec (Here fh d) (rpmbFsWritePrimitive K ctx φ pos b)
      (fun _ s => ∃ d', Wrote K ctx fh.uuid n i pos b d d' ∧ Here (fh.at (fatAddress i) (entry d' i)) d' s)
      (fun _ _ => True) := by
  obtain ⟨hi, ⟨hactive, -⟩, -⟩ := h.find_eq_some.mp hf
  rw [rpmbFsWritePrimitive, if_neg hb]
  refine .bind (readFat_match h hf) (fun q => ?_)
  refine .and_left ?_
  rintro ⟨p, rfl, hp⟩
  refine Spec.getFh_bind (fun fh0 => ?_)
  rintro s ⟨rfl, hs⟩
  rw [hs.1]
  have hwrite : Spec (Here (fh.at (fatAddress i) (entry d i)) d)
      (writeFile K ctx φ (fh.at (fatAddress i) (entry d i)) p pos b) _ _ := writeFile_spec h hi hactive hp rfl rfl hb
  exact hwrite s hs

end Specs

end Optee.RpmbFs
