import Optee.RpmbFs.Write

/-! A file as an array of bytes: what a write makes of its contents and what a read returns of them. -/

namespace Optee.RpmbFs

open Lib.ByteStrings Lib.Effects Rpmb List

variable {K : Crypto} {ctx : Ctx} {φ : Faults} {d d' : Device} {fh : Fh} {e : FatEntry}
  {uuid : Option Uuid} {F b name : List UInt8} {n i j pos len size : ℕ}

lemma Layout.find_congr (h : Layout ctx n d) (h' : Layout ctx n d') (hn : ∀ j < n, Names d' name j ↔ Names d name j) :
    find ctx d' name = find ctx d name := by
  ext i
  rw [h'.find_eq_some, h.find_eq_some]
  constructor
  · rintro ⟨hi, hname, hfirst⟩
    exact ⟨hi, (hn i hi).mp hname, fun j hj hno => hfirst j hj ((hn j (by omega)).mpr hno)⟩
  · rintro ⟨hi, hname, hfirst⟩
    exact ⟨hi, (hn i hi).mpr hname, fun j hj hno => hfirst j hj ((hn j (by omega)).mp hno)⟩

lemma Layout.of_entries (h : Layout ctx n d) (he : ∀ j ≤ n, entry d' j = entry d j) : Layout ctx n d' where
  going j hj := by rw [he j hj.le]; exact h.going j hj
  last := by rw [he n (Nat.le_refl n)]; exact h.last
  unused := by rw [he n (Nat.le_refl n)]; exact h.unused
  room := h.room
  placed j hj := by rw [he j hj.le]; exact h.placed j hj
  apart j k hj hk := by rw [he j hj.le, he k hk.le]; exact h.apart j k hj hk

lemma contents_of_intact (hal : e.startAddress.toNat % 256 = 0) (hd : Intact e d d') (hF : contents K uuid d e = .ok F) :
    contents K uuid d' e = .ok F := by
  rw [contents_eq_ok hal] at hF ⊢
  obtain ⟨hlen, hc⟩ := hF
  refine ⟨hlen, hc.congr (fun x hlo hhi => hd ?_ x hlo ?_)⟩
  · intro h0
    rw [h0] at hlen
    rw [hlen] at hhi
    exact absurd hhi (not_lt.mpr hlo)
  · rw [FatEntry.endBlock]
    rw [FatEntry.firstBlock] at hlo hhi
    omega

lemma InPlace.occupies (hin : InPlace ctx e pos b.length) (hactive : e.isActive = true) (hb : b ≠ []) : e.Occupies := by
  have hpos : 0 < b.length := length_pos_iff.mpr hb
  have hsize : 0 < e.dataSize.toNat := by have := hin.1; omega
  exact ⟨hactive, fun h0 => by rw [h0] at hsize; exact absurd hsize (lt_irrefl 0)⟩

namespace Wrote

section

variable (hw : Wrote K ctx uuid n i pos b d d') (h : Layout ctx n d) (hi : i < n) (hactive : (entry d i).isActive = true) (hb : b ≠ [])
include hw h hi hactive hb

lemma sameBut {x : ℕ} (hx : ¬Free ctx n d x) (hne : x ≠ 2 + i)
    (hout : (entry d i).Occupies → x < (entry d i).firstBlock ∨ (entry d i).endBlock ≤ x) : d' x = d x := by
  cases hw with
  | inPlace hin hw =>
    have ho := hin.occupies hactive hb
    obtain ⟨hlo, hhi⟩ := span_inside (h.placed i hi ho).aligned hin.1
    have := hout ho
    exact hw.same (by omega)
  | moved hin hr => rw [setEntry_of_ne hne, hr.same x hx]

lemma entry_other (hj : j ≤ n) (hne : j ≠ i) : entry d' j = entry d j := by
  refine entry_congr (hw.sameBut h hi hactive hb (not_free_table hj) (by omega) (fun ho => .inl ?_))
  have := (h.placed i hi ho).above
  omega

lemma entry_self :
    (entry d' i).isActive = true ∧ (entry d' i).isLast = false ∧ (entry d' i).filename = (entry d i).filename ∧
      (entry d' i).fek = (entry d i).fek ∧ Placed ctx n (entry d' i) ∧
      (∀ j < n, j ≠ i → (entry d j).Occupies → (entry d' i).Clear (entry d j)) := by
  cases hw with
  | inPlace hin hw =>
    have ho := hin.occupies hactive hb
    have hp := h.placed i hi ho
    obtain ⟨hlo, hhi⟩ := span_inside hp.aligned hin.1
    rw [entry_congr (hw.same (.inl (by have := hp.above; omega)))]
    exact ⟨hactive, h.going i hi, rfl, rfl, hp, fun j hj hne hoj => h.apart i j hi hj hne.symm ho hoj⟩
  | moved hin hr =>
    rw [entry_setEntry_self]
    obtain ⟨addr, c, rfl⟩ := hr.moved
    exact ⟨hactive, h.going i hi, rfl, rfl, hr.placed, fun j hj _ => hr.clear hj⟩

lemma layout : Layout ctx n d' := by
  obtain ⟨-, hlast, -, -, hp, hclear⟩ := hw.entry_self h hi hactive hb
  have hset := h.set hlast (fun _ => ⟨hp, hclear⟩) hi
  refine hset.of_entries (fun j hj => ?_)
  by_cases hji : j = i
  · rw [hji, entry_setEntry_self]
  · rw [entry_setEntry_of_ne hji, hw.entry_other h hi hactive hb hj hji]

lemma find_eq : find ctx d' name = find ctx d name := by
  refine h.find_congr (hw.layout h hi hactive hb) (fun j hj => ?_)
  by_cases hji : j = i
  · obtain ⟨hact, -, hname, -⟩ := hw.entry_self h hi hactive hb
    rw [hji, Names, Names, hact, hactive, hname]
  · rw [Names, Names, hw.entry_other h hi hactive hb hj.le hji]

end

end Wrote

def overwritten (ctx : Ctx) (e : FatEntry) (F : List UInt8) (pos : ℕ) (b : List UInt8) : List UInt8 :=
  if InPlace ctx e pos b.length then patch F pos b else rewritten F pos b

lemma Wrote.turns (hw : Wrote K ctx uuid n i pos b d d') (h : Layout ctx n d) (hi : i < n)
    (hactive : (entry d i).isActive = true) (hb : b ≠ []) :
    Turns K uuid (overwritten ctx (entry d i) · pos b) d (entry d i) d' (entry d' i) := by
  have hpos : 0 < b.length := length_pos_iff.mpr hb
  intro hK hkey F hF
  dsimp only
  cases hw with
  | inPlace hin hw =>
    have ho := hin.occupies hactive hb
    have hp := h.placed i hi ho
    obtain ⟨hlen, hc⟩ := (contents_eq_ok hp.aligned).mp hF
    have hstart : (entry d i).startAddress.toNat = (entry d i).firstBlock * 256 := by
      have := hp.aligned
      rw [FatEntry.firstBlock]
      omega
    have hfit : pos + b.length ≤ F.length := by rw [hlen]; exact hin.1
    rw [overwritten, if_pos hin, entry_congr (hw.same (.inl (by have := hp.above; omega))), contents_eq_ok hp.aligned]
    rw [hstart] at hw
    refine ⟨?_, hc.write hw hK hkey hpos hfit⟩
    rw [patch_length]
    omega
  | moved hin hr =>
    rw [overwritten, if_neg hin, entry_setEntry_self]
    have hG := hr.turns hK hkey F hF
    refine contents_of_intact hr.aligned (fun _ x hlo _ => setEntry_of_ne ?_) hG
    have := hr.placed.above
    omega

lemma rpmbFsRead_spec (h : Layout ctx n d) (hf : find ctx d (cstr fh.filename) = some i)
    (hF : contents K fh.uuid d (entry d i) = .ok F) :
    Spec (Here fh d) (rpmbFsRead K ctx φ pos len) (fun r _ => r = slice F pos len) (fun e _ => Struck φ e) := by
  obtain ⟨hi, ⟨hactive, -⟩, -⟩ := h.find_eq_some.mp hf
  have hfits := h.fits hi hactive
  obtain ⟨hFlen, hc⟩ := hfits.contains hF
  unfold rpmbFsRead
  split_ifs with hlen
  · rw [hlen]
    exact Spec.pure (fun s _ => (take_zero).symm)
  refine Spec.bind ((readFat_find h).fails ?_) (fun _ => Spec.getFh_bind (fun fh0 => ?_))
  · rintro e s (hstruck | hnone)
    · exact hstruck
    · rw [hf] at hnone
      cases hnone
  rintro s ⟨rfl, hs⟩
  rw [hf] at hs
  rw [hs.1]
  change Ends _ _ ((if (entry d i).dataSize.toNat ≤ pos then pure [] else
    onDevice (teeRpmbRead K ctx φ ((entry d i).startAddress.toNat + pos) (min len ((entry d i).dataSize.toNat - pos))
      (some (entry d i).fek) fh.uuid) : OnFh (List UInt8)) s)
  split_ifs with hend
  · rw [slice, drop_eq_nil_of_le (hFlen.trans_le hend), take_nil]
    exact rfl
  have h0 : (entry d i).dataSize ≠ 0 := fun h0 => hend (by rw [h0]; exact Nat.zero_le _)
  obtain ⟨hal, hinside⟩ := hfits h0
  have hmax := ctx.maxBlkIdx.toNat_lt
  have hle : pos + min len ((entry d i).dataSize.toNat - pos) ≤ F.length := by omega
  obtain ⟨B, hB, hslice⟩ := (hc h0).part hle
  have hdiv : ((entry d i).startAddress.toNat + pos) / 256 = (entry d i).firstBlock + pos / 256 := by
    rw [FatEntry.firstBlock]
    omega
  have hmod : ((entry d i).startAddress.toNat + pos) % 256 = pos % 256 := by omega
  have hspan : span ((entry d i).startAddress.toNat + pos) (min len ((entry d i).dataSize.toNat - pos)) =
      (min len ((entry d i).dataSize.toNat - pos) + pos % 256 + 255) / 256 := by rw [span, hmod]
  rw [FatEntry.endBlock] at hinside
  refine (Spec.onDevice (teeRpmbRead_spec (by omega) (by rw [hspan]; omega)
    (by rw [hdiv]; omega))).ends ?_ ?_ s hs
  · rintro r t ⟨-, -, B', hB', rfl⟩
    rw [hspan, hdiv] at hB'
    rw [hmod, hB'.unique hB, hslice, slice, slice, take_eq_take_iff, length_drop]
    omega
  · rintro e t ⟨-, hstruck | hno⟩
    · exact hstruck
    · rw [hspan, hdiv] at hno
      exact absurd hB (hno B)

/-- The old bytes behind `b` that a write to a new place does not copy; they are lost unless zero. -/
def NothingLost (F : List UInt8) (pos : ℕ) (b : List UInt8) : Prop :=
  ∀ x < F.length, pos ≤ x / tmpBlockSize * tmpBlockSize → pos + b.length ≤ x → F.getD x 0 = 0

instance (F : List UInt8) (pos : ℕ) (b : List UInt8) : Decidable (NothingLost F pos b) := Nat.decidableBallLT _ _

lemma rewritten_eq_patch : rewritten F pos b = patch F pos b ↔ NothingLost F pos b := by
  have hget : ∀ x, (patch F pos b).getD x 0 = if pos ≤ x ∧ x < pos + b.length then b.getD (x - pos) 0 else F.getD x 0 := by
    intro x
    rw [getD_patch]
    split_ifs <;> first | rfl | omega
  constructor
  · intro heq x _ hblk hbehind
    have := congrArg (·.getD x 0) heq
    rwa [getD_rewritten, hget, if_neg (by omega), if_neg (by omega), if_neg (by omega), eq_comm] at this
  · intro hlost
    apply ext_getD
    · rw [rewritten_length, patch_length, Nat.max_comm]
    · intro x _
      rw [getD_rewritten, hget]
      split_ifs with hin hblk
      · rfl
      · rfl
      · by_cases hx : x < F.length
        · have hle : x / tmpBlockSize * tmpBlockSize ≤ x := Nat.div_mul_le_self x tmpBlockSize
          exact (hlost x hx (by omega) (by omega)).symm
        · exact (getD_of_length_le (Nat.le_of_not_lt hx)).symm

lemma overwritten_eq_patch : overwritten ctx e F pos b = patch F pos b ↔ InPlace ctx e pos b.length ∨ NothingLost F pos b := by
  rw [overwritten]
  split_ifs with hin
  · exact ⟨fun _ => .inl hin, fun _ => rfl⟩
  · rw [rewritten_eq_patch]
    exact ⟨.inr, fun h => h.resolve_left hin⟩

def noFaults : Faults := fun _ => none

def Reads (K : Crypto) (ctx : Ctx) (s : Fh × World) (G : List UInt8) : Prop :=
  (∃ i, find ctx s.2.dev (cstr s.1.filename) = some i ∧ contents K s.1.uuid s.2.dev (entry s.2.dev i) = .ok G) ∧
    ∀ pos len, ∃ t, rpmbFsRead K ctx noFaults pos len s = .ok (slice G pos len) t

lemma reads_iff {s : Fh × World} {G : List UInt8} (h : Layout ctx n s.2.dev) (hf : find ctx s.2.dev (cstr s.1.filename) = some i)
    (hF : contents K s.1.uuid s.2.dev (entry s.2.dev i) = .ok F) : Reads K ctx s G ↔ F = G := by
  constructor
  · rintro ⟨⟨j, hj, hG⟩, -⟩
    obtain rfl : i = j := Option.mem_unique hf hj
    exact Except.ok.inj (hF.symm.trans hG)
  · rintro rfl
    refine ⟨⟨i, hf, hF⟩, fun pos len => ?_⟩
    have hends : Ends _ _ (rpmbFsRead K ctx noFaults pos len s) := rpmbFsRead_spec h hf hF s ⟨rfl, rfl⟩
    cases hr : rpmbFsRead K ctx noFaults pos len s with
    | ok r t =>
      rw [hr] at hends
      exact ⟨t, congrArg (EStateM.Result.ok · t) hends⟩
    | error e t =>
      rw [hr] at hends
      obtain ⟨k, f, hf, -⟩ := hends
      cases hf

theorem write_refines_byte_array {w : World} {s : Fh × World} (hK : Decrypts K) (hrel : 0 < ctx.relWrBlkcnt.toNat)
    (h : Layout ctx n w.dev) (hf : find ctx w.dev (cstr fh.filename) = some i)
    (hkey : (entry w.dev i).fek ≠ zeroBytes 16) (hF : contents K fh.uuid w.dev (entry w.dev i) = .ok F) (hb : b ≠ [])
    (hw : rpmbFsWritePrimitive K ctx φ pos b (fh, w) = .ok () s) :
    Reads K ctx s (patch F pos b) ↔ InPlace ctx (entry w.dev i) pos b.length ∨ NothingLost F pos b := by
  obtain ⟨hi, ⟨hactive, -⟩, -⟩ := h.find_eq_some.mp hf
  have hends : Ends _ _ (rpmbFsWritePrimitive K ctx φ pos b (fh, w)) := rpmbFsWritePrimitive_spec h hf hb (fh, w) ⟨rfl, rfl⟩
  rw [hw] at hends
  obtain ⟨d', hwrote, hfh, rfl⟩ := hends
  have hfind : find ctx s.2.dev (cstr s.1.filename) = some i := by
    rw [hfh, hwrote.find_eq h hi hactive hb]
    exact hf
  have hcont : contents K s.1.uuid s.2.dev (entry s.2.dev i) = .ok (overwritten ctx (entry w.dev i) F pos b) := by
    rw [hfh]
    exact hwrote.turns h hi hactive hb hK hkey F hF
  rw [reads_iff (hwrote.layout h hi hactive hb) hfind hcont, overwritten_eq_patch]

def toyFile : FatEntry := ⟨2560, 258, fileIsActive, 0, List.Vector.replicate 16 1, filenameField [47]⟩

def toyDisk : Device := fun b =>
  if b = 2 then toyFile.toBlock else if b = 3 then lastEntry.toBlock
  else if b = 11 then List.Vector.replicate 256 1 else zeroBytes 256

def toySmall : Ctx := { toyCtx with maxBlkIdx := 16 }

def toyHandle : Fh := ⟨filenameField [47], FatEntry.zero, 0, none⟩

def toyStart : World := ⟨toyDisk, 0, 0, []⟩

def toyBytes : List UInt8 := List.replicate 256 0 ++ [1, 1]

lemma toyDisk_contents : contents toyCrypto none toyDisk (entry toyDisk 0) = .ok toyBytes := by decide +kernel

lemma toyWrite_lost : decide (Ends (fun _ s => find toySmall s.2.dev (cstr s.1.filename) = some 0 ∧
    contents toyCrypto s.1.uuid s.2.dev (entry s.2.dev 0) ≠ .ok (patch toyBytes 0 (List.replicate 257 2))) (fun _ _ => False)
    (rpmbFsWritePrimitive toyCrypto toySmall noFaults 0 (List.replicate 257 2) (toyHandle, toyStart))) = true := by
  decide +kernel

theorem write_loses_byte : contents toyCrypto none toyDisk (entry toyDisk 0) = .ok toyBytes ∧ ∃ s,
    rpmbFsWritePrimitive toyCrypto toySmall noFaults 0 (List.replicate 257 2) (toyHandle, toyStart) = .ok () s ∧
      ¬Reads toyCrypto toySmall s (patch toyBytes 0 (List.replicate 257 2)) := by
  obtain ⟨_, s, hrun, hfind, hne⟩ := exists_ok_of_decide toyWrite_lost
  refine ⟨toyDisk_contents, s, hrun, ?_⟩
  rintro ⟨⟨i, hi, hG⟩, -⟩
  obtain rfl : 0 = i := Option.mem_unique hfind hi
  exact hne hG

lemma toyDisk_layout : Layout toySmall 1 toyDisk where
  going i hi := by
    obtain rfl : i = 0 := by omega
    decide +kernel
  last := by decide +kernel
  unused := by decide +kernel
  room := by decide
  placed i hi _ := by
    obtain rfl : i = 0 := by omega
    exact ⟨by decide +kernel, by decide +kernel, by decide +kernel⟩
  apart i j hi hj hne := absurd (by omega) hne

lemma toyWrite_appends : decide (Ends (fun _ _ => True) (fun _ _ => False)
    (rpmbFsWritePrimitive toyCrypto toySmall noFaults 258 [5] (toyHandle, toyStart))) = true := by decide +kernel

theorem write_refines_byte_array_appended : ∃ s,
    rpmbFsWritePrimitive toyCrypto toySmall noFaults 258 [5] (toyHandle, toyStart) = .ok () s ∧
      Reads toyCrypto toySmall s (patch toyBytes 258 [5]) := by
  have hlayout : Layout toySmall 1 toyStart.dev := toyDisk_layout
  have hF : contents toyCrypto toyHandle.uuid toyStart.dev (entry toyStart.dev 0) = .ok toyBytes := toyDisk_contents
  have hK : Decrypts toyCrypto := fun _ _ _ _ _ h => congrArg Except.ok (Except.ok.inj h).symm
  obtain ⟨_, s, hrun, -⟩ := exists_ok_of_decide toyWrite_appends
  exact ⟨s, hrun, (write_refines_byte_array hK (by decide) hlayout (by decide +kernel) (by decide +kernel) hF (by decide)
    hrun).mpr (.inr (by decide +kernel))⟩

end Optee.RpmbFs
