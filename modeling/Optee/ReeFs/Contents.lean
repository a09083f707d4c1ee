import Optee.FsHtree.Truncate
import Optee.ReeFs.File

/-! The contents of an open file as a byte array. -/

namespace Optee.ReeFs

open FsHtree Lib.ByteStrings Option TeeResult

variable {pos n : ℕ} {block : Bytes blockSize} {b : List UInt8}

lemma posToBlockNum_eq (h : pos < 2 ^ 31) : posToBlockNum pos = BitVec.ofNat 32 (pos / 4096) := by
  have hm : (BitVec.ofNat 32 pos).msb = false := by
    rw [BitVec.msb_eq_decide, BitVec.toNat_ofNat]
    simp only [decide_eq_false_iff_not]
    omega
  rw [posToBlockNum, BitVec.sshiftRight_eq_of_msb_false hm]
  apply BitVec.eq_of_toNat_eq
  rw [BitVec.toNat_ushiftRight, BitVec.toNat_ofNat, BitVec.toNat_ofNat, blockShift]
  omega

lemma toSize_ofNat (h : n < 2 ^ 31) : toSize (BitVec.ofNat 32 n) = n := by
  have hm : (BitVec.ofNat 32 n).msb = false := by
    rw [BitVec.msb_eq_decide, BitVec.toNat_ofNat]
    simp only [decide_eq_false_iff_not]
    omega
  rw [toSize, BitVec.signExtend_eq_setWidth_of_msb_false hm, BitVec.toNat_setWidth, BitVec.toNat_ofNat]
  omega

lemma toSize_posToBlockNum (h : pos < 2 ^ 31) : toSize (posToBlockNum pos) = pos / 4096 := by
  rw [posToBlockNum_eq h, toSize_ofNat (by omega)]

lemma readBlocks_eq {last : ℕ} (hp : pos < 2 ^ 31) (hl : last < 2 ^ 31) :
    readBlocks pos last = List.range' (pos / 4096) (last / 4096 + 1 - pos / 4096) := by
  have hint : ∀ n, n < 2 ^ 31 → (BitVec.ofNat 32 n).toInt = n := by
    intro n hn
    rw [BitVec.toInt_eq_toNat_of_lt, BitVec.toNat_ofNat]
    · omega
    · rw [BitVec.toNat_ofNat]
      omega
  rw [readBlocks, posToBlockNum_eq hp, posToBlockNum_eq hl, List.range'_eq_map_range]
  have hcount : ((BitVec.ofNat 32 (last / 4096)).toInt + 1 - (BitVec.ofNat 32 (pos / 4096)).toInt).toNat =
      last / 4096 + 1 - pos / 4096 := by
    rw [hint _ (by omega), hint _ (by omega)]
    omega
  simp only [hcount]
  apply List.map_congr_left
  intro n hn
  rw [List.mem_range] at hn
  rw [← BitVec.ofNat_add, toSize_ofNat (by omega)]

def BlockOf (F : List UInt8) (num : ℕ) (b : Bytes blockSize) : Prop :=
  ∀ i, i < blockSize → num * blockSize + i < F.length → b.toList.getD i 0 = F.getD (num * blockSize + i) 0

structure Agrees (C : Crypto) (fd : Fd) (F : List UInt8) : Prop where
  wf : fd.ht.Wf
  blocks : ∀ num, num * blockSize < F.length → ∃ b, BlockAt C fd.file fd.ht num b ∧ BlockOf F num b

variable {C : Crypto} {fd : Fd} {F : List UInt8}

lemma Agrees.covers (h : Agrees C fd F) : F.length ≤ fd.ht.nodes * blockSize := by
  by_contra hlt
  obtain ⟨b, ⟨n, crypt, hn, -⟩, -⟩ := h.blocks fd.ht.nodes (by omega)
  have := (h.wf.full _ fd.ht.nodes.add_one_pos).mp (by simp [hn])
  omega

lemma Agrees.writeBlock (h : Agrees C fd F) (hC : C.Correct) {num : ℕ} (hlt : num + 1 < 2 ^ 32 - 1) (iv : Bytes 16)
    {F' : List UInt8} (hself : BlockOf F' num block) (hother : ∀ j, j ≠ num → j * blockSize < F'.length →
      j * blockSize < F.length ∧ ∀ b, BlockOf F j b → BlockOf F' j b) :
    ∃ w, writeBlock C fd.ht num block iv = .ok (fd.ht.blockWritten C num block iv, [w]) ∧
      Agrees C ⟨fd.ht.blockWritten C num block iv, fd.file.writeAll [w]⟩ F' := by
  obtain ⟨n, hn, he⟩ := h.wf.writeBlock_eq (C := C) hlt block iv
  refine ⟨_, he, h.wf.blockWritten hlt, fun j hj => ?_⟩
  by_cases hjn : j = num
  · subst hjn
    exact ⟨block, blockAt_blockWritten_self hC hn, hself⟩
  · obtain ⟨hj', hmono⟩ := hother j hjn hj
    obtain ⟨b, hb, hbF⟩ := h.blocks j hj'
    exact ⟨b, hb.blockWritten_of_ne h.wf hlt hjn n, hmono b hbF⟩

lemma Agrees.oldBlock (h : Agrees C fd F) (num : ℕ) (hlen : fd.length ≤ 2 ^ 31) (hnum : num ≤ 2 ^ 31)
    (hF : fd.length ≤ F.length) (hcase : num * blockSize < fd.length ∨ F.length ≤ num * blockSize) :
    ∃ block, oldBlock C fd num = .ok block ∧ BlockOf F num block := by
  have hmod : num * blockSize % 2 ^ 64 = num * blockSize := by
    rw [blockSize_eq]
    omega
  simp only [ReeFs.oldBlock, hmod, lt_roundup_iff hlen]
  by_cases hlt : num * blockSize < fd.length
  · obtain ⟨b, hb, hbF⟩ := h.blocks num (by omega)
    rw [if_pos hlt]
    exact ⟨b, (readBlock_ok_iff h.wf).mpr hb, hbF⟩
  · rw [if_neg hlt]
    exact ⟨_, rfl, fun i _ hi => by omega⟩

lemma BlockOf.overlay (h : BlockOf F (pos / blockSize) block) (hpos : pos ≤ F.length) :
    BlockOf (patch F pos b) (pos / blockSize) (overlay block (pos % blockSize) b) := by
  intro i hi hx
  have hdiv := Nat.div_add_mod' pos blockSize
  rw [patch_length] at hx
  have h1 : pos / blockSize * blockSize + i < pos ↔ i < pos % blockSize := by omega
  have h2 : pos / blockSize * blockSize + i < pos + b.length ↔ i < pos % blockSize + b.length := by omega
  have h3 : pos / blockSize * blockSize + i - pos = i - pos % blockSize := by omega
  simp only [ReeFs.overlay, List.Vector.toList_mk, getD_resize, if_pos hi, getD_patch, h1, h2, h3]
  split_ifs with hlo hmid
  · exact h i hi (by omega)
  · rfl
  · exact h i hi (by omega)

lemma BlockOf.patch_of_ne (hpos : pos ≤ F.length) (hfit : pos % blockSize + b.length ≤ blockSize) {j : ℕ}
    (hj : j ≠ pos / blockSize) (hlt : j * blockSize < (patch F pos b).length) :
    j * blockSize < F.length ∧ ∀ c, BlockOf F j c → BlockOf (patch F pos b) j c := by
  have hdiv := Nat.div_add_mod' pos blockSize
  have hsep : j * blockSize + blockSize ≤ pos / blockSize * blockSize ∨
      pos / blockSize * blockSize + blockSize ≤ j * blockSize := by
    simp only [← Nat.succ_mul]
    rcases Nat.lt_or_gt_of_ne hj with hj | hj
    · exact Or.inl (Nat.mul_le_mul_right _ hj)
    · exact Or.inr (Nat.mul_le_mul_right _ hj)
  rw [patch_length] at hlt
  refine ⟨by omega, fun c hc i hi hx => ?_⟩
  rw [patch_length] at hx
  rw [getD_patch]
  split_ifs with h1 h2
  · exact hc i hi (by omega)
  · omega
  · exact hc i hi (by omega)

lemma sizeInBlock_eq (pos remain : ℕ) : sizeInBlock pos remain = min remain (blockSize - pos % blockSize) := by
  simp only [sizeInBlock]
  split_ifs <;> omega

def WriteLoop.rest (s : WriteLoop) : List UInt8 := s.data.elim (List.replicate s.remain 0) id

def WriteLoop.Sized (s : WriteLoop) : Prop := s.rest.length = s.remain

lemma WriteLoop.chunk_eq (s : WriteLoop) (hn : n ≤ s.remain) :
    s.data.elim (List.replicate n 0) (List.take n) = s.rest.take n := by
  cases hd : s.data with
  | none => simp [WriteLoop.rest, hd, hn]
  | some d => simp [WriteLoop.rest, hd]

structure WriteLoop.Inv (C : Crypto) (len : ℕ) (s : WriteLoop) (G : List UInt8) : Prop where
  agrees : Agrees C s.fd G
  length_eq : s.fd.length = len
  small : len ≤ 2 ^ 31
  sized : s.Sized
  reach : G.length = max len s.pos
  aligned : s.remain = 0 ∨ s.pos ≤ len ∨ s.pos % blockSize = 0
  last : s.pos + s.remain ≤ 2 ^ 31

variable {s : WriteLoop} {len : ℕ}

lemma WriteLoop.Inv.turn (h : s.Inv C len F) (hC : C.Correct) (hr : 0 < s.remain) (ivs : ℕ → Bytes 16) :
    ∃ s' block w, writeTurn C ivs s (s.pos / blockSize) = .ok s' ∧
      writeBlock C s.fd.ht (s.pos / blockSize) block (ivs (s.pos / blockSize)) = .ok (s'.fd.ht, [w]) ∧
      s'.fd.file = s.fd.file.writeAll [w] ∧ s'.writes = s.writes ++ [w] ∧
      s'.pos = s.pos + sizeInBlock s.pos s.remain ∧ s'.remain = s.remain - sizeInBlock s.pos s.remain ∧
      s'.rest = s.rest.drop (sizeInBlock s.pos s.remain) ∧
      s'.Inv C len (patch F s.pos (s.rest.take (sizeInBlock s.pos s.remain))) := by
  have hsize := sizeInBlock_eq s.pos s.remain
  generalize sizeInBlock s.pos s.remain = size at *
  have hoff := Nat.mod_lt s.pos (show 0 < blockSize by decide)
  have hdiv := Nat.div_add_mod' s.pos blockSize
  have hbs : blockSize = 4096 := rfl
  have hnum := Nat.div_le_self s.pos blockSize
  have hreach := h.reach
  have hsmall := h.small
  have hlast := h.last
  have hchunk : (s.rest.take size).length = size := by
    rw [List.length_take, h.sized]
    omega
  obtain ⟨block, hold, hblock⟩ := h.agrees.oldBlock (s.pos / blockSize)
    (by rw [h.length_eq]; exact h.small) (by omega) (by rw [h.length_eq]; omega)
    (by rw [h.length_eq]; have := h.aligned; omega)
  obtain ⟨w, hw, hagrees⟩ := h.agrees.writeBlock hC (by omega) (ivs (s.pos / blockSize))
    (hblock.overlay (by omega))
    (fun j hj hlt => BlockOf.patch_of_ne (by omega) (by rw [hchunk]; omega) hj hlt)
  refine ⟨⟨⟨_, s.fd.file.writeAll [w]⟩, s.pos + size, s.remain - size, s.data.map (List.drop size),
    s.writes ++ [w]⟩, _, w, ?_, hw, rfl, rfl, rfl, rfl, ?_, hagrees, ?_, hsmall, ?_, ?_, ?_, ?_⟩
  · have hsz : sizeInBlock s.pos s.remain = size := (sizeInBlock_eq _ _).trans hsize.symm
    simp only [writeTurn, hsz, hold, ok_bind, s.chunk_eq (n := size) (by omega), hw, pure, Except.pure]
    rfl
  · cases hd : s.data with
    | none | some d => simp [WriteLoop.rest, hd]
  · rw [← h.length_eq]
    simp [Fd.length]
  · have hs := h.sized
    cases hd : s.data with
    | none => simp [WriteLoop.Sized, WriteLoop.rest]
    | some d =>
      simp only [WriteLoop.Sized, WriteLoop.rest, hd, elim_some, id_eq, map_some,
        List.length_drop] at hs ⊢
      rw [hs]
  · rw [patch_length]
    show _ = max len (s.pos + size)
    omega
  · show s.remain - size = 0 ∨ s.pos + size ≤ len ∨ (s.pos + size) % blockSize = 0
    rw [hbs] at hsize ⊢
    omega
  · show s.pos + size + (s.remain - size) ≤ 2 ^ 31
    omega

variable {fd' fd'' : Fd} {ws us : List (HostWrite blockSize)}

def Steps (C : Crypto) (fd : Fd) (ws : List (HostWrite blockSize)) (fd' : Fd) : Prop :=
  ∃ cs, runChanges C fd.ht cs = .ok (fd'.ht, ws) ∧ NoSkip fd.ht.nodes cs ∧ fd'.file = fd.file.writeAll ws

lemma Steps.refl (C : Crypto) (fd : Fd) : Steps C fd [] fd := ⟨[], rfl, trivial, rfl⟩

lemma Steps.trans (hw : fd.ht.Wf) (h : Steps C fd ws fd') (h' : Steps C fd' us fd'') : Steps C fd (ws ++ us) fd'' := by
  obtain ⟨cs, hrun, hskip, hfile⟩ := h
  obtain ⟨ds, hrun', hskip', hfile'⟩ := h'
  refine ⟨cs ++ ds, runChanges_append hrun hrun', ?_, ?_⟩
  · have hn := runChanges_nodes (c := ⟨⟨0⟩, fun _ => none, fd.ht.nodes⟩) hw hrun rfl
    rw [hn.2] at hskip'
    exact noSkip_append.mpr ⟨hskip, hskip'⟩
  · rw [hfile', hfile, HostFile.writeAll_append]

lemma Steps.write {num : ℕ} {iv : Bytes 16} (hle : num ≤ fd.ht.nodes)
    (h : writeBlock C fd.ht num block iv = .ok (fd'.ht, ws)) (hfile : fd'.file = fd.file.writeAll ws) :
    Steps C fd ws fd' := by
  refine ⟨[.write num block iv], ?_, ⟨hle, trivial⟩, hfile⟩
  simp [runChanges, Change.run, h, ok_bind, pure, Except.pure, List.append_nil]

lemma Steps.setLength (fd : Fd) (n : ℕ) : Steps C fd [] (fd.setLength n) :=
  ⟨[.setMeta ⟨UInt64.ofNat n⟩], rfl, trivial, rfl⟩

lemma WriteLoop.Inv.loop (h : s.Inv C len F) (hC : C.Correct) (hr : 0 < s.remain) (ivs : ℕ → Bytes 16) {k : ℕ}
    (hk : (s.pos + s.remain - 1) / blockSize + 1 = s.pos / blockSize + k) :
    ∃ s' ws, (List.range' (s.pos / blockSize) k).foldlM (writeTurn C ivs) s = .ok s' ∧
      s'.pos = s.pos + s.remain ∧ s'.writes = s.writes ++ ws ∧ Steps C s.fd ws s'.fd ∧
      s'.Inv C len (patch F s.pos s.rest) ∧
      s'.fd.ht.nodes ≤ max s.fd.ht.nodes ((s.pos + s.remain - 1) / blockSize + 1) := by
  have hbs : blockSize = 4096 := rfl
  induction k generalizing s F with
  | zero => rw [hbs] at hk; omega
  | succ k ih =>
    have hsize := sizeInBlock_eq s.pos s.remain
    obtain ⟨s1, block, w, hturn, hwrite, hfile, hws, hpos, hrem, hrest, hinv⟩ := h.turn hC hr ivs
    have hnum : s.pos / blockSize ≤ s.fd.ht.nodes := by
      have := h.agrees.covers
      have := h.reach
      rw [hbs] at *
      omega
    have hstep : Steps C s.fd [w] s1.fd := Steps.write hnum hwrite hfile
    have hnodes : s1.fd.ht.nodes = max s.fd.ht.nodes (s.pos / blockSize + 1) := by
      obtain ⟨n, -, he⟩ := h.agrees.wf.writeBlock_eq (writeBlock_lt hwrite) block (ivs (s.pos / blockSize))
      rw [he] at hwrite
      simp only [Except.ok.injEq, Prod.mk.injEq] at hwrite
      rw [← hwrite.1, nodes_blockWritten]
      have := h.last
      rw [hbs]
      omega
    rw [List.range'_succ, List.foldlM_cons, hturn]
    by_cases hend : s1.remain = 0
    · have hk0 : k = 0 := by rw [hbs] at *; omega
      subst hk0
      have hall : s.rest.take (sizeInBlock s.pos s.remain) = s.rest :=
        List.take_of_length_le (by rw [h.sized]; omega)
      rw [hall] at hinv
      refine ⟨s1, [w], rfl, by omega, hws, hstep, hinv, ?_⟩
      omega
    · have hnext : s1.pos / blockSize = s.pos / blockSize + 1 := by rw [hbs] at *; omega
      obtain ⟨s2, us, hloop, hpos2, hws2, hsteps, hinv2, hnodes2⟩ := ih hinv (by omega)
        (by rw [hnext]; rw [hbs] at *; omega)
      rw [hnext] at hloop
      have hlen : (s.rest.take (sizeInBlock s.pos s.remain)).length = sizeInBlock s.pos s.remain := by
        rw [List.length_take, h.sized]
        omega
      have hpatch : patch (patch F s.pos (s.rest.take (sizeInBlock s.pos s.remain))) s1.pos s1.rest =
          patch F s.pos s.rest := by
        have := patch_patch F s.pos (s.rest.take (sizeInBlock s.pos s.remain)) s1.rest
        rw [hlen, ← hpos] at this
        rw [this, hrest, List.take_append_drop]
      rw [hpatch] at hinv2
      refine ⟨s2, [w] ++ us, hloop, by omega, by rw [hws2, hws, List.append_assoc],
        hstep.trans h.agrees.wf hsteps, hinv2, ?_⟩
      rw [hbs] at *
      omega

structure Stores (C : Crypto) (fd : Fd) (F : List UInt8) : Prop extends Agrees C fd F where
  length_eq : fd.length = F.length
  small : F.length ≤ 2 ^ 31

lemma Agrees.setLength (h : Agrees C fd F) (n : ℕ) : Agrees C (fd.setLength n) F where
  wf := h.wf.setMeta
  blocks num hnum := by
    obtain ⟨b, hb, hbF⟩ := h.blocks num hnum
    exact ⟨b, hb.setMeta, hbF⟩

lemma setLength_length (h : n ≤ 2 ^ 31) : (fd.setLength n).length = n := by
  exact UInt64.toNat_ofNat_of_lt' (h.trans_lt (by decide))

def bufBytes (buf : Option (List UInt8)) (len : ℕ) : List UInt8 := buf.elim (List.replicate len 0) id

lemma Stores.outOfPlaceWrite (h : Stores C fd F) (hC : C.Correct) (pos : ℕ) (hpos : pos ≤ F.length)
    (buf : Option (List UInt8)) (len : ℕ) (hbuf : (bufBytes buf len).length = len) (hlen : 0 < len)
    (hlast : pos + len ≤ 2 ^ 31) (ivs : ℕ → Bytes 16) :
    ∃ fd' ws, outOfPlaceWrite C fd pos buf len ivs = .ok (fd', ws) ∧
      Stores C fd' (patch F pos (bufBytes buf len)) ∧ Steps C fd ws fd' ∧
      fd'.ht.nodes ≤ max fd.ht.nodes ((pos + len - 1) / blockSize + 1) := by
  have hsmall := h.small
  have hinv : WriteLoop.Inv C fd.length ⟨fd, pos, len, buf, []⟩ F := by
    refine ⟨h.toAgrees, rfl, by rw [h.length_eq]; exact h.small, hbuf, ?_, Or.inr (Or.inl ?_), hlast⟩
    · rw [h.length_eq, max_eq_left hpos]
    · rw [h.length_eq]
      exact hpos
  obtain ⟨s, ws, hloop, hend, hws, hsteps, hs, hnodes⟩ :=
    hinv.loop hC hlen ivs (k := (pos + len - 1) / blockSize + 1 - pos / blockSize)
      (Nat.add_sub_of_le (by
        show pos / blockSize ≤ (pos + len - 1) / blockSize + 1
        have := Nat.div_le_div_right (c := blockSize) (show pos ≤ pos + len - 1 by omega)
        omega)).symm
  simp only [List.nil_append] at hws
  simp only at hend hsteps hnodes hloop
  have hrun : ReeFs.outOfPlaceWrite C fd pos buf len ivs =
      .ok (if s.pos > s.fd.length then s.fd.setLength s.pos else s.fd, ws) := by
    rw [ReeFs.outOfPlaceWrite, toSize_posToBlockNum (by omega), toSize_posToBlockNum (by omega),
      if_neg (by omega)]
    simp [← blockSize_eq, hloop, ok_bind, hws, pure, Except.pure]
  have hpl : (patch F pos (bufBytes buf len)).length = max F.length (pos + len) := by
    rw [patch_length, hbuf]
  rw [hrun, hs.length_eq, h.length_eq, hend]
  split_ifs with hgt
  · refine ⟨_, ws, rfl, ⟨hs.agrees.setLength _, ?_, by omega⟩, ?_, hnodes⟩
    · rw [setLength_length hlast, hpl]
      omega
    · have := hsteps.trans h.wf (Steps.setLength s.fd (pos + len))
      rwa [List.append_nil] at this
  · refine ⟨_, ws, rfl, ⟨hs.agrees, ?_, by omega⟩, hsteps, hnodes⟩
    rw [hs.length_eq, h.length_eq, hpl]
    omega

lemma patch_zeros (h : F.length ≤ n) : patch F F.length (List.replicate (n - F.length) 0) = resize F n := by
  apply ext_getD
  · simp only [patch_length, List.length_replicate, resize_length]
    omega
  · intro i hi
    simp only [patch_length, List.length_replicate] at hi
    simp only [getD_patch, getD_resize, getD_replicate]
    split_ifs <;> first | rfl | omega | exact (getD_of_length_le (by omega)).symm

def shrunkFd (fd : Fd) (n : ℕ) : Fd :=
  Fd.setLength ⟨fd.ht.shrunk (n / blockSize + 1), fd.file.truncate (truncateAt (roundup n / blockSize))⟩ n

lemma ftruncateInternal_shrink (hw : fd.ht.Wf) (hn : n ≤ fd.length) (ivs : ℕ → Bytes 16) :
    ftruncateInternal C fd n ivs = .ok (shrunkFd fd n, [.truncate (truncateAt (roundup n / blockSize))]) := by
  rw [ftruncateInternal, if_neg (by omega), hw.truncateHtree]
  rfl

theorem host_layout_collision_free (w : ℕ) :
    (∀ s t : Slot, (getOffsSize blockSize s).1 < 2 ^ w → (getOffsSize blockSize t).1 < 2 ^ w → s ≠ t →
      ∀ x, (offsSize w s).1 ≤ x → x < (offsSize w s).1 + (offsSize w s).2 →
        ¬((offsSize w t).1 ≤ x ∧ x < (offsSize w t).1 + (offsSize w t).2)) ∧
    ∀ (ht ht' : Htree) (newLen id : ℕ) (v : Bool), ht.Wf → newLen < 2 ^ 63 →
      truncateAt ((newLen + 4095) / 4096) < 2 ^ w → truncateHtree ht (newLen / blockSize) = .ok ht' →
      0 < id → (Lib.HeapTree.at? ht'.root id).isSome →
      (offsSize w (.node (id - 1) v)).1 + (offsSize w (.node (id - 1) v)).2 ≤ rpcLength w newLen ∧
        (offsSize w (.block (id - 1) v)).1 + (offsSize w (.block (id - 1) v)).2 ≤ rpcLength w newLen := by
  constructor
  · intro s t hs ht hne x hlo hhi hx
    rw [offsSize_eq hs] at hlo hhi
    rw [offsSize_eq ht] at hx
    exact hne (slot_disjoint ⟨hlo, hhi⟩ hx)
  · intro ht ht' newLen id v hwf hlen hcut htrunc hid hkept
    rw [hwf.truncateHtree] at htrunc
    cases htrunc
    have hle : id - 1 ≤ newLen / 4096 := by
      have := ((hwf.isSome_shrunk (Nat.succ_pos _) hid).mp hkept).1
      rw [blockSize_eq] at this
      omega
    have hnode : (Slot.node (id - 1) v).stop blockSize ≤ truncateAt ((newLen + 4095) / 4096) := stop_node_le (by omega) v
    have hblock : (Slot.block (id - 1) v).stop blockSize ≤ truncateAt ((newLen + 4095) / 4096) :=
      stop_block_le (by omega) v
    rw [rpcLength_eq hlen hcut, offsSize_stop (hnode.trans_lt hcut), offsSize_stop (hblock.trans_lt hcut)]
    exact ⟨hnode, hblock⟩

def rootOnly : Htree := ⟨leaf (HNode.new 1), HeadImage.zero, zeroBytes 16, Imeta.zero, true, none⟩

theorem host_layout_second_group :
    ¬((offsSize 64 (.block 30 true)).1 ≤ 63 * 4096 ∧
      63 * 4096 < (offsSize 64 (.block 30 true)).1 + (offsSize 64 (.block 30 true)).2) ∧
    (offsSize 64 (.node 0 true)).1 + (offsSize 64 (.node 0 true)).2 ≤ rpcLength 64 0 := by
  constructor
  · exact (host_layout_collision_free 64).1 (.node 31 false) (.block 30 true) (by decide) (by decide) (by decide)
      (63 * 4096) (by decide) (by decide)
  · have hkept : (Lib.HeapTree.at? rootOnly.root 1).isSome := rfl
    exact ((host_layout_collision_free 64).2 rootOnly rootOnly 0 1 true (shape_leaf rfl) (by decide) (by decide) rfl
      (by decide) hkept).1

lemma Stores.shrunk (h : Stores C fd F) (hn : n ≤ F.length) : Stores C (shrunkFd fd n) (resize F n) := by
  have hsmall := h.small
  have hround := roundup_div (n := n) (by omega)
  refine ⟨Agrees.setLength ⟨h.wf.shrunk (Nat.succ_pos _), fun num hnum => ?_⟩ n, ?_, ?_⟩
  · rw [resize_length] at hnum
    obtain ⟨b, hb, hbF⟩ := h.blocks num (by omega)
    refine ⟨b, hb.shrunk h.wf ?_ (fun v x hx => HostFile.read_truncate hx (stop_block_le ?_ v)), fun i hi hx => ?_⟩
    · rw [blockSize_eq] at *
      omega
    · rw [blockSize_eq] at hnum
      omega
    · rw [resize_length] at hx
      rw [getD_resize, if_pos hx]
      exact hbF i hi (by omega)
  · rw [resize_length]
    exact setLength_length (by omega)
  · rw [resize_length]
    omega

lemma Stores.grow (h : Stores C fd F) (hC : C.Correct) (hn : F.length < n) (hlast : n ≤ 2 ^ 31) (ivs : ℕ → Bytes 16) :
    ∃ fd' ws, ftruncateInternal C fd n ivs = .ok (fd', ws.map .write) ∧ Stores C fd' (resize F n) ∧
      Steps C fd ws fd' ∧ fd'.ht.nodes ≤ max fd.ht.nodes ((n - 1) / blockSize + 1) := by
  obtain ⟨fd', ws, hrun, hst, hsteps, hnodes⟩ := h.outOfPlaceWrite hC F.length le_rfl none
    (n - F.length) List.length_replicate (by omega) (by omega) ivs
  rw [show F.length + (n - F.length) = n by omega] at hnodes
  refine ⟨fd', ws, ?_, ?_, hsteps, hnodes⟩
  · rw [ftruncateInternal, h.length_eq, if_pos (by omega), hrun]
    rfl
  · have hp := patch_zeros hn.le
    rwa [bufBytes, elim_none, hp] at hst

lemma Stores.writePrimitive (h : Stores C fd F) (hC : C.Correct) {buf : List UInt8} (hbuf : buf ≠ [])
    (hlast : pos + buf.length ≤ 2 ^ 31) (ivs : ℕ → ℕ → Bytes 16) :
    ∃ fd' ws, writePrimitive C fd pos buf ivs = .ok (fd', ws.map .write) ∧ Stores C fd' (patch F pos buf) ∧
      Steps C fd ws fd' ∧ fd'.ht.nodes ≤ max fd.ht.nodes ((pos + buf.length - 1) / blockSize + 1) := by
  have hlen : 0 < buf.length := List.length_pos_of_ne_nil hbuf
  by_cases hgap : F.length < pos
  · obtain ⟨fd1, ws, hrun1, hst1, hsteps1, hnodes1⟩ := h.grow hC hgap (by omega) (ivs 0)
    obtain ⟨fd2, us, hrun2, hst2, hsteps2, hnodes2⟩ := hst1.outOfPlaceWrite hC pos
      (by rw [resize_length]) (some buf) buf.length rfl hlen hlast (ivs 1)
    refine ⟨fd2, ws ++ us, ?_, ?_, hsteps1.trans h.wf hsteps2, ?_⟩
    · rw [ReeFs.writePrimitive, if_neg hlen.ne', if_neg (by omega), if_pos (by rwa [h.length_eq]), hrun1]
      simp [ok_bind, hrun2, pure, Except.pure, List.map_append]
    · convert hst2 using 1
      apply ext_getD
      · simp only [patch_length, resize_length, bufBytes, elim_some, id_eq]
        omega
      · intro i _
        simp only [getD_patch, getD_resize, bufBytes, elim_some, id_eq]
        split_ifs <;> first | rfl | exact getD_of_length_le (by omega)
    · have := Nat.div_le_div_right (c := blockSize) (show pos - 1 ≤ pos + buf.length - 1 by omega)
      omega
  · obtain ⟨fd2, us, hrun2, hst2, hsteps2, hnodes2⟩ := h.outOfPlaceWrite hC pos (by omega)
      (some buf) buf.length rfl hlen hlast (ivs 1)
    refine ⟨fd2, us, ?_, hst2, hsteps2, hnodes2⟩
    rw [ReeFs.writePrimitive, if_neg hlen.ne', if_neg (by omega), if_neg (by rwa [h.length_eq])]
    simp [pure, Except.pure, ok_bind, hrun2, List.nil_append]

lemma BlockOf.slice {size : ℕ} {b : Bytes blockSize} (h : BlockOf F (pos / blockSize) b)
    (hfit : pos % blockSize + size ≤ blockSize) (hlast : pos + size ≤ F.length) :
    slice b.toList (pos % blockSize) size = slice F pos size := by
  have hdiv := Nat.div_add_mod' pos blockSize
  apply ext_getD
  · simp only [slice_length, List.Vector.toList_length]
    omega
  · intro i hi
    simp only [slice_length, List.Vector.toList_length] at hi
    rw [getD_slice, getD_slice, if_pos (by omega), if_pos (by omega), h _ (by omega) (by omega)]
    congr 1
    omega

lemma Agrees.readLoop (h : Agrees C fd F) {remain k : ℕ} {out : List UInt8} (hr : 0 < remain)
    (hlast : pos + remain ≤ F.length) (hk : (pos + remain - 1) / blockSize + 1 = pos / blockSize + k) :
    (List.range' (pos / blockSize) k).foldlM (readTurn C fd) ⟨pos, remain, out⟩ =
      .ok ⟨pos + remain, 0, out ++ slice F pos remain⟩ := by
  have hbs : blockSize = 4096 := rfl
  induction k generalizing pos remain out with
  | zero => rw [hbs] at hk; omega
  | succ k ih =>
    have hsize := sizeInBlock_eq pos remain
    have hoff := Nat.mod_lt pos (show 0 < blockSize by decide)
    obtain ⟨b, hb, hbF⟩ := h.blocks (pos / blockSize)
      (lt_of_le_of_lt (Nat.div_mul_le_self pos blockSize) (by omega))
    have hturn : readTurn C fd ⟨pos, remain, out⟩ (pos / blockSize) =
        .ok ⟨pos + sizeInBlock pos remain, remain - sizeInBlock pos remain,
          out ++ slice F pos (sizeInBlock pos remain)⟩ := by
      simp only [readTurn, (readBlock_ok_iff h.wf).mpr hb, ok_bind, pure, Except.pure]
      rw [hbF.slice (by omega) (by omega)]
    rw [List.range'_succ, List.foldlM_cons, hturn, ok_bind]
    generalize sizeInBlock pos remain = size at *
    by_cases hend : remain = size
    · have hk0 : k = 0 := by rw [hbs] at *; omega
      subst hk0
      subst hend
      rw [Nat.sub_self]
      rfl
    · have hnext : (pos + size) / blockSize = pos / blockSize + 1 := by rw [hbs] at *; omega
      have hloop := @ih (pos + size) (remain - size) (out ++ Lib.ByteStrings.slice F pos size)
        (by omega) (by omega) (by rw [hnext]; rw [hbs] at *; omega)
      rw [hnext] at hloop
      have hsum : size + (remain - size) = remain := by omega
      rw [hloop, List.append_assoc, slice_append_slice (by omega), add_assoc, hsum]


lemma Stores.readPrimitive (h : Stores C fd F) (hlast : pos + len < 2 ^ 64) :
    readPrimitive C fd pos len = .ok (min len (F.length - pos), slice F pos len) := by
  have hsmall := h.small
  have hremain : (if (pos + len) % 2 ^ 64 < len ∨ pos > fd.length then 0
      else if (pos + len) % 2 ^ 64 > fd.length then fd.length - pos else len) = min len (F.length - pos) := by
    rw [h.length_eq, Nat.mod_eq_of_lt hlast]
    split_ifs <;> omega
  simp only [ReeFs.readPrimitive, hremain]
  split_ifs with h0
  · rw [h0]
    have hnil : slice F pos len = [] := List.eq_nil_of_length_eq_zero (by rw [slice_length, h0])
    rw [hnil]
    rfl
  · rw [readBlocks_eq (by omega) (by omega), ← blockSize_eq]
    have hmono := Nat.div_le_div_right (c := blockSize) (show pos ≤ pos + min len (F.length - pos) - 1 by omega)
    rw [h.readLoop (F := F) (by omega) (by omega) (by omega), ok_bind, List.nil_append]
    have hcut : slice F pos (min len (F.length - pos)) = slice F pos len := by
      rw [slice, slice, ← List.length_drop, List.take_eq_take_iff]
      omega
    rw [hcut]
    rfl

end Optee.ReeFs
