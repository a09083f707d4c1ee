import Optee.ReeFs.ByteArray
import Optee.ReeFs.Shrink

/-! Crashes while a file is being shrunk. -/

namespace Optee.ReeFs

open FsHtree Lib.ByteStrings List TeeResult HostFile

inductive StoreEffect
  | data (e : Effect)
  | commitDir (hash : Bytes 32)

structure Store where
  file : HostFile blockSize
  hash : Bytes 32

def StoreEffect.apply (s : Store) : StoreEffect → Store
  | .data e => { s with file := e.apply s.file }
  | .commitDir hash => { s with hash }

def Store.after (s : Store) (es : List StoreEffect) : Store := es.foldl StoreEffect.apply s

def reeFsTruncate (C : Crypto) (d : DataFile) (newLen : ℕ) (ivs : ℕ → Bytes 16) (iv : Bytes 16) :
    TeeResult (DataFile × List StoreEffect) := do
  let (d, es) ← truncateFile C d newLen ivs iv
  pure (d, es.map .data ++ [.commitDir d.hash])

variable {C : Crypto} {d : DataFile} {F G : List UInt8} {newLen : ℕ} {iv : Bytes 16}

def blockCount (len : ℕ) : ℕ := (len + blockSize - 1) / blockSize

variable {f : HostFile blockSize} {es : List StoreEffect} {d' : DataFile}

lemma OnDisk.frame {f' : HostFile blockSize} {ht : Htree} {v : Bool} (h : OnDisk C f v ht)
    (hnode : ∀ idx u x, idx < ht.nodes → f.read (.node idx u) = some x → f'.read (.node idx u) = some x)
    (hhead : f'.read (.head v) = some ht.head) : OnDisk C f' v ht := by
  refine ⟨h.wf, h.clean, h.notDirty, ?_, hhead, h.verified⟩
  obtain ⟨hroot, hrest⟩ := holds_one_iff.mp h.stored
  refine holds_one_iff.mpr ⟨fun m hm _ => hnode _ _ _ h.wf.pos (hroot m hm trivial), fun j m hj hm _ => ?_⟩
  obtain ⟨q, hq, hr⟩ := hrest j m hj hm trivial
  have hle := (h.wf.full j (by omega)).mp (by simp [hm])
  exact ⟨q, hq, hnode _ _ _ (by omega) hr⟩

def truncatedFile (d : DataFile) (newLen : ℕ) : DataFile := ⟨⟨d.fd.ht, d.fd.file.truncate (cutAt newLen)⟩, d.hash⟩

lemma Kept.truncated (h : Kept C d F) (hlen : newLen ≤ F.length)
    (hblocks : blockCount F.length ≤ blockCount newLen + 1) : Kept C (truncatedFile d newLen) F := by
  have hsmall := h.stores.small
  have hround := roundup_div (n := newLen) (by omega)
  have hbounded := h.bounded
  simp only [blockCount, blockSize_eq] at hblocks hbounded
  refine ⟨⟨⟨h.stores.wf, fun num hnum => ?_⟩, h.stores.length_eq, hsmall⟩, ⟨OnDisk.frame h.committed.toOnDisk ?_ ?_,
    h.committed.hashOk⟩, fun hv => ?_, h.hash, h.bounded⟩
  · obtain ⟨b, hb, hbF⟩ := h.stores.blocks num hnum
    refine ⟨b, hb.mono (fun n hn => ⟨n, hn, rfl⟩) rfl rfl (fun n _ x hx => read_truncate hx ?_), hbF⟩
    rw [blockSize_eq] at hnum
    exact stop_block_le (by omega) _
  · intro idx u x hidx hx
    change idx < d.fd.ht.nodes at hidx
    refine read_truncate hx ?_
    exact stop_node_le (by omega) u
  · exact read_truncate h.committed.head (stop_head_le _ _)
  · obtain ⟨n, hn, hother⟩ := h.anchored hv
    refine ⟨n, read_truncate hn (stop_node_le (Nat.zero_le _) _), fun hh => ?_⟩
    obtain ⟨himage, head, hhead, hrest⟩ := hother hh
    exact ⟨himage, head, read_truncate hhead (stop_head_le _ _), hrest⟩

lemma Kept.overwritten (h : Kept C d F) {us : List (HostWrite blockSize)} {image : NodeImage}
    (hus : ∀ w ∈ us, w.1 = .node 0 (!d.fd.ht.version) ∨ w.1 = .head (!d.fd.ht.version))
    (hread : (d.fd.file.writeAll us).read (.node 0 (!d.fd.ht.version)) = some image)
    (hne : image.hash ≠ rootHash d.fd.ht.root) : Kept C ⟨⟨d.fd.ht, d.fd.file.writeAll us⟩, d.hash⟩ F := by
  refine ⟨⟨⟨h.stores.wf, fun num hnum => ?_⟩, h.stores.length_eq, h.stores.small⟩,
    h.committed.writeAll (fun w hw => ?_), fun hv => ?_, h.hash, h.bounded⟩
  · obtain ⟨b, hb, hbF⟩ := h.stores.blocks num hnum
    refine ⟨b, hb.mono (fun n hn => ⟨n, hn, rfl⟩) rfl rfl (fun n _ x hx =>
      read_writeAll (fun w hw he => ?_) hx), hbF⟩
    rcases hus w hw with h' | h' <;> rw [h'] at he <;> cases he
  · rcases hus w hw with h' | h' <;> rw [h']
    · exact ⟨not_uses_self one_pos, by simp⟩
    · refine ⟨fun hu => ?_, by simp⟩
      have := (hu.under one_pos).le
      simp [Slot.nodeId] at this
  · rw [hv] at hread
    exact ⟨image, hread, fun hh => absurd hh hne⟩

lemma Kept.opened_imeta (h : Kept C d F) {ht : Htree}
    (hopen : openHtree C (d.fd.file.truncate (cutAt newLen)) (some d.hash) d.fd.ht.uuid = .ok ht) :
    ht.imeta = d.fd.ht.imeta := by
  obtain ⟨hu, v, hpick, hc⟩ := openHtree_ok_iff.mp hopen
  have hkeep : ∀ {u : Bool} {x : HeadImage}, d.fd.file.read (.head u) = some x →
      (d.fd.file.truncate (cutAt newLen)).read (.head u) = some x :=
    fun hx => read_truncate hx (stop_head_le _ _)
  have hroot : ∀ {u : Bool} {x : NodeImage}, d.fd.file.read (.node 0 u) = some x →
      (d.fd.file.truncate (cutAt newLen)).read (.node 0 u) = some x :=
    fun hx => read_truncate hx (stop_node_le (Nat.zero_le _) _)
  -- it is enough that root hash and head are verified alike
  have hsame : ∀ head : HeadImage, ht.head = head → rootHash ht.root = rootHash d.fd.ht.root →
      verifyRoot C d.fd.ht.uuid (rootHash d.fd.ht.root) head = .ok (d.fd.ht.fek, d.fd.ht.imeta) →
      ht.imeta = d.fd.ht.imeta := by
    intro head hhead hrh hver
    have hver' := hc.verified
    rw [hu, hhead, hrh, hver] at hver'
    exact (Prod.mk.inj (Except.ok.inj hver')).2.symm
  have hold := hroot h.committed.read_root
  by_cases hv : v = d.fd.ht.version
  · rw [hv] at hc
    refine hsame d.fd.ht.head ?_ ?_ h.committed.verified
    · exact Option.some.inj (hc.head.symm.trans (hkeep h.committed.head))
    · rw [← rootImage_hash, ← rootImage_hash, Option.some.inj (hc.read_root.symm.trans hold)]
  · obtain ⟨n, hn, hcase⟩ := hpick
    rw [h.hash] at hcase
    cases hv' : d.fd.ht.version with
    | false =>
      rw [hv'] at hold hv
      rw [hold] at hn
      cases hn
      rcases hcase with ⟨-, rfl⟩ | ⟨hne, -⟩
      · exact absurd rfl hv
      · exact absurd (rootImage_hash _) hne
    | true =>
      obtain ⟨m, hm, hother⟩ := h.anchored hv'
      rw [hroot hm] at hn
      cases hn
      rcases hcase with ⟨hh, rfl⟩ | ⟨-, rfl, -⟩
      · obtain ⟨himage, head, hhead, -, -, hver⟩ := hother hh
        refine hsame head ?_ ?_ hver
        · exact Option.some.inj (hc.head.symm.trans (hkeep hhead))
        · rw [← hh, ← rootImage_hash, Option.some.inj (hc.read_root.symm.trans (hroot hm))]
      · exact absurd hv'.symm hv

lemma blockCount_of_restores (h : Kept C d F) (hlen : newLen < F.length)
    (hr : Restores C (d.fd.file.truncate (cutAt newLen)) d.hash d.fd.ht.uuid F) :
    blockCount F.length ≤ blockCount newLen + 1 := by
  have hsmall := h.stores.small
  have hround := roundup_div (n := newLen) (by omega)
  have hcut : cutAt newLen = truncateAt ((newLen + 4095) / 4096) := by rw [cutAt, hround]
  by_contra hbad
  simp only [blockCount, blockSize_eq] at hbad
  obtain ⟨ht, hopen, hl, hread⟩ := hr
  obtain ⟨-, v, -, hc⟩ := openHtree_ok_iff.mp hopen
  have hwhole := hread 0 F.length (by omega)
  rw [← hl] at hwhole
  have hst := stores_of_read hc.wf (by rw [hl]; exact hsmall) hwhole
  obtain ⟨b, ⟨n, crypt, -, hcrypt, -⟩, -⟩ := hst.blocks ((newLen + 4095) / 4096 + 1) (by
    rw [← hst.length_eq, hl, blockSize_eq]
    omega)
  have hgone : (d.fd.file.truncate (cutAt newLen)).read (.block ((newLen + 4095) / 4096 + 1) n.blockVersion) = none := by
    refine Lib.SlotFile.read_truncate_beyond (Slot.stop blockSize) ?_
    rw [hcut, truncateAt, stop_block, stop_block, Bool.toNat_true]
    omega
  rw [hgone] at hcrypt
  cases hcrypt

lemma Kept.reeFsTruncate_eq (h : Kept C d F) (hlen : newLen ≤ F.length) (ivs : ℕ → Bytes 16) (iv : Bytes 16) :
    reeFsTruncate C d newLen ivs iv = .ok (cutFile C d newLen iv,
      [.data (.truncate (cutAt newLen)),
        .data (.write (rpcWriteNode 1 (!d.fd.ht.version) (rootImage (cutFile C d newLen iv).fd.ht.root))),
        .data (.write (rpcWriteHead (!d.fd.ht.version) (cutFile C d newLen iv).fd.ht.head)),
        .commitDir (cutFile C d newLen iv).hash]) := by
  rw [reeFsTruncate, h.truncateFile_eq hlen, h.cutTrace_eq]
  rfl

def ShrinkIsAtomic (C : Crypto) (d : DataFile) (es : List StoreEffect) (newLen : ℕ) (F : List UInt8) : Prop :=
  ∀ us, us <+: es → ∀ s, s = Store.after ⟨d.fd.file, d.hash⟩ us →
    Restores C s.file s.hash d.fd.ht.uuid F ∨ Restores C s.file s.hash d.fd.ht.uuid (F.take newLen)

lemma Kept.hash_cut_ne (h : Kept C d F) (hlen : newLen < F.length)
    (hinj : NoRootCollision C d.fd.ht (cutFile C d newLen iv).fd.ht) :
    (cutFile C d newLen iv).hash ≠ rootHash d.fd.ht.root := by
  intro hh
  obtain ⟨-, -, himeta⟩ := h.cut_same_hash hlen.le hinj hh
  have hl := (h.stores_cut hlen.le iv).length_eq
  rw [Fd.length, himeta, resize_length] at hl
  have hl' := h.stores.length_eq
  rw [Fd.length] at hl'
  omega

lemma Kept.crash (h : Kept C d F) (hC : C.Correct) (hlen : newLen < F.length)
    (hinj : NoRootCollision C d.fd.ht (cutFile C d newLen iv).fd.ht)
    (hblocks : blockCount F.length ≤ blockCount newLen + 1)
    (hsafe : OnlyRootLosesChildren d.fd.ht.nodes (newLen / blockSize + 1)) (ivs : ℕ → Bytes 16)
    (hrun : reeFsTruncate C d newLen ivs iv = .ok (d', es)) : ShrinkIsAtomic C d es newLen F := by
  rw [h.reeFsTruncate_eq hlen.le] at hrun
  cases hrun
  have htake : F.take newLen = resize F newLen := by
    rw [resize, extend, take_append_of_le_length hlen.le]
  have hne := h.hash_cut_ne hlen hinj
  have hcut := h.truncated hlen.le hblocks
  have hroot : ((truncatedFile d newLen).fd.file.writeAll [rpcWriteNode 1 (!d.fd.ht.version)
      (rootImage (cutFile C d newLen iv).fd.ht.root)]).read (.node 0 (!d.fd.ht.version)) =
        some (rootImage (cutFile C d newLen iv).fd.ht.root) := read_writeAll_last _ [] _
  have hhash : (rootImage (cutFile C d newLen iv).fd.ht.root).hash ≠ rootHash (truncatedFile d newLen).fd.ht.root := by
    rwa [rootImage_hash]
  intro us hus s hs
  subst hs
  rw [htake]
  rcases prefix_cons_iff.mp hus with rfl | ⟨us1, rfl, hus1⟩
  · exact Or.inl h.restores
  rcases prefix_cons_iff.mp hus1 with rfl | ⟨us2, rfl, hus2⟩
  · exact Or.inl hcut.restores
  rcases prefix_cons_iff.mp hus2 with rfl | ⟨us3, rfl, hus3⟩
  · exact Or.inl (hcut.overwritten (fun w hw => Or.inl (by rw [mem_singleton.mp hw]; rfl)) hroot hhash).restores
  rcases prefix_cons_iff.mp hus3 with rfl | ⟨us4, rfl, hus4⟩
  · have hread : (HostFile.writeAll _ [rpcWriteHead (!d.fd.ht.version) (cutFile C d newLen iv).fd.ht.head]).read _ =
        some _ := read_writeAll (by simp [rpcWriteHead]) hroot
    rw [← writeAll_append] at hread
    refine Or.inl (hcut.overwritten (fun w hw => ?_) hread hhash).restores
    simp only [singleton_append, mem_cons, not_mem_nil, or_false] at hw
    rcases hw with rfl | rfl
    · exact Or.inl rfl
    · exact Or.inr rfl
  · rw [prefix_nil.mp hus4]
    have hk : Kept C (cutFile C d newLen iv) (resize F newLen) := h.cut hC hlen.le hsafe hinj
    have hr := hk.restores
    have huuid : (cutFile C d newLen iv).fd.ht.uuid = d.fd.ht.uuid := shrunk_uuid
    rw [huuid, cutFile, h.cutTrace_eq] at hr
    exact Or.inr hr

lemma Kept.of_crash (h : Kept C d F) (hC : C.Correct) (hlen : newLen < F.length)
    (hinj : Set.InjOn C.digest (nodeInputs d.fd.ht ∪ nodeInputs (cutFile C d newLen iv).fd.ht)) (ivs : ℕ → Bytes 16)
    (hrun : reeFsTruncate C d newLen ivs iv = .ok (d', es)) (hatomic : ShrinkIsAtomic C d es newLen F) :
    blockCount F.length ≤ blockCount newLen + 1 ∧
      OnlyRootLosesChildren d.fd.ht.nodes (newLen / blockSize + 1) := by
  rw [h.reeFsTruncate_eq hlen.le] at hrun
  cases hrun
  constructor
  · rcases hatomic [_] (prefix_append [_] _) _ rfl with hr | hr
    · exact blockCount_of_restores h hlen hr
    · obtain ⟨ht, hopen, hl, -⟩ := hr
      have himeta := h.opened_imeta hopen
      have hl' := h.stores.length_eq
      rw [Fd.length] at hl hl'
      rw [himeta, length_take] at hl
      omega
  · have hopens : ∃ ht, openHtree C (cutFile C d newLen iv).fd.file (some (cutFile C d newLen iv).hash)
        d.fd.ht.uuid = .ok ht := by
      rw [cutFile, h.cutTrace_eq]
      rcases hatomic _ prefix_rfl _ rfl with hr | hr
      all_goals
        obtain ⟨ht, hopen, -⟩ := hr
        exact ⟨ht, hopen⟩
    obtain ⟨ht, hopen⟩ := hopens
    exact h.opens_cut hC hlen.le hinj hopen

theorem shrink_crash_atomic (hC : C.Correct) (uuid : Option Uuid) (fek iv₀ : Bytes 16)
    (head attr data : List UInt8) (ivs₀ : ℕ → ℕ → ℕ → Bytes 16) (iv₁ : Bytes 16) (d₀ : DataFile) (es₀ : List Effect)
    (hcreate : createFile C uuid fek iv₀ head attr data ivs₀ iv₁ = .ok (d₀, es₀))
    (hsize : head.length + attr.length + data.length ≤ 2 ^ 31) (ops : List FileOp) (d : DataFile)
    (hrun : runFile C d₀ ops = .ok d) (hrange : ∀ op ∈ ops, op.InRange) (hsafe : SafeRun C d₀ ops)
    (newLen : ℕ) (hlen : newLen < d.fd.length) (ivs : ℕ → Bytes 16) (iv : Bytes 16) (d' : DataFile)
    (es : List StoreEffect) (htrunc : reeFsTruncate C d newLen ivs iv = .ok (d', es))
    (hinj : Set.InjOn C.digest (runInputs C d₀ (ops ++ [.truncate newLen ivs iv])))
    (hzero : ∀ d₁ es₁, emptyFile C uuid fek iv₀ = .ok (d₁, es₁) → C.digest (rootInput d₁.fd.ht) ≠ zeroBytes 32) :
    ShrinkIsAtomic C d es newLen (fileContents (head ++ attr ++ data) ops) ↔
      blockCount d.fd.length ≤ blockCount newLen + 1 ∧
        OnlyRootLosesChildren d.fd.ht.nodes (newLen / blockSize + 1) := by
  obtain ⟨h₀, -⟩ := Kept.create hC hcreate hsize hzero
  obtain ⟨h, -⟩ := h₀.run hC hrange hsafe hrun (hinj.mono (runInputs_append _))
  rw [h.stores.length_eq] at hlen ⊢
  have hlast : (FileOp.truncate newLen ivs iv).run C d = .ok (cutFile C d newLen iv) := by
    rw [FileOp.run, h.truncateFile_eq hlen.le]
    rfl
  have hlt : nodeInputs d.fd.ht ⊆ runInputs C d₀ (ops ++ [.truncate newLen ivs iv]) :=
    fun x hx => runInputs_append _ ⟨ops.length, d, by rwa [take_length], hx⟩
  have hlt' := runInputs_last hrun hlast
  constructor
  · exact h.of_crash hC hlen (hinj.mono (Set.union_subset hlt hlt')) ivs htrunc
  · rintro ⟨hblocks, hcut⟩
    exact h.crash hC hlen (noRootCollision hinj h.committed.wf hlt hlt') hblocks hcut ivs htrunc

def toyTruncate (d : DataFile) (newLen : ℕ) : TeeResult (DataFile × List StoreEffect) :=
  reeFsTruncate toyCrypto d newLen (fun _ => zeroBytes 16) (zeroBytes 16)

lemma toyTruncate_run (h : toyTruncate d newLen = .ok (d', es)) :
    (FileOp.truncate newLen (fun _ => zeroBytes 16) (zeroBytes 16)).run toyCrypto d = .ok d' := by
  simp only [toyTruncate, reeFsTruncate, bind_eq_ok, pure, Except.pure, Prod.exists] at h
  obtain ⟨d1, es1, h, he⟩ := h
  cases he
  rw [FileOp.run, h]
  rfl

theorem shrink_crash_atomic_within_block : ∃ r r', toyFile [1, 2, 3] = .ok r ∧ toyTruncate r.1 2 = .ok r' ∧
    ShrinkIsAtomic toyCrypto r.1 r'.2 2 [1, 2, 3] := by
  have hcreate := eq_ok_get (toyFile [1, 2, 3]) (by decide +kernel)
  have hshrink := eq_ok_get (toyTruncate ((toyFile [1, 2, 3]).get (by decide +kernel)).1 2)
    (by decide +kernel)
  refine ⟨_, _, hcreate, hshrink, ?_⟩
  exact (shrink_crash_atomic toyCrypto_correct none _ _ [] [] [1, 2, 3] _ _ _ _ hcreate (by decide) [] _ rfl
    (by simp) trivial 2 (by decide +kernel) _ _ _ _ hshrink
    (injOn_roots (by decide +kernel) (by decide +kernel) (by decide +kernel) (by decide +kernel)
      (toyTruncate_run hshrink) (by decide +kernel)) toyEmpty_ne_zero).mpr
    ⟨by decide +kernel, Or.inl (by decide +kernel)⟩

lemma not_restores {hash : Bytes 32} {uuid : Option Uuid} {e : TeeError} (pos len : ℕ) (hlen : pos + len < 2 ^ 64)
    (h : (openHtree C f (some hash) uuid >>= fun ht => readPrimitive C ⟨ht, f⟩ pos len).error? = some e) :
    ¬ Restores C f hash uuid F := by
  rintro ⟨ht, hopen, -, hread⟩
  rw [hopen] at h
  exact ne_ok_of_error? h _ (hread pos len hlen)

def threeBlocks : List UInt8 := List.replicate 12288 0

theorem shrink_three_blocks_crash : ∃ r r', toyFile threeBlocks = .ok r ∧ toyTruncate r.1 1 = .ok r' ∧
    ¬ ShrinkIsAtomic toyCrypto r.1 r'.2 1 threeBlocks := by
  refine ⟨_, _, eq_ok_get (toyFile threeBlocks) (by decide +kernel),
    eq_ok_get _ (by decide +kernel), fun hatomic => ?_⟩
  rcases hatomic _ ( take_prefix 1 _) _ rfl with hr | hr
  all_goals exact not_restores (e := .corruptObject) 8192 1 (by decide) (by decide +kernel) hr

end Optee.ReeFs
