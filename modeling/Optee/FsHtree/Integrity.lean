import Optee.FsHtree.Hostile
import Optee.FsHtree.ToyCrypto

/-! Integrity of a tree that is opened with the root hash of a commit. -/

namespace Optee.FsHtree

open Lib.ByteStrings Lib.HeapTree Lib.Runs List Option Function TeeResult

variable {B : ℕ} {C : Crypto} {w w' : World B} {e : Event B} {log : List Sealed} {seen : List (Bytes 16)}
  {h : Handle B} {ht : Htree}

structure Sealing (C : Crypto) (log : List Sealed) (seen : List (Bytes 16)) (h : Handle B) : Prop where
  seen : ∀ j n, 0 < j → at? h.ht.root j = some n → n.node.iv ∈ seen
  block : ∀ num n b, at? h.ht.root (num + 1) = some n → h.blocks num = some b →
    ∃ key aad, (⟨B, key, n.node.iv, aad, b⟩ : Sealed) ∈ log ∧ (C.authEnc key n.node.iv aad b).2 = n.node.tag
  empty : ∀ num n, at? h.ht.root (num + 1) = some n → h.blocks num = none →
    ∀ e ∈ log, e.size = B → e.iv = n.node.iv → e.tag C ≠ n.node.tag
  beyond : ∀ num, h.ht.nodes ≤ num → h.blocks num = none

lemma Sealing.seal (hs : Sealing C log seen h) {e : Sealed} (hfresh : e.iv ∉ seen) :
    Sealing C (e :: log) (e.iv :: seen) h where
  seen j n hj hn := mem_cons_of_mem _ (hs.seen j n hj hn)
  block num n b hn hb := by
    obtain ⟨key, aad, hmem, htag⟩ := hs.block num n b hn hb
    exact ⟨key, aad, mem_cons_of_mem _ hmem, htag⟩
  empty num n hn hb e' he' hsize hiv := by
    rcases mem_cons.mp he' with rfl | he'
    · exact absurd (hiv ▸ hs.seen _ n num.succ_pos hn) hfresh
    · exact hs.empty num n hn hb e' he' hsize hiv
  beyond := hs.beyond

lemma Sealing.read_more (hs : Sealing C log seen h) (ivs : List (Bytes 16)) : Sealing C log (ivs ++ seen) h :=
  ⟨fun j n hj hn => mem_append_right _ (hs.seen j n hj hn), hs.block, hs.empty, hs.beyond⟩

lemma Sealing.of_at? (ht : Htree) (hs : Sealing C log seen ⟨ht, h.blocks⟩) (hnodes : h.ht.nodes = ht.nodes)
    (hat : ∀ j n', 0 < j → at? h.ht.root j = some n' →
      ∃ n, at? ht.root j = some n ∧ n.node.iv = n'.node.iv ∧ n.node.tag = n'.node.tag) : Sealing C log seen h where
  seen j n' hj hn' := by
    obtain ⟨n, hn, hiv, -⟩ := hat j n' hj hn'
    exact hiv ▸ hs.seen j n hj hn
  block num n' b hn' hb := by
    obtain ⟨n, hn, hiv, htag⟩ := hat _ n' num.succ_pos hn'
    rw [← hiv, ← htag]
    exact hs.block num n b hn hb
  empty num n' hn' hb := by
    obtain ⟨n, hn, hiv, htag⟩ := hat _ n' num.succ_pos hn'
    rw [← hiv, ← htag]
    exact hs.empty num n hn hb
  beyond num hle := hs.beyond num (hnodes ▸ hle)

lemma Sealing.synced (hs : Sealing C log seen h) (iv : Bytes 16) : Sealing C log seen ⟨h.ht.synced C iv, h.blocks⟩ := by
  refine Sealing.of_at? h.ht hs rfl (fun j n' _ hn' => ?_)
  obtain ⟨n, hn, hface⟩ := exists_at?_syncTree hn'
  simp only [HNode.face, Prod.mk.injEq] at hface
  exact ⟨n, hn, hface.2.1, hface.2.2.1⟩

lemma Sealing.setMeta (hs : Sealing C log seen h) (metadata : Meta) :
    Sealing C log seen ⟨setMeta h.ht metadata, h.blocks⟩ := by
  refine Sealing.of_at? h.ht hs rfl (fun j n' hj hn' => ?_)
  rw [at?_setMeta hj] at hn'
  split_ifs at hn'
  · obtain ⟨n, hn, rfl⟩ := map_eq_some_iff.mp hn'
    exact ⟨n, hn, rfl, rfl⟩
  · exact ⟨n', hn', rfl, rfl⟩

lemma Sealing.truncate (hs : Sealing C log seen h) (hw : h.ht.Wf) (blockNum : ℕ) : Sealing C log seen
    ⟨h.ht.shrunk (blockNum + 1), fun num => if num ≤ blockNum then h.blocks num else none⟩ := by
  have hat : ∀ j n, 0 < j → at? (h.ht.shrunk (blockNum + 1)).root j = some n →
      j ≤ blockNum + 1 ∧ at? h.ht.root j = some n := by
    intro j n hj hn
    rw [hw.at?_shrunk blockNum.succ_pos hj] at hn
    split_ifs at hn with hle
    exact ⟨hle, hn⟩
  refine ⟨fun j n hj hn => hs.seen j n hj (hat j n hj hn).2, fun num n b hn hb => ?_, fun num n hn hb => ?_,
    fun num hle => ?_⟩
  · obtain ⟨hle, hn⟩ := hat _ n num.succ_pos hn
    simp only [show num ≤ blockNum by omega, if_true] at hb
    exact hs.block num n b hn hb
  · obtain ⟨hle, hn⟩ := hat _ n num.succ_pos hn
    simp only [show num ≤ blockNum by omega, if_true] at hb
    exact hs.empty num n hn hb
  · rw [hw.nodes_shrunk blockNum.succ_pos] at hle
    change (if num ≤ blockNum then h.blocks num else none) = none
    split_ifs with hnum
    · exact hs.beyond num (by omega)
    · rfl

lemma Sealing.blockWritten (hs : Sealing C log seen h) (hw : h.ht.Wf) {num : ℕ} {block : Bytes B} {iv : Bytes 16}
    (hlt : num + 1 < 2 ^ 32 - 1) (hfresh : iv ∉ seen) (hzero : zeroBytes 16 ∈ seen)
    (hlog : ∀ e ∈ log, e.iv ≠ zeroBytes 16) :
    Sealing C (h.ht.sealedBlock block iv :: log) (iv :: seen)
      ⟨h.ht.blockWritten C num block iv, Function.update h.blocks num (some block)⟩ := by
  have hcase : ∀ j n', 0 < j → at? (h.ht.blockWritten C num block iv).root j = some n' →
      j = num + 1 ∧ n'.node.iv = iv ∧ n'.node.tag = (h.ht.sealedBlock block iv).tag C ∨
      j ≠ num + 1 ∧ (at? h.ht.root j = some n' ∨ h.ht.nodes < j ∧ n' = HNode.new j) := by
    intro j n' hj hn'
    rw [at?_blockWritten hj] at hn'
    split_ifs at hn' with hjn
    · obtain ⟨n, -, rfl⟩ := map_eq_some_iff.mp hn'
      exact Or.inl ⟨hjn, rfl, rfl⟩
    rw [hw.at?_ensure hlt hj] at hn'
    split_ifs at hn' with hnew
    · cases hn'
      exact Or.inr ⟨hjn, Or.inr ⟨hnew.1, rfl⟩⟩
    · exact Or.inr ⟨hjn, Or.inl hn'⟩
  have hold := hs.seal (e := h.ht.sealedBlock block iv) hfresh
  refine ⟨fun j n' hj hn' => ?_, fun k n' b hn' hb => ?_, fun k n' hn' hb => ?_, fun k hle => ?_⟩
  · rcases hcase j n' hj hn' with ⟨-, hiv, -⟩ | ⟨-, hn | ⟨-, rfl⟩⟩
    · rw [hiv]
      exact mem_cons_self
    · exact hold.seen j n' hj hn
    · exact mem_cons_of_mem _ hzero
  · rcases hcase _ n' k.succ_pos hn' with ⟨hk, hiv, htag⟩ | ⟨hk, hn⟩
    · obtain rfl : k = num := by omega
      simp only [update_self, Option.some.injEq] at hb
      subst hb
      rw [hiv, htag]
      exact ⟨_, _, mem_cons_self, rfl⟩
    · simp only [update_of_ne (show k ≠ num by omega)] at hb
      rcases hn with hn | ⟨hlt', rfl⟩
      · exact hold.block k n' b hn hb
      · rw [hs.beyond k (by omega)] at hb
        cases hb
  · rcases hcase _ n' k.succ_pos hn' with ⟨hk, -⟩ | ⟨hk, hn⟩
    · obtain rfl : k = num := by omega
      simp at hb
    · simp only [update_of_ne (show k ≠ num by omega)] at hb
      rcases hn with hn | ⟨-, rfl⟩
      · exact hold.empty k n' hn hb
      intro e he _ hiv
      rcases mem_cons.mp he with rfl | he
      · have hz : iv = zeroBytes 16 := hiv
        exact absurd (hz ▸ hzero) hfresh
      · exact absurd hiv (hlog e he)
  · rw [nodes_blockWritten hlt] at hle
    change Function.update h.blocks num (some block) k = none
    rw [update_of_ne (by omega)]
    exact hs.beyond k (by omega)

lemma mem_of_unsealed {n : NodeImage} {b : Bytes B} (h : unsealed C B log n = some b) :
    ∃ key aad, (⟨B, key, n.iv, aad, b⟩ : Sealed) ∈ log ∧ (C.authEnc key n.iv aad b).2 = n.tag := by
  obtain ⟨⟨size, key, iv, aad, plain⟩, he, hsome⟩ := exists_of_findSome?_eq_some h
  split_ifs at hsome with hsize hmatch
  obtain ⟨rfl, htag⟩ := hmatch
  cases hsize
  cases hsome
  exact ⟨key, aad, he, htag⟩

lemma not_mem_of_unsealed {n : NodeImage} (h : unsealed C B log n = none) :
    ∀ e ∈ log, e.size = B → e.iv = n.iv → e.tag C ≠ n.tag := by
  intro e he hsize hiv htag
  have hnone := findSome?_eq_none_iff.mp h e he
  simp [hsize, hiv, htag] at hnone

lemma Sealing.load (hw : ht.Wf) : Sealing C log (ht.ivs ++ seen)
    ⟨ht, fun num => (at? ht.root (num + 1)).bind (fun n => unsealed C B log n.node)⟩ where
  seen j n hj hn := by
    refine mem_append_left _ (mem_filterMap.mpr ⟨j, ?_, by rw [hn, map_some]⟩)
    have hle := (hw.full j hj).mp (by simp [hn])
    exact mem_range'_1.mpr ⟨hj, by omega⟩
  block num n b hn hb := by
    simp only [hn, bind_some] at hb
    exact mem_of_unsealed hb
  empty num n hn hb := by
    simp only [hn, bind_some] at hb
    exact not_mem_of_unsealed hb
  beyond num hle := by
    change ht.nodes ≤ num at hle
    have hnone : at? ht.root (num + 1) = none :=
      not_isSome_iff_eq_none.mp (fun hs => by have := (hw.full _ num.succ_pos).mp hs; omega)
    simp [hnone, bind_none]

lemma Sealing.new (uuid : Option Uuid) (fek : Bytes 16) (hzero : zeroBytes 16 ∈ seen)
    (hlog : ∀ e ∈ log, e.iv ≠ zeroBytes 16) :
    Sealing C log seen (⟨newHtree C uuid fek, fun _ => none⟩ : Handle B) := by
  have hiv : ∀ j n, 0 < j → at? (newHtree C uuid fek).root j = some n → n.node.iv = zeroBytes 16 := by
    intro j n hj hn
    have hshape : Shape (newHtree C uuid fek).root 1 := shape_leaf rfl
    have hle := (hshape.full j hj).mp (by simp [hn])
    obtain rfl : j = 1 := by omega
    cases hn
    rfl
  refine ⟨fun j n hj hn => ?_, fun num n b _ hb => (by cases hb), fun num n hn _ e he _ heq => ?_, fun _ _ => rfl⟩
  · rw [hiv j n hj hn]
    exact hzero
  · exact absurd (heq.trans (hiv _ n num.succ_pos hn)) (hlog e he)

structure World.Sealing (C : Crypto) (w : World B) : Prop where
  zero : zeroBytes 16 ∈ w.seen
  seen : ∀ e ∈ w.log, e.iv ∈ w.seen
  ne_zero : ∀ e ∈ w.log, e.iv ≠ zeroBytes 16
  nodup : (w.log.map Sealed.iv).Nodup
  handles : ∀ h ∈ w.handles, FsHtree.Sealing C w.log w.seen h
  commits : ∀ h ∈ w.commits, FsHtree.Sealing C w.log w.seen h

lemma World.Sealing.seal (hw : w.Sealing C) {e : Sealed} (hfresh : e.iv ∉ w.seen) : (w.seal e).Sealing C where
  zero := mem_cons_of_mem _ hw.zero
  seen e' he' := by
    rcases mem_cons.mp he' with rfl | he'
    · exact mem_cons_self
    · exact mem_cons_of_mem _ (hw.seen e' he')
  ne_zero e' he' hz := by
    rcases mem_cons.mp he' with rfl | he'
    · exact hfresh (hz ▸ hw.zero)
    · exact hw.ne_zero e' he' hz
  nodup := by
    refine nodup_cons.mpr ⟨fun hmem => ?_, hw.nodup⟩
    obtain ⟨e', he', hiv⟩ := mem_map.mp hmem
    exact hfresh (hiv ▸ hw.seen e' he')
  handles h hh := (hw.handles h hh).seal hfresh
  commits h hh := (hw.commits h hh).seal hfresh

lemma World.Sealing.put {i : ℕ} (hw : w.Sealing C) (hh : FsHtree.Sealing C w.log w.seen h) : (w.put i h).Sealing C where
  zero := hw.zero
  seen := hw.seen
  ne_zero := hw.ne_zero
  nodup := hw.nodup
  handles x hx := by
    rcases World.mem_put hx with hx | rfl
    · exact hw.handles x hx
    · exact hh
  commits := hw.commits

lemma World.Sealing.add (hw : w.Sealing C) (hh : FsHtree.Sealing C w.log w.seen h) : (w.add h).Sealing C where
  zero := hw.zero
  seen := hw.seen
  ne_zero := hw.ne_zero
  nodup := hw.nodup
  handles x hx := by
    rcases World.mem_add hx with hx | rfl
    · exact hw.handles x hx
    · exact hh
  commits := hw.commits

lemma World.Sealing.commit (hw : w.Sealing C) (hh : FsHtree.Sealing C w.log w.seen h) (hfresh : h.ht.head.iv ∉ w.seen) :
    (w.commit h).Sealing C := by
  have hseal := hw.seal (e := h.ht.sealedHead) hfresh
  refine ⟨hseal.zero, hseal.seen, hseal.ne_zero, hseal.nodup, hseal.handles, fun x hx => ?_⟩
  rcases mem_cons.mp hx with rfl | hx
  · exact hh.seal hfresh
  · exact hseal.commits x hx

lemma Step.sealing (hs : Step C w e w') (hshape : w.Shaped) (hfresh : e.Fresh w) (hw : w.Sealing C) : w'.Sealing C := by
  have hmem : ∀ {i : ℕ} {h : Handle B}, w.handles[i]? = some h → h.ht.Wf ∧ FsHtree.Sealing C w.log w.seen h :=
    fun hh => ⟨(hshape.handles _ (mem_of_getElem? hh)).1, hw.handles _ (mem_of_getElem? hh)⟩
  cases hs with
  | @create uuid fek iv h hh =>
    subst hh
    have hnew := (Sealing.new (C := C) (B := B) uuid fek hw.zero hw.ne_zero).synced iv
    exact (hw.commit hnew hfresh).add (hnew.seal hfresh)
  | @load f hash uuid ht v hc =>
    refine ⟨mem_append_right _ hw.zero, fun e he => mem_append_right _ (hw.seen e he), hw.ne_zero, hw.nodup,
      fun x hx => ?_, fun x hx => (hw.commits x hx).read_more _⟩
    rcases World.mem_add hx with hx | rfl
    · exact (hw.handles x hx).read_more _
    · exact Sealing.load hc.wf
  | @write i num block iv h hh hlt =>
    obtain ⟨hwf, hsealing⟩ := hmem hh
    exact (hw.seal (e := h.ht.sealedBlock block iv) hfresh).put
      (hsealing.blockWritten hwf hlt hfresh hw.zero hw.ne_zero)
  | setMeta hh => exact hw.put ((hmem hh).2.setMeta _)
  | truncate hh => exact hw.put ((hmem hh).2.truncate (hmem hh).1 _)
  | @sync i iv h h' hh hd hh' =>
    subst hh'
    have hsealing := (hmem hh).2.synced iv
    exact (hw.commit hsealing hfresh).put (hsealing.seal hfresh)
  | skip => exact hw

def World.Verified (C : Crypto) (w : World B) : Prop :=
  ∀ h ∈ w.commits, HashOk C (some h.ht.imeta.metadata) h.ht.root

lemma World.Verified.commit (hw : w.Verified C) (hh : HashOk C (some h.ht.imeta.metadata) h.ht.root) :
    (w.commit h).Verified C := by
  intro x hx
  rcases mem_cons.mp hx with rfl | hx
  · exact hh
  · exact hw x hx

lemma Step.verified (hs : Step C w e w') (hsound : e.Sound C w) (hw : w.Verified C) : w'.Verified C := by
  cases hs with
  | create hh =>
    subst hh
    refine hw.commit (hashOk_syncTree_iff.mpr ⟨fun h => ?_, trivial, trivial⟩)
    simp [touched_node] at h
  | load _ | write _ _ | setMeta _ | truncate _ | skip => exact hw
  | sync hh hd hh' =>
    subst hh'
    exact hw.commit (hashOk_syncTree_iff.mpr (hsound _ hh hd))

lemma World.start_shaped : (World.start : World B).Shaped :=
  ⟨fun _ hh => absurd hh not_mem_nil, fun _ hh => absurd hh not_mem_nil⟩

lemma World.start_sealing : (World.start : World B).Sealing C where
  zero := mem_singleton.mpr rfl
  seen _ he := absurd he not_mem_nil
  ne_zero _ he := absurd he not_mem_nil
  nodup := nodup_nil
  handles _ hh := absurd hh not_mem_nil
  commits _ hh := absurd hh not_mem_nil

def Unforged (C : Crypto) (log : List Sealed) (g : HostFile B) (ht : Htree) (num : ℕ) : Prop :=
  ∀ n (crypt b : Bytes B), at? ht.root (num + 1) = some n → g.read (.block num n.blockVersion) = some crypt →
    C.authDec ht.fek n.node.iv (nodeAad ht.head.encFek n.node.iv) crypt n.node.tag = some b →
    Produced C log ht.fek n.node.iv (nodeAad ht.head.encFek n.node.iv) crypt n.node.tag

lemma Produced.plain (hC : C.Correct) {key iv : Bytes 16} {aad : List UInt8} {n : ℕ} {crypt plain : Bytes n}
    {tag : Bytes 16} (h : Produced C log key iv aad crypt tag) (hdec : C.authDec key iv aad crypt tag = some plain) :
    ⟨n, key, iv, aad, plain⟩ ∈ log ∧ C.authEnc key iv aad plain = (crypt, tag) := by
  obtain ⟨plain', hmem, henc⟩ := h
  have hdec' := hC.authDec_authEnc key iv aad plain'
  rw [henc, hdec] at hdec'
  cases hdec'
  exact ⟨hmem, henc⟩

lemma Sealing.read (hC : C.Correct) (hs : Sealing C log seen h) (hnodup : (log.map Sealed.iv).Nodup) (hw : ht.Wf)
    (himages : SameImages ht h.ht) {g : HostFile B} {num : ℕ} {b : Bytes B} (hunforged : Unforged C log g ht num)
    (hread : readBlock C g ht num = .ok b) : h.blocks num = some b := by
  obtain ⟨n, crypt, hn, hcrypt, hdec⟩ := (readBlock_ok_iff hw).mp hread
  obtain ⟨hmem, henc⟩ := (hunforged n crypt b hn hcrypt hdec).plain hC hdec
  have himage := himages (num + 1) num.succ_pos
  rw [hn] at himage
  obtain ⟨n', hn', hnode⟩ := map_eq_some_iff.mp himage.symm
  have heq : n'.node = n.node := congrArg Prod.snd hnode
  cases hb : h.blocks num with
  | none =>
    refine absurd ?_ (hs.empty num n' hn' hb _ hmem rfl (by rw [heq]))
    rw [heq]
    exact congrArg Prod.snd henc
  | some b' =>
    obtain ⟨key, aad, hmem', -⟩ := hs.block num n' b' hn' hb
    rw [heq] at hmem'
    cases inj_on_of_nodup_map hnodup hmem hmem' rfl
    rfl

lemma World.shaped_of_run (hC : C.Correct) {es : List (Event B)} (hrun : run (World.step C) World.start es = .ok w) :
    w.Shaped := by
  have htrue : Along (World.step C) (fun _ _ => True) World.start es := Along.of_forall (fun _ _ => trivial)
  exact htrue.invariant hrun World.start_shaped (fun s e t hs _ hstep => (hs.step hC hstep).shaped hC hs)

theorem open_with_hash_binds (hC : C.Correct) (es : List (Event B)) (w : World B)
    (hrun : run (World.step C) World.start es = .ok w)
    (hfresh : Along (World.step C) (fun w e => e.Fresh w) World.start es)
    (hsound : Along (World.step C) (fun w e => e.Sound C w) World.start es)
    (K : Handle B) (hK : K ∈ w.commits) (f : HostFile B) (uuid : Option Uuid) (ht : Htree)
    (hopen : openHtree C f (some (rootHash K.ht.root)) uuid = .ok ht)
    (hinj : Set.InjOn C.digest (nodeInputs ht ∪ nodeInputs K.ht)) :
    ht.imeta.metadata = K.ht.imeta.metadata ∧ SameImages ht K.ht ∧
      ∀ (g : HostFile B) num b, Unforged C w.log g ht num → readBlock C g ht num = .ok b → K.blocks num = some b := by
  obtain ⟨hshape, hsealing, hverified⟩ : w.Shaped ∧ w.Sealing C ∧ w.Verified C := by
    refine (hfresh.and hsound).invariant (I := fun w => w.Shaped ∧ w.Sealing C ∧ w.Verified C) hrun
      ⟨World.start_shaped, World.start_sealing, fun _ hh => ?_⟩ ?_
    · exact absurd hh not_mem_nil
    · rintro s e t ⟨hs, hs', hs''⟩ ⟨hf, hsd⟩ hstep
      have h := hs.step hC hstep
      exact ⟨h.shaped hC hs, h.sealing hs hf hs', h.verified hsd hs''⟩
  obtain ⟨-, v, hpick, hc⟩ := openHtree_ok_iff.mp hopen
  have hroot : rootHash ht.root = rootHash K.ht.root := by
    rw [← rootImage_hash]
    obtain ⟨n₀, hn₀, ⟨hh, rfl⟩ | ⟨-, rfl, n₁, hn₁, hh⟩⟩ := hpick
    · rw [← hh, Option.some.inj (hc.read_root.symm.trans hn₀)]
    · rw [← hh, Option.some.inj (hc.read_root.symm.trans hn₁)]
  obtain ⟨hmeta, himages⟩ := same_of_rootHash hc.wf (hshape.commits K hK).1 hc.hashOk (hverified K hK) hinj hroot
  exact ⟨hmeta, himages, fun g num b hunforged hread =>
    (hsealing.commits K hK).read hC hsealing.nodup hc.wf himages hunforged hread⟩

def toyIv (k : ℕ) : Bytes 16 := ⟨leBytes 16 k, leBytes_length _ _⟩

def toyWrites (n : ℕ) : List (ℕ × Bytes 144 × Bytes 16) :=
  (List.range n).map (fun k => (k, zeroBytes 144, toyIv (2 + k)))

def toyStore (n : ℕ) : TeeResult (Session 144) := do
  let s ← Session.create toyCrypto none (zeroBytes 16) (toyIv 1)
  runRounds toyCrypto s [⟨(toyWrites n).map (fun x => .write x.1 x.2.1 x.2.2), toyIv 100⟩]

def toyHistory (n : ℕ) : List (Event 144) :=
  .create none (zeroBytes 16) (toyIv 1) :: (toyWrites n).map (fun x => .write 0 x.1 x.2.1 x.2.2) ++ [.sync 0 (toyIv 100)]

def toyRun (es : List (Event 144)) : TeeResult (World 144) := run (World.step toyCrypto) World.start es

lemma injOn_nodeInputs {ht' : Htree} (hw : ht.Wf) (hw' : ht'.Wf)
    (h : ∀ x ∈ ht.inputList ++ ht'.inputList, ∀ y ∈ ht.inputList ++ ht'.inputList, C.digest x = C.digest y → x = y) :
    Set.InjOn C.digest (nodeInputs ht ∪ nodeInputs ht') := by
  have hmem : ∀ x ∈ nodeInputs ht ∪ nodeInputs ht', x ∈ ht.inputList ++ ht'.inputList := by
    rintro x (hx | hx)
    · exact mem_append_left _ (hw.mem_nodeInputs hx)
    · exact mem_append_right _ (hw'.mem_nodeInputs hx)
  exact fun x hx y hy => h x (hmem x hx) y (hmem y hy)

def toyReplay (n : ℕ) (es : List (Event 144)) : TeeResult (Session 144 × World 144 × Handle 144 × Htree) := do
  let s ← toyStore n
  let w ← toyRun es
  let K ← orError .itemNotFound w.commits.head?
  let ht ← openHtree toyCrypto s.file (some (rootHash K.ht.root)) none
  assert (∀ x ∈ ht.inputList ++ K.ht.inputList, ∀ y ∈ ht.inputList ++ K.ht.inputList,
    toyCrypto.digest x = toyCrypto.digest y → x = y)
  pure (s, w, K, ht)

lemma toyReplay_ok {n : ℕ} {es : List (Event 144)} {s : Session 144} {w : World 144} {K : Handle 144}
    (h : toyReplay n es = .ok (s, w, K, ht)) : toyStore n = .ok s ∧ toyRun es = .ok w ∧ K ∈ w.commits ∧
      openHtree toyCrypto s.file (some (rootHash K.ht.root)) none = .ok ht ∧
      Set.InjOn toyCrypto.digest (nodeInputs ht ∪ nodeInputs K.ht) := by
  simp only [toyReplay, bind_eq_ok, orError_eq_ok, assert_eq_ok, pure, Except.pure] at h
  obtain ⟨s', hs, w', hw, K', hK, ht', hopen, _, hinj, hret⟩ := h
  cases hret
  have hmem : K ∈ w.commits := mem_of_head? hK
  obtain ⟨-, v, -, hc⟩ := openHtree_ok_iff.mp hopen
  exact ⟨hs, hw, hmem, hopen,
    injOn_nodeInputs hc.wf ((World.shaped_of_run toyCrypto_correct hw).commits K hmem).1 hinj⟩

theorem open_with_hash_binds_two_blocks : ∃ s w K ht, toyReplay 2 (toyHistory 2) = .ok (s, w, K, ht) ∧
    ht.imeta.metadata = K.ht.imeta.metadata ∧ SameImages ht K.ht := by
  obtain ⟨⟨s, w, K, ht⟩, hr⟩ : ∃ r, toyReplay 2 (toyHistory 2) = .ok r :=
    ⟨_, eq_ok_get _ (by decide +kernel)⟩
  obtain ⟨-, hw, hK, hopen, hinj⟩ := toyReplay_ok hr
  obtain ⟨hmeta, himages, -⟩ := open_with_hash_binds toyCrypto_correct (toyHistory 2) w hw (by decide +kernel)
    (by decide +kernel) K hK s.file none ht hopen hinj
  exact ⟨s, w, K, ht, hr, hmeta, himages⟩

theorem truncated_tree_replayed : ∃ s w K ht,
    toyReplay 4 (toyHistory 4 ++ [.truncate 0 0, .sync 0 (toyIv 101)]) = .ok (s, w, K, ht) ∧
      Along (World.step toyCrypto) (fun w e => e.Fresh w) World.start
        (toyHistory 4 ++ [.truncate 0 0, .sync 0 (toyIv 101)]) ∧ ¬ SameImages ht K.ht := by
  obtain ⟨⟨s, w, K, ht⟩, hr⟩ : ∃ r, toyReplay 4 (toyHistory 4 ++ [.truncate 0 0, .sync 0 (toyIv 101)]) = .ok r :=
    ⟨_, TeeResult.eq_ok_get _ (by decide +kernel)⟩
  have hnodes : (toyReplay 4 (toyHistory 4 ++ [.truncate 0 0, .sync 0 (toyIv 101)]) >>= fun r =>
      assert ((at? r.2.2.2.root 2).isSome ∧ (at? r.2.2.1.ht.root 2).isNone)).error? = none := by decide +kernel
  rw [hr] at hnodes
  obtain ⟨hsome, hnone⟩ := assert_eq_ok.mp (eq_ok_get _ hnodes)
  refine ⟨s, w, K, ht, hr, by decide +kernel, fun hsame => ?_⟩
  have heq := congrArg Option.isSome (hsame 2 two_pos)
  simp only [isSome_map, hsome, isNone_iff_eq_none.mp hnone] at heq
  cases heq

end Optee.FsHtree
