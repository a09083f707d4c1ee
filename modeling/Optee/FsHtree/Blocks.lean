import Optee.FsHtree.Open

/-! Writing a block changes one node of the tree and one slot of the file; reading a block depends on
one node and one slot. -/

namespace Optee.FsHtree

open Lib.ByteStrings Lib.HeapTree Option TeeResult

variable {B : ℕ} {C : Crypto} {P : HNode → Prop} {f : HostFile B} {ht : Htree}

def BlockAt (C : Crypto) (f : HostFile B) (ht : Htree) (num : ℕ) (b : Bytes B) : Prop :=
  ∃ (n : HNode) (crypt : Bytes B), at? ht.root (num + 1) = some n ∧
    f.read (.block num n.blockVersion) = some crypt ∧
    C.authDec ht.fek n.node.iv (nodeAad ht.head.encFek n.node.iv) crypt n.node.tag = some b

variable {b : Bytes B} {root : BinaryTree HNode} {g : HNode → HNode}

lemma readBlock_ok_iff (h : ht.Wf) {num : ℕ} : readBlock C f ht num = .ok b ↔ BlockAt C f ht num b := by
  by_cases hn : num + 1 ≤ ht.nodes
  · simp only [readBlock, getBlockNode, h.getNode_of_le (num.add_one_pos) hn, ok_bind, nodeAt,
      bind_eq_ok, orError_eq_ok, BlockAt, HNode.blockVersion]
    constructor
    · rintro ⟨n, hn, crypt, hc, hd⟩
      exact ⟨n, crypt, hn, hc, hd⟩
    · rintro ⟨n, crypt, hn, hc, hd⟩
      exact ⟨n, hn, crypt, hc, hd⟩
  · refine iff_of_false (fun hr => ?_) ?_
    · rw [readBlock, getBlockNode, bind_eq_ok] at hr
      obtain ⟨ht', hg, -⟩ := hr
      by_cases hlt : num + 1 < 2 ^ 32 - 1
      · rw [h.getNode_above (by omega) hlt] at hg
        cases hg
      have hf : findClosestNode ht.root (num + 1) = .error .panic := by
        simp only [findClosestNode, nodeIdToLevel, assert]
        rw [if_neg (by omega)]
        rfl
      rw [getNode, hf] at hg
      cases hg
    · rintro ⟨n, -, ha, -⟩
      exact hn ((h.full _ (num.add_one_pos)).mp (by simp [ha]))

lemma BlockAt.mono {f' : HostFile B} {ht' : Htree} {num : ℕ} (h : BlockAt C f ht num b)
    (hface : ∀ n, at? ht.root (num + 1) = some n → ∃ n', at? ht'.root (num + 1) = some n' ∧ n'.face = n.face)
    (hfek : ht'.fek = ht.fek) (henc : ht'.head.encFek = ht.head.encFek)
    (hread : ∀ n : HNode, at? ht.root (num + 1) = some n → ∀ x, f.read (.block num n.blockVersion) = some x →
      f'.read (.block num n.blockVersion) = some x) : BlockAt C f' ht' num b := by
  obtain ⟨n, crypt, hn, hc, hd⟩ := h
  obtain ⟨n', hn', hf⟩ := hface n hn
  simp only [HNode.face, Prod.mk.injEq] at hf
  obtain ⟨-, hiv, htag, hv⟩ := hf
  refine ⟨n', crypt, hn', ?_, ?_⟩
  · rw [hv]; exact hread n hn crypt hc
  · rw [hfek, henc, hiv, htag]; exact hd

def HNode.written (n : HNode) (iv tag : Bytes 16) : HNode :=
  { n.nextBlock with
    dirty := true, blockUpdated := true, node := { n.nextBlock.node with iv := iv, tag := tag } }

@[simp] lemma written_id (n : HNode) (iv tag : Bytes 16) : (n.written iv tag).id = n.id := by
  unfold HNode.written HNode.nextBlock; split_ifs <;> rfl

@[simp] lemma written_childVersion (n : HNode) (iv tag : Bytes 16) (b : Bool) :
    (n.written iv tag).childVersion b = n.childVersion b := by
  have h : (n.written iv tag).childVersion b = n.nextBlock.childVersion b := rfl
  rw [h, HNode.nextBlock]
  split_ifs
  · rfl
  · rw [HNode.childVersion, NodeImage.version_flip _ committedBlock_lt]; simp [HNode.childVersion]

@[simp] lemma written_blockVersion (n : HNode) (iv tag : Bytes 16) :
    (n.written iv tag).blockVersion = (n.blockVersion ^^ !n.blockUpdated) := by
  have h : (n.written iv tag).blockVersion = n.nextBlock.blockVersion := rfl
  rw [h, HNode.nextBlock]
  split_ifs with hu
  · simp [hu]
  · rw [HNode.blockVersion, NodeImage.version_flip _ committedBlock_lt]; simp [HNode.blockVersion, hu]

def Htree.blockWritten (C : Crypto) (ht : Htree) (num : ℕ) (block : Bytes B) (iv : Bytes 16) : Htree :=
  let tag := (C.authEnc ht.fek iv (nodeAad ht.head.encFek iv) block).2
  { ht.ensure (num + 1) with
    dirty := true
    root := updateNode (num + 1) (fun n => n.written iv tag) (ht.ensure (num + 1)).root }

def blockWrite (C : Crypto) (ht : Htree) (num : ℕ) (block : Bytes B) (iv : Bytes 16) (n : HNode) :
    HostWrite B :=
  let enc := C.authEnc ht.fek iv (nodeAad ht.head.encFek iv) block
  ⟨.block num (n.written iv enc.2).blockVersion, enc.1⟩

@[simp] lemma ensure_fek (ht : Htree) (nodeId : ℕ) : (ht.ensure nodeId).fek = ht.fek := by
  unfold Htree.ensure; split_ifs <;> rfl

@[simp] lemma ensure_head (ht : Htree) (nodeId : ℕ) : (ht.ensure nodeId).head = ht.head := by
  unfold Htree.ensure; split_ifs <;> rfl

@[simp] lemma ensure_uuid (ht : Htree) (nodeId : ℕ) : (ht.ensure nodeId).uuid = ht.uuid := by
  unfold Htree.ensure; split_ifs <;> rfl

@[simp] lemma ensure_metadata (ht : Htree) (nodeId : ℕ) : (ht.ensure nodeId).imeta.metadata = ht.imeta.metadata := by
  unfold Htree.ensure; split_ifs <;> rfl

lemma modify_congr {i : ℕ} {n : HNode} (hi : 0 < i) {k : HNode → HNode} (h : at? root i = some n) (hg : g n = k n) :
    updateNode i g root = updateNode i k root := by
  apply ext_at?
  intro j hj
  rw [updateNode, updateNode, at?_modify _ _ hi hj, at?_modify _ _ hi hj]
  split_ifs with hji
  · subst hji; rw [h, map_some, map_some, hg]
  · rfl

lemma Htree.Wf.writeBlock_eq (h : ht.Wf) {num : ℕ} (hlt : num + 1 < 2 ^ 32 - 1) (block : Bytes B)
    (iv : Bytes 16) : ∃ n, at? (ht.ensure (num + 1)).root (num + 1) = some n ∧
      writeBlock C ht num block iv = .ok (ht.blockWritten C num block iv, [blockWrite C ht num block iv n]) := by
  have hw := h.ensure hlt
  have hle : num + 1 ≤ (ht.ensure (num + 1)).nodes := by rw [nodes_ensure hlt]; exact le_max_right _ _
  obtain ⟨n, hn, -⟩ := hw.at?_isSome (num.add_one_pos) hle
  refine ⟨n, hn, ?_⟩
  simp only [writeBlock, getBlockNode, h.getNode_create (num.add_one_pos) hlt, ok_bind, nodeAt, hn,
    orError_some, pure, Except.pure, ensure_fek, ensure_head]
  have hroot := modify_congr (g := fun _ => n.written iv (C.authEnc ht.fek iv (nodeAad ht.head.encFek iv) block).2)
    (k := fun n => n.written iv (C.authEnc ht.fek iv (nodeAad ht.head.encFek iv) block).2)
    (num.add_one_pos) hn rfl
  simp only [Htree.blockWritten, ← hroot, ensure_fek, ensure_head]
  rfl

variable {num : ℕ} {block : Bytes B} {iv : Bytes 16}

lemma at?_blockWritten {j : ℕ} (hj : 0 < j) : at? (ht.blockWritten C num block iv).root j =
    if j = num + 1 then (at? (ht.ensure (num + 1)).root j).map (fun n => n.written iv
      (C.authEnc ht.fek iv (nodeAad ht.head.encFek iv) block).2)
    else at? (ht.ensure (num + 1)).root j :=
  at?_modify _ _ (num.add_one_pos) hj

@[simp] lemma blockWritten_fek : (ht.blockWritten C num block iv).fek = ht.fek := by
  simp [Htree.blockWritten]

@[simp] lemma blockWritten_head : (ht.blockWritten C num block iv).head = ht.head := by
  simp [Htree.blockWritten]

@[simp] lemma blockWritten_uuid : (ht.blockWritten C num block iv).uuid = ht.uuid := by
  simp [Htree.blockWritten]

@[simp] lemma blockWritten_metadata : (ht.blockWritten C num block iv).imeta.metadata = ht.imeta.metadata := by
  simp [Htree.blockWritten]

lemma nodes_blockWritten (hlt : num + 1 < 2 ^ 32 - 1) :
    (ht.blockWritten C num block iv).nodes = max ht.nodes (num + 1) := nodes_ensure hlt

lemma Shape.updateNode {m i : ℕ} (h : Shape root m) (hi : 0 < i) (hg : ∀ n, (g n).id = n.id) :
    Shape (updateNode i g root) m where
  full := h.full.modify hi
  ids := by
    intro j n hj hn
    rw [FsHtree.updateNode, at?_modify _ _ hi hj] at hn
    split_ifs at hn with hji
    · obtain ⟨n', hn', rfl⟩ := map_eq_some_iff.mp hn
      rw [hg]
      exact h.ids j n' hj hn'
    · exact h.ids j n hj hn
  pos := h.pos
  lt := h.lt

lemma Htree.Wf.blockWritten (h : ht.Wf) (hlt : num + 1 < 2 ^ 32 - 1) : (ht.blockWritten C num block iv).Wf :=
  (h.ensure hlt).updateNode (num.add_one_pos) (fun n => written_id n _ _)

lemma blockAt_blockWritten_self (hC : C.Correct) {n : HNode}
    (hn : at? (ht.ensure (num + 1)).root (num + 1) = some n) :
    BlockAt C (f.writeAll [blockWrite C ht num block iv n]) (ht.blockWritten C num block iv) num block := by
  refine ⟨n.written iv (C.authEnc ht.fek iv (nodeAad ht.head.encFek iv) block).2, _, ?_,
    HostFile.read_writeAll_last f [] (blockWrite C ht num block iv n), ?_⟩
  · rw [at?_blockWritten (num.add_one_pos), if_pos rfl, hn]
    rfl
  · rw [blockWritten_fek, blockWritten_head]
    exact hC.authDec_authEnc _ _ _ _

lemma BlockAt.blockWritten_of_ne (h : ht.Wf) (hlt : num + 1 < 2 ^ 32 - 1) {num' : ℕ} (hne : num' ≠ num)
    (hb : BlockAt C f ht num' b) (n : HNode) :
    BlockAt C (f.writeAll [blockWrite C ht num block iv n]) (ht.blockWritten C num block iv) num' b := by
  refine hb.mono (fun m hm => ⟨m, ?_, rfl⟩) blockWritten_fek (by rw [blockWritten_head]) ?_
  · have hle := (h.full _ (num'.add_one_pos)).mp (by simp [hm])
    rw [at?_blockWritten (num'.add_one_pos), if_neg (by omega), h.at?_ensure hlt (num'.add_one_pos),
      if_neg (by omega), hm]
  · intro m _ x hx
    refine HostFile.read_writeAll (fun w hw he => ?_) hx
    rw [List.mem_singleton.mp hw] at he
    simp only [blockWrite, Slot.block.injEq] at he
    exact hne he.1.symm

def Htree.version (ht : Htree) : Bool := decide (ht.head.counter % 2 = 1)

lemma even_iff (c : UInt32) : c % 2 = 0 ↔ c.toNat % 2 = 0 := by
  rw [← UInt32.toNat_inj]
  rfl

lemma odd_iff (c : UInt32) : c % 2 = 1 ↔ c.toNat % 2 = 1 := by
  rw [← UInt32.toNat_inj]
  rfl

lemma version_eq_not_even (ht : Htree) : ht.version = !decide (ht.head.counter % 2 = 0) := by
  rw [Htree.version, Bool.eq_iff_iff]
  simp only [decide_eq_true_eq, Bool.not_eq_true', decide_eq_false_iff_not, even_iff, odd_iff]
  omega

lemma odd_succ (c : UInt32) : decide ((c + 1) % 2 = 1) = !decide (c % 2 = 1) := by
  have ht : (c + 1).toNat = (c.toNat + 1) % 2 ^ 32 := UInt32.toNat_add c 1
  rw [Bool.eq_iff_iff]
  simp only [decide_eq_true_eq, Bool.not_eq_true', decide_eq_false_iff_not, odd_iff, ht]
  omega

end Optee.FsHtree
