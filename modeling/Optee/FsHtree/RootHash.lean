import Optee.FsHtree.Rounds

/-! Finding a committed tree by the hash of its root, before and after a round of changes. -/

namespace Optee.FsHtree

open Lib.ByteStrings Lib.HeapTree List HostFile

variable {B : ℕ} {C : Crypto} {f : HostFile B} {ht ht₀ : Htree} {c c₀ : Contents B}

def rootImage (root : BinaryTree HNode) : NodeImage := ((value? root).map HNode.node).getD NodeImage.zero

lemma rootImage_hash (root : BinaryTree HNode) : (rootImage root).hash = rootHash root := by
  cases root <;> rfl

lemma OnDisk.read_root {v : Bool} (h : OnDisk C f v ht) : f.read (.node 0 v) = some (rootImage ht.root) := by
  obtain ⟨n, l, r, hr⟩ := h.wf.exists_root
  have hs := h.stored
  rw [hr] at hs ⊢
  exact hs.1 trivial

def Htree.withHead (ht : Htree) (head : HeadImage) : Htree := { ht with head }

variable {head : HeadImage} {t : BinaryTree HNode} {n : HNode} {w : HostWrite B}

lemma Committed.switch {v u : Bool} (h : Committed C f v ht) (hroot : f.read (.node 0 u) = some (rootImage ht.root))
    (hhead : f.read (.head u) = some head)
    (hver : verifyRoot C ht.uuid (rootHash ht.root) head = .ok (ht.fek, ht.imeta)) :
    Committed C f u (ht.withHead head) := by
  refine ⟨⟨h.wf, h.clean, h.notDirty, ?_, hhead, hver⟩, h.hashOk⟩
  obtain ⟨n, l, r, hr⟩ := h.wf.exists_root
  have hs := h.stored
  simp only [Htree.withHead, hr] at hs hroot ⊢
  exact ⟨fun _ => hroot, hs.2⟩

lemma Represents.withHead (h : Represents C f ht c) (henc : head.encFek = ht.head.encFek) :
    Represents C f (ht.withHead head) c :=
  ⟨h.metadata, h.nodes, fun num b hb =>
    (h.blocks num b hb).mono (fun n hn => ⟨n, hn, rfl⟩) rfl henc (fun _ _ _ hx => hx)⟩

/-- Opening by hash looks at version 0 first: a root found there under a hash committed at version 1 needs a matching
head. -/
def Anchored (C : Crypto) (f : HostFile B) (ht : Htree) : Prop :=
  ht.version = true → ∃ n : NodeImage, f.read (.node 0 false) = some n ∧
    (n.hash = rootHash ht.root → n = rootImage ht.root ∧ ∃ head : HeadImage,
      f.read (.head false) = some head ∧ head.encFek = ht.head.encFek ∧ (ht.withHead head).version = false ∧
      verifyRoot C ht.uuid (rootHash ht.root) head = .ok (ht.fek, ht.imeta))

lemma Committed.opens (h : Committed C f ht.version ht) (ha : Anchored C f ht) :
    ∃ head : HeadImage, head.encFek = ht.head.encFek ∧
      Picks f (some (rootHash ht.root)) (ht.withHead head).version ∧
      Committed C f (ht.withHead head).version (ht.withHead head) ∧ Anchored C f (ht.withHead head) := by
  have hroot := h.read_root
  cases hvers : ht.version with
  | false =>
    rw [hvers] at hroot
    exact ⟨ht.head, rfl, ⟨_, hroot, Or.inl ⟨rootImage_hash _, hvers⟩⟩, h, ha⟩
  | true =>
    rw [hvers] at hroot h
    obtain ⟨n, hn, hother⟩ := ha hvers
    by_cases hh : n.hash = rootHash ht.root
    · obtain ⟨rfl, head, hhead, henc, hv, hver⟩ := hother hh
      refine ⟨head, henc, ⟨_, hn, Or.inl ⟨hh, hv⟩⟩, ?_, fun hv' => by rw [hv] at hv'; cases hv'⟩
      rw [hv]
      exact h.switch hn hhead hver
    · refine ⟨ht.head, rfl, ⟨n, hn, Or.inr ⟨hh, hvers, _, hroot, rootImage_hash _⟩⟩, ?_, ha⟩
      rw [← hvers] at h
      exact h

lemma Uses.of_get? {p : List Bool} {i : ℕ} {v : Bool} (h : get? p t = some n) :
    Uses i v t (.block (idFrom i p - 1) n.blockVersion) := by
  induction t generalizing p i v with
  | nil => simp at h
  | node a l r ihl ihr =>
    cases p with
    | nil => cases h; exact Or.inr (Or.inl rfl)
    | cons b p => cases b with
      | false => exact Or.inr (Or.inr (Or.inl (ihl h)))
      | true => exact Or.inr (Or.inr (Or.inr (ihr h)))

lemma Uses.of_at? {k : ℕ} (v : Bool) (h : at? t (k + 1) = some n) : Uses 1 v t (.block k n.blockVersion) := by
  have hu := Uses.of_get? (i := 1) (v := v) h
  have hid : idFrom 1 (heapPath (k + 1)) = k + 1 := heapId_heapPath k.add_one_pos
  rwa [hid] at hu

variable {us ws : List (HostWrite B)} {v : Bool}

lemma Committed.writeAll (h : Committed C f v ht)
    (hw : ∀ w ∈ us, ¬ Uses 1 v ht.root w.1 ∧ w.1 ≠ .head v) : Committed C (f.writeAll us) v ht :=
  ⟨⟨h.wf, h.clean, h.notDirty, h.stored.writeAll (fun w hm => (hw w hm).1),
    read_writeAll (fun w hm => (hw w hm).2) h.head, h.verified⟩, h.hashOk⟩

lemma Represents.writeAll (h : Represents C f ht c) (hw : ∀ w ∈ us, ¬ Uses 1 v ht.root w.1) :
    Represents C (f.writeAll us) ht c :=
  ⟨h.metadata, h.nodes, fun num b hb =>
    (h.blocks num b hb).mono (fun n hn => ⟨n, hn, rfl⟩) rfl rfl (fun _ hn _ hx =>
      read_writeAll (fun w hm he => hw w hm (he ▸ Uses.of_at? v hn)) hx)⟩

lemma mem_syncWrites_root {metadata : Option Meta} {u : Bool} (h : w ∈ syncWrites C metadata 1 v t)
    (hw : w.1 = .node 0 u) : w = ⟨.node 0 (!v), rootImage (syncTree C metadata t)⟩ := by
  cases t with
  | nil => simp [syncWrites] at h
  | node n l r =>
    rw [syncWrites] at h
    split_ifs at h with ht
    · simp only [mem_append, mem_singleton] at h
      rcases h with (h | h) | rfl
      · obtain ⟨idx, vers, he, hu⟩ := mem_syncWrites two_pos h
        have := hu.le
        rw [he] at hw
        cases hw
        omega
      · obtain ⟨idx, vers, he, hu⟩ := mem_syncWrites three_pos h
        have := hu.le
        rw [he] at hw
        cases hw
        omega
      · rw [syncTree, if_pos ht]
        rfl
    · simp at h

lemma Pending.version (h : Pending C f ht₀ ht c ws) : ht.version = ht₀.version := by
  rw [Htree.version, h.head, Htree.version]

lemma Pending.quiet (h : Pending C f ht₀ ht c ws)
    (hw : w ∈ ws ++ syncWrites C (some ht.imeta.metadata) 1 ht.version ht.root) :
    ¬ Uses 1 ht₀.version ht₀.root w.1 ∧ (∀ u, w.1 ≠ .head u) ∧ ∀ u, w.1 = .node 0 u →
      w = ⟨.node 0 (!ht₀.version), rootImage (syncTree C (some ht.imeta.metadata) ht.root)⟩ := by
  rw [h.version] at hw
  rcases mem_append.mp hw with hw | hw
  · obtain ⟨num, u, he, hu⟩ := h.avoid w hw
    refine ⟨hu, ?_, ?_⟩ <;> simp [he]
  · obtain ⟨idx, u, he, -⟩ := mem_syncWrites one_pos hw
    refine ⟨h.evolves.syncWrites_avoid one_pos hw, ?_, fun u hu => mem_syncWrites_root hw hu⟩
    simp [he]

lemma syncTrace_no_block {iv : Bytes 16} (hw : w ∈ ht.syncTrace C iv) (num : ℕ) (u : Bool) : w.1 ≠ .block num u := by
  rcases mem_append.mp hw with hw | hw
  · obtain ⟨idx, u, he, -⟩ := mem_syncWrites one_pos hw
    simp [he]
  · rw [mem_singleton.mp hw]
    simp [rpcWriteHead]

lemma Represents.synced (h : Represents C f ht c) (iv : Bytes 16) :
    Represents C (f.writeAll (ht.syncTrace C iv)) (ht.synced C iv) c :=
  ⟨h.metadata, h.nodes, fun num b hb =>
    (h.blocks num b hb).mono (fun _ hn => exists_syncTree_at? hn) rfl rfl (fun _ _ _ hx =>
      read_writeAll (fun _ hw => syncTrace_no_block hw _ _) hx)⟩

lemma Pending.committed (hp : Pending C f ht₀ ht c ws) (hC : C.Correct) (hd : ht.dirty = true)
    (iv : Bytes 16) : Committed C (f.writeAll (ws ++ ht.syncTrace C iv)) (ht.synced C iv).version
      (ht.synced C iv) := by
  rw [HostFile.writeAll_append]
  exact ⟨hp.live.onDisk hC (hp.dirty hd), hashOk_syncTree_iff.mpr hp.sound⟩

lemma Pending.keeps_old (hp : Pending C f ht₀ ht c ws) {iv : Bytes 16} (hw : w ∈ ws ++ ht.syncTrace C iv) :
    ¬ Uses 1 ht₀.version ht₀.root w.1 ∧ w.1 ≠ .head ht₀.version := by
  rw [Htree.syncTrace, ← append_assoc] at hw
  rcases mem_append.mp hw with hw | hw
  · exact ⟨(hp.quiet hw).1, (hp.quiet hw).2.1 _⟩
  · rw [mem_singleton.mp hw, ← hp.version]
    refine ⟨fun hu => ?_, by simp [rpcWriteHead]⟩
    have := (hu.under one_pos).le
    simp [rpcWriteHead, Slot.nodeId] at this

def rootInput (ht : Htree) : List UInt8 :=
  match ht.root with
  | .nil => []
  | .node n l r => hashInput n.node (some ht.imeta.metadata) (nodeHash? l) (nodeHash? r)

lemma Committed.rootHash_eq (h : Committed C f v ht) : rootHash ht.root = C.digest (rootInput ht) := by
  obtain ⟨n, l, r, hr⟩ := h.wf.exists_root
  have hh := h.hashOk
  rw [hr] at hh
  rw [rootInput, hr]
  exact hh.1.symm

lemma dirty_of_updated (h : n.blockUpdated ≤ n.dirty) (hu : n.blockUpdated = true) : n.dirty = true := by
  revert h
  rw [hu]
  cases n.dirty <;> decide

lemma Updated.touched_child {l r : BinaryTree HNode} (hr : ht.root = .node n l r) (h : Updated ht)
    (htidy : Tidy 1 ht.root) (hn : n.blockUpdated = false) : touched l = true ∨ touched r = true := by
  obtain ⟨j, m, hj, hm, hu⟩ := h
  have hd := dirty_of_updated (allAt_one_iff.mp htidy j m hj hm) hu
  rw [at?, hr] at hm
  cases hp : heapPath j with
  | nil =>
    rw [hp] at hm
    cases hm
    rw [hn] at hu
    cases hu
  | cons b p =>
    rw [hp] at hm
    cases b with
    | false => exact Or.inl (touched_of_get? hm hd)
    | true => exact Or.inr (touched_of_get? hm hd)

lemma Pending.not_updated (hp : Pending C f ht₀ ht c ws) (h0 : ht₀.Wf) (iv : Bytes 16)
    (hin : rootInput (ht.synced C iv) = rootInput ht₀) : ¬ Updated ht := by
  intro hup
  obtain ⟨n, l, r, hr⟩ := hp.live.wf.exists_root
  obtain ⟨n0, l0, r0, hr0⟩ := h0.exists_root
  have hev := hp.evolves
  rw [hr, hr0] at hev
  have htouch : touched (.node n l r) = true := by
    obtain ⟨j, m, hj, hm, hu⟩ := hup
    rw [← hr]
    exact touched_of_get? hm (dirty_of_updated (allAt_one_iff.mp hp.live.tidy j m hj hm) hu)
  simp only [rootInput, synced_root, hr, hr0, syncTree, htouch, if_true, synced_imeta] at hin
  obtain ⟨-, -, hflags, -, -⟩ := hashInput_inj (by simp) hin
  have hv : ∀ k, (n.marked l r).node.version k = n0.node.version k := by
    intro k
    exact congrArg (fun x : BitVec 16 => x.getLsbD k) hflags
  have hb : (n.marked l r).blockVersion = n0.blockVersion := hv _
  have hl : (n.marked l r).childVersion false = n0.childVersion false := hv _
  have hrr : (n.marked l r).childVersion true = n0.childVersion true := hv _
  rw [marked_blockVersion, hev.2.1] at hb
  rw [marked_childVersion_false, hev.1] at hl
  rw [marked_childVersion_true, hev.1] at hrr
  have hbu : n.blockUpdated = false := by
    revert hb
    cases n0.blockVersion <;> cases n.blockUpdated <;> decide
  rcases hup.touched_child hr hp.live.tidy hbu with ht' | ht'
  · simp [ht'] at hl
  · simp [ht'] at hrr

def finalMetadata (metadata : Meta) (cs : List (Change B)) : Meta :=
  cs.foldl (fun d a => match a with
    | .write _ _ _ => d
    | .setMeta d' => d') metadata

lemma apply_metadata (c : Contents B) (cs : List (Change B)) : (c.apply cs).metadata = finalMetadata c.metadata cs := by
  induction cs generalizing c with
  | nil => rfl
  | cons a cs ih => cases a <;> exact ih _

lemma Committed.same_hash (h0 : Committed C f ht₀.version ht₀) (hr0 : Represents C f ht₀ c₀) (hC : C.Correct)
    {cs : List (Change B)}
    (hskip : NoSkip ht₀.nodes cs) (hrun : runChanges C ht₀ cs = .ok (ht, ws)) (hd : ht.dirty = true)
    (iv : Bytes 16) (hinj : C.digest (rootInput (ht.synced C iv)) = C.digest (rootInput ht₀) →
      rootInput (ht.synced C iv) = rootInput ht₀)
    (hh : rootHash (ht.synced C iv).root = rootHash ht₀.root) :
    cs.any isWrite = false ∧ finalMetadata ht₀.imeta.metadata cs = ht₀.imeta.metadata ∧
      rootImage (ht.synced C iv).root = rootImage ht₀.root ∧ ht.imeta = ht₀.imeta ∧ c₀.apply cs = c₀ := by
  have hp0 := h0.pending hr0
  have hp := hp0.runChanges hC h0.wf hskip hrun
  have hin : rootInput (ht.synced C iv) = rootInput ht₀ := by
    apply hinj
    rw [← h0.rootHash_eq, ← (hp.committed hC hd iv).rootHash_eq]
    exact hh
  have hno : cs.any isWrite = false := by
    by_contra hw
    exact hp.not_updated h0.wf iv hin
      (updated_of_runChanges hp0 hC h0.wf hskip hrun (Or.inr (by simpa using hw)))
  obtain ⟨n0, l0, r0, hroot0⟩ := h0.wf.exists_root
  obtain ⟨n, l, r, hr⟩ := (hp.committed hC hd iv).wf.exists_root
  simp only [rootInput, hr, hroot0, synced_imeta] at hin
  obtain ⟨hiv, htag, hflags, hmeta, -⟩ := hashInput_inj (by simp) hin
  have hmeta' : ht.imeta.metadata = ht₀.imeta.metadata := by simpa using hmeta
  have hfinal : finalMetadata ht₀.imeta.metadata cs = ht₀.imeta.metadata := by
    rw [hr0.metadata, ← apply_metadata, ← hp.represents.metadata, hmeta',
      hr0.metadata]
  refine ⟨hno, hfinal, ?_, ?_, apply_of_no_write hno ?_⟩
  · rw [hr, hroot0] at hh ⊢
    have hhash : n.node.hash = n0.node.hash := hh
    simp only [rootImage, value?_node, Option.map_some, Option.getD_some]
    cases hn : n.node
    simp_all
  · rw [runChanges_of_no_write h0.wf hr0.metadata hno] at hrun
    cases hrun
    split_ifs with hnil
    · rfl
    · simp only [hnil, if_false, setMeta_metadata] at hmeta'
      simp [setMeta, metaSetDirty, hmeta']
  · rw [apply_metadata, ← hr0.metadata, hfinal]

lemma Pending.anchored (h0 : Committed C f ht₀.version ht₀) (hp : Pending C f ht₀ ht c ws) (iv : Bytes 16)
    (hsame : rootHash (ht.synced C iv).root = rootHash ht₀.root →
      rootImage (ht.synced C iv).root = rootImage ht₀.root ∧ ht.imeta = ht₀.imeta) :
    Anchored C (f.writeAll (ws ++ ht.syncTrace C iv)) (ht.synced C iv) := by
  intro hv
  have hold : Committed C (f.writeAll (ws ++ ht.syncTrace C iv)) ht₀.version ht₀ :=
    h0.writeAll (fun _ => hp.keeps_old)
  rw [synced_version, hp.version, Bool.not_eq_true'] at hv
  rw [hv] at hold
  refine ⟨_, hold.read_root, fun hh => ?_⟩
  rw [rootImage_hash] at hh
  obtain ⟨himage, himeta⟩ := hsame hh.symm
  refine ⟨himage.symm, ht₀.head, hold.head, by rw [synced_encFek, hp.head], hv, ?_⟩
  rw [synced_uuid, synced_fek, synced_imeta, hp.uuid, hp.fek, himeta, ← hh]
  exact hold.verified

lemma live_newHtree (hC : C.Correct) (f : HostFile B) (uuid : Option Uuid) (fek : Bytes 16) :
    Live C f (newHtree C uuid fek) where
  wf := shape_leaf rfl
  tidy := ⟨Bool.le_true _, trivial, trivial⟩
  backed := ⟨fun h => by simp at h, trivial, trivial⟩
  fek := hC.fekDecrypt_fekEncrypt uuid fek

lemma committed_newHtree (hC : C.Correct) (uuid : Option Uuid) (fek iv : Bytes 16) :
    Committed C (HostFile.empty.writeAll ((newHtree C uuid fek).syncTrace C iv ++
      [rpcWriteHead false HeadImage.zero] : List (HostWrite B))) true ((newHtree C uuid fek).synced C iv) := by
  have hl := live_newHtree hC (HostFile.empty (B := B)) uuid fek
  have hc : Committed C (HostFile.empty.writeAll ((newHtree C uuid fek).syncTrace C iv))
      true ((newHtree C uuid fek).synced C iv) :=
    ⟨hl.onDisk hC rfl, hashOk_syncTree_iff.mpr ⟨fun h => by simp [touched_node] at h, trivial, trivial⟩⟩
  refine hc.writeAll (fun w hw => ?_)
  rw [mem_singleton.mp hw]
  refine ⟨fun hu => ?_, by simp [rpcWriteHead]⟩
  have := (hu.under one_pos).le
  simp [rpcWriteHead, Slot.nodeId] at this

lemma anchored_newHtree (hC : C.Correct) (uuid : Option Uuid) (fek iv : Bytes 16)
    (hzero : C.digest (rootInput ((newHtree C uuid fek).synced C iv)) ≠ zeroBytes 32) :
    Anchored C (HostFile.empty.writeAll ((newHtree C uuid fek).syncTrace C iv ++
      [rpcWriteHead false HeadImage.zero] : List (HostWrite B))) ((newHtree C uuid fek).synced C iv) := by
  have hc := committed_newHtree (B := B) hC uuid fek iv
  refine fun _ => ⟨NodeImage.zero, read_eq_some.mpr
    ⟨Nat.le_trans (by simp [Slot.stop, getOffsSize]) (read_eq_some.mp hc.read_root).1, ?_⟩, fun hh => ?_⟩
  · rw [HostFile.data_writeAll]
    · rfl
    · intro w hw he
      rw [Htree.syncTrace, append_assoc] at hw
      rcases mem_append.mp hw with hw | hw
      · have := mem_syncWrites_root hw he
        rw [this] at he
        cases he
      · simp only [singleton_append, mem_cons, not_mem_nil, or_false] at hw
        rcases hw with rfl | rfl <;> cases he
  · exact absurd hh.symm hzero

end Optee.FsHtree
