import Optee.FsHtree.Blocks

/-! The round trip of a change: it keeps a tree that the next sync can commit, and touches no slot of the committed
one. -/

namespace Optee.FsHtree

open Lib.ByteStrings Lib.HeapTree List TeeResult HostFile

variable {B : ℕ} {C : Crypto} {P : HNode → Prop} {f : HostFile B} {ht : Htree} {t₀ root : BinaryTree HNode} {n : HNode}

section Edit

variable {p : List Bool} {s t : BinaryTree HNode} {i : ℕ} {v : Bool} {metadata : Option Meta}

abbrev idFrom (i : ℕ) (p : List Bool) : ℕ := p.foldl (fun i b => 2 * i + b.toNat) i

lemma Holds.graft (h : Holds P f i v t)
    (hs : ∀ u, Holds P f (idFrom i p) u (sub p t) → Holds P f (idFrom i p) u s) :
    Holds P f i v (graft p s t) := by
  induction p generalizing i v t with
  | nil => exact hs v h
  | cons b p ih =>
    cases t with
    | nil => trivial
    | node n l r => cases b with
      | false => exact ⟨h.1, ih h.2.1 hs, h.2.2⟩
      | true => exact ⟨h.1, h.2.1, ih h.2.2 hs⟩

variable {Q : ℕ → HNode → Prop}

lemma allAt_graft (h : AllAt Q i t) (hs : AllAt Q (idFrom i p) s) : AllAt Q i (graft p s t) := by
  induction p generalizing i t with
  | nil => exact hs
  | cons b p ih =>
    cases t with
    | nil => trivial
    | node n l r => cases b with
      | false => exact ⟨h.1, ih h.2.1 hs, h.2.2⟩
      | true => exact ⟨h.1, h.2.1, ih h.2.2 hs⟩

lemma allAt_sub (h : AllAt Q i t) : AllAt Q (idFrom i p) (sub p t) := by
  induction p generalizing i t with
  | nil => exact h
  | cons b p ih => exact ih (h.child b)

def Reaches (p : List Bool) (t : BinaryTree HNode) : Prop := ∀ q b, p = q ++ [b] → sub q t ≠ .nil

lemma Reaches.tail {b : Bool} (h : Reaches (b :: p) t) : Reaches p (child b t) :=
  fun q c hq => h (b :: q) c (by rw [hq, cons_append])

lemma Reaches.ne_nil {b : Bool} (h : Reaches (b :: p) t) : t ≠ .nil := by
  rintro rfl
  exact h (b :: p).dropLast _ (dropLast_concat_getLast (cons_ne_nil b p)).symm (sub_nil _)

lemma touched_graft (hp : Reaches p t) (hs : touched s = true) : touched (graft p s t) = true := by
  induction p generalizing t with
  | nil => exact hs
  | cons b p ih =>
    cases t with
    | nil => exact absurd rfl hp.ne_nil
    | node n l r =>
      have h := ih hp.tail
      cases b <;> simp_all [Lib.HeapTree.graft, setChild, touched_node]

lemma Sound.graft (h : Sound C metadata t) (hp : Reaches p t) (hs : touched s = true)
    (hsub : ∀ d, Sound C d (sub p t) → Sound C d s) : Sound C metadata (graft p s t) := by
  induction p generalizing t metadata with
  | nil => exact hsub _ h
  | cons b p ih =>
    cases t with
    | nil => trivial
    | node n l r =>
      have ht := touched_graft hp.tail hs
      cases b with
      | false =>
        refine ⟨fun hf => ?_, ih h.2.1 hp.tail hsub, h.2.2⟩
        simp only [child_false] at ht
        simp [touched_node, ht] at hf
      | true =>
        refine ⟨fun hf => ?_, h.2.1, ih h.2.2 hp.tail hsub⟩
        simp only [child_true] at ht
        simp [touched_node, ht] at hf

lemma Evolves.graft (h : Evolves t₀ t) (hs : Evolves (sub p t₀) (sub p t) → Evolves (sub p t₀) s) :
    Evolves t₀ (graft p s t) := by
  induction p generalizing t₀ t with
  | nil => exact hs h
  | cons b p ih =>
    cases t₀ with
    | nil => trivial
    | node n0 l0 r0 =>
      cases t with
      | nil => trivial
      | node n l r => cases b with
        | false => exact ⟨h.1, h.2.1, ih h.2.2.1 hs, h.2.2.2⟩
        | true => exact ⟨h.1, h.2.1, h.2.2.1, ih h.2.2.2 hs⟩

lemma Evolves.blockVersion_at (h : Evolves t₀ t) {j : ℕ} {n0 : HNode} (h0 : at? t₀ j = some n0)
    (hn : at? t j = some n) : n.blockVersion = (n0.blockVersion ^^ n.blockUpdated) := by
  unfold at? at h0 hn
  generalize heapPath j = p at h0 hn
  induction p generalizing t₀ t with
  | nil =>
    cases t₀ with
    | nil => simp at h0
    | node a0 l0 r0 => cases t with
      | nil => simp at hn
      | node a l r => cases h0; cases hn; exact h.2.1
  | cons b p ih =>
    cases t₀ with
    | nil => simp at h0
    | node a0 l0 r0 => cases t with
      | nil => simp at hn
      | node a l r => cases b with
        | false => exact ih h.2.2.1 h0 hn
        | true => exact ih h.2.2.2 h0 hn

lemma Uses.exists_get? {k : ℕ} {u : Bool} (hi : 0 < i) (h : Uses i v t (.block k u)) :
    ∃ p n, get? p t = some n ∧ k + 1 = idFrom i p ∧ u = n.blockVersion := by
  induction t generalizing i v with
  | nil => exact h.elim
  | node n l r ihl ihr =>
    rcases h with h | h | h | h
    · cases h
    · cases h
      exact ⟨[], n, rfl, Nat.sub_add_cancel hi, rfl⟩
    · obtain ⟨p, n', hp, hk, hu⟩ := ihl (by omega) h
      exact ⟨false :: p, n', hp, hk, hu⟩
    · obtain ⟨p, n', hp, hk, hu⟩ := ihr (by omega) h
      exact ⟨true :: p, n', hp, hk, hu⟩

lemma Uses.exists_at? {k : ℕ} {u : Bool} (h : Uses 1 v t (.block k u)) :
    ∃ n, at? t (k + 1) = some n ∧ u = n.blockVersion := by
  obtain ⟨p, n, hp, hk, hu⟩ := h.exists_get? one_pos
  refine ⟨n, ?_, hu⟩
  rw [hk]
  exact (at?_heapId t p).trans hp

end Edit

def Htree.synced (C : Crypto) (ht : Htree) (iv : Bytes 16) : Htree :=
  { updateRoot C (ht.withRoot (syncTree C (some ht.imeta.metadata) ht.root)) iv with dirty := false }

def Htree.syncTrace (C : Crypto) (ht : Htree) (iv : Bytes 16) : List (HostWrite B) :=
  syncWrites C (some ht.imeta.metadata) 1 ht.version ht.root ++
    [rpcWriteHead (!ht.version) (ht.synced C iv).head]

variable {hash : Bytes 32} {iv : Bytes 16}

@[simp] lemma synced_root : (ht.synced C iv).root = syncTree C (some ht.imeta.metadata) ht.root := rfl
@[simp] lemma synced_fek : (ht.synced C iv).fek = ht.fek := rfl
@[simp] lemma synced_imeta : (ht.synced C iv).imeta = ht.imeta := rfl
@[simp] lemma synced_uuid : (ht.synced C iv).uuid = ht.uuid := rfl
@[simp] lemma synced_encFek : (ht.synced C iv).head.encFek = ht.head.encFek := rfl
@[simp] lemma synced_counter : (ht.synced C iv).head.counter = ht.head.counter + 1 := rfl

lemma synced_version : (ht.synced C iv).version = !ht.version := odd_succ ht.head.counter

lemma Shape.numbered {m : ℕ} (h : Shape root m) : Numbered 1 root :=
  allAt_one_iff.mpr h.ids

lemma syncToStorage_clean (h : ht.dirty = false) : syncToStorage (B := B) C ht hash iv = .ok (ht, hash, []) := by
  simp [syncToStorage, h, pure, Except.pure]

lemma Htree.Wf.syncToStorage_dirty (h : ht.Wf) (htidy : Tidy 1 ht.root) (hd : ht.dirty = true) :
    syncToStorage (B := B) C ht hash iv =
      .ok (ht.synced C iv, rootHash (ht.synced C iv).root, ht.syncTrace C iv) := by
  have hv : decide ((ht.head.counter + 1) % 2 = 1) = !ht.version := odd_succ ht.head.counter
  simp [syncToStorage, hd, Bool.not_true, Bool.false_eq_true,
    syncRoot_eq C ht.head.counter ht.imeta.metadata h.numbered htidy, ok_bind, pure, Except.pure,
    ← version_eq_not_even, Htree.syncTrace, updateRoot, hv, Htree.synced, Htree.withRoot]

structure Live (C : Crypto) (f : HostFile B) (ht : Htree) : Prop where
  wf : ht.Wf
  tidy : Tidy 1 ht.root
  backed : Backed f 1 ht.version ht.root
  fek : C.fekDecrypt ht.uuid ht.head.encFek = ht.fek

lemma verifyRoot_ok {uuid : Option Uuid} {h : Bytes 32} {head : HeadImage} {fek : Bytes 16} {imeta : Imeta} :
    verifyRoot C uuid h head = .ok (fek, imeta) ↔ C.fekDecrypt uuid head.encFek = fek ∧
      ∃ plain, C.authDec fek head.iv (headAad h head) head.imeta head.tag = some plain ∧
        Imeta.ofBytes plain = imeta := by
  simp only [verifyRoot, bind_eq_ok, orError_eq_ok, pure, Except.pure,
    Except.ok.injEq, Prod.mk.injEq]
  constructor
  · rintro ⟨plain, hp, rfl, hi⟩
    exact ⟨rfl, plain, hp, hi⟩
  · rintro ⟨rfl, plain, hp, hi⟩
    exact ⟨plain, hp, rfl, hi⟩

lemma Holds.backed {v : Bool} {t : BinaryTree HNode} {i : ℕ} (h : Stored f i v t) : Backed f i v t := by
  induction t generalizing i v with
  | nil => trivial
  | node n l r ihl ihr => exact ⟨fun _ => h.1 trivial, ihl h.2.1, ihr h.2.2⟩

lemma OnDisk.live (h : OnDisk C f ht.version ht) : Live C f ht where
  wf := h.wf
  tidy := h.clean.tidy
  backed := h.stored.backed
  fek := (verifyRoot_ok.mp h.verified).1

lemma Live.onDisk (h : Live C f ht) (hC : C.Correct) (ht' : touched ht.root = true) :
    OnDisk C (f.writeAll (ht.syncTrace C iv)) (ht.synced C iv).version (ht.synced C iv) where
  wf := h.wf.syncTree
  clean := clean_syncTree h.tidy
  notDirty := rfl
  stored := by
    have hs := h.backed.stored_syncTree (C := C) (some ht.imeta.metadata) one_pos
    rw [ht', Bool.xor_true] at hs
    rw [synced_version, Htree.syncTrace, HostFile.writeAll_append]
    refine hs.writeAll (fun w hw hu => ?_)
    rw [mem_singleton.mp hw] at hu
    have := (hu.under one_pos).le
    simp [rpcWriteHead, Slot.nodeId] at this
  head := by
    rw [synced_version]
    exact read_writeAll_last _ _ _
  verified := by
    rw [verifyRoot_ok]
    refine ⟨h.fek, _, ?_, Imeta.ofBytes_bytes ht.imeta⟩
    exact hC.authDec_authEnc _ _ _ _

section BlockWritten

variable {num : ℕ} {block : Bytes B}

lemma Htree.Wf.blockWritten_root (h : ht.Wf) (C : Crypto) (block : Bytes B) (iv : Bytes 16)
    (hlt : num + 1 < 2 ^ 32 - 1) (hle : num ≤ ht.nodes) :
    ∃ n l r, at? (ht.ensure (num + 1)).root (num + 1) = some n ∧ n.id = num + 1 ∧
      Reaches (heapPath (num + 1)) ht.root ∧
      (ht.blockWritten C num block iv).root = graft (heapPath (num + 1)) (.node (n.written iv
        (C.authEnc ht.fek iv (nodeAad ht.head.encFek iv) block).2) l r) ht.root ∧
      (sub (heapPath (num + 1)) ht.root = .node n l r ∨
        ht.nodes = num ∧ n = HNode.new (num + 1) ∧ l = .nil ∧ r = .nil) := by
  have hreach : Reaches (heapPath (num + 1)) ht.root := by
    by_cases hz : num = 0
    · subst hz
      intro q b hq
      simp at hq
    · exact h.full.parent (by omega) (by omega)
  by_cases hn : num + 1 ≤ ht.nodes
  · obtain ⟨n, l, r, hs, hid, ha⟩ := h.exists_sub (num.add_one_pos) hn
    refine ⟨n, l, r, by rwa [ensure_of_le hn], hid, hreach, ?_, Or.inl hs⟩
    simp [Htree.blockWritten, ensure_of_le hn, updateNode, Lib.HeapTree.modify, hs]
  obtain rfl : ht.nodes = num := by omega
  have hk : ht.nodes + 1 - ht.nodes = 1 := by omega
  have hroot : (ht.ensure (ht.nodes + 1)).root =
      graft (heapPath (ht.nodes + 1)) (leaf (HNode.new (ht.nodes + 1))) ht.root := by
    rw [Htree.ensure, if_pos (Nat.lt_succ_self _)]
    simp only [hk]
    rfl
  refine ⟨HNode.new (ht.nodes + 1), .nil, .nil, ?_, rfl, hreach, ?_, Or.inr ⟨rfl, rfl, rfl, rfl⟩⟩
  · rw [h.at?_ensure hlt (Nat.add_one_pos _), if_pos ⟨Nat.lt_succ_self _, le_rfl⟩]
  · simp only [Htree.blockWritten, hroot]
    exact h.modify_graft_leaf rfl

lemma written_tidy (n : HNode) (iv tag : Bytes 16) :
    (n.written iv tag).blockUpdated ≤ (n.written iv tag).dirty := le_rfl

lemma touched_written (n : HNode) (iv tag : Bytes 16) (l r : BinaryTree HNode) :
    touched (.node (n.written iv tag) l r) = true := rfl

@[simp] lemma blockWritten_version : (ht.blockWritten C num block iv).version = ht.version := by
  simp [Htree.version]

lemma Live.blockWritten (h : Live C f ht) (hlt : num + 1 < 2 ^ 32 - 1) (hle : num ≤ ht.nodes)
    (n : HNode) :
    Live C (f.writeAll [blockWrite C ht num block iv n]) (ht.blockWritten C num block iv) := by
  obtain ⟨n', l, r, -, -, -, hroot, hcase⟩ :=
    h.wf.blockWritten_root C block iv hlt hle
  refine ⟨h.wf.blockWritten hlt, ?_, ?_, by simpa using h.fek⟩
  · rw [hroot]
    refine allAt_graft h.tidy ⟨written_tidy _ _ _, ?_⟩
    rcases hcase with hs | ⟨-, -, rfl, rfl⟩
    · have := allAt_sub (p := heapPath (num + 1)) h.tidy
      rw [hs] at this
      exact this.2
    · exact ⟨trivial, trivial⟩
  · have hfile : Backed (f.writeAll [blockWrite C ht num block iv n]) 1 ht.version ht.root := by
      refine h.backed.frame_nodes (fun idx u x hx => read_writeAll (fun w hw => ?_) hx)
      rw [mem_singleton.mp hw]
      simp [blockWrite]
    rw [hroot, blockWritten_version]
    refine hfile.graft (fun u hsub => ?_)
    rcases hcase with hs | ⟨-, -, rfl, rfl⟩
    · rw [hs] at hsub
      exact ⟨fun hd => by simp [HNode.written] at hd, by simpa using hsub.2⟩
    · exact ⟨fun hd => by simp [HNode.written] at hd, trivial, trivial⟩

lemma Sound.blockWritten (h : Sound C (some ht.imeta.metadata) ht.root) (hw : ht.Wf)
    (hlt : num + 1 < 2 ^ 32 - 1) (hle : num ≤ ht.nodes) :
    Sound C (some (ht.blockWritten C num block iv).imeta.metadata) (ht.blockWritten C num block iv).root := by
  obtain ⟨n, l, r, -, -, hreach, hroot, hcase⟩ := hw.blockWritten_root C block iv hlt hle
  rw [hroot, blockWritten_metadata]
  refine h.graft hreach (touched_written _ _ _ _ _) (fun d hd => ?_)
  refine ⟨fun hf => by simp [touched_written] at hf, ?_⟩
  rcases hcase with hs | ⟨-, -, rfl, rfl⟩
  · rw [hs] at hd
    exact hd.2
  · exact ⟨trivial, trivial⟩

lemma Full.sub_eq_nil {m i : ℕ} (h : Full root m) (hi : 0 < i) (hm : m < i) : sub (heapPath i) root = .nil := by
  by_contra hc
  have := (h.sub_ne_nil hi).mp hc
  omega

lemma Evolves.blockWritten {ht0 : Htree} (h : Evolves ht0.root ht.root) (h0 : ht0.Wf) (hw : ht.Wf)
    (hnodes : ht0.nodes ≤ ht.nodes) (hlt : num + 1 < 2 ^ 32 - 1) (hle : num ≤ ht.nodes) :
    Evolves ht0.root (ht.blockWritten C num block iv).root := by
  obtain ⟨n, l, r, -, -, -, hroot, hcase⟩ := hw.blockWritten_root C block iv hlt hle
  rw [hroot]
  refine h.graft (fun hsub => ?_)
  rcases hcase with hs | ⟨hnum, -, -, -⟩
  · rw [hs] at hsub
    cases hs0 : sub (heapPath (num + 1)) ht0.root with
    | nil => trivial
    | node n0 l0 r0 =>
      rw [hs0] at hsub
      obtain ⟨hc, hb, hl, hr⟩ := hsub
      refine ⟨fun b => by rw [written_childVersion, hc], ?_, hl, hr⟩
      rw [written_blockVersion, hb]
      cases n0.blockVersion <;> cases n.blockUpdated <;> rfl
  · rw [Full.sub_eq_nil h0.full num.add_one_pos (by omega)]
    trivial

lemma Evolves.blockWrite_avoid {ht0 : Htree} (h : Evolves ht0.root ht.root) (h0 : ht0.Wf)
    (hnodes : ht0.nodes ≤ ht.nodes) (hn : at? (ht.ensure (num + 1)).root (num + 1) = some n) (v : Bool) :
    ¬ Uses 1 v ht0.root (blockWrite C ht num block iv n).1 := by
  intro hu
  obtain ⟨n0, hn0, hv⟩ := hu.exists_at?
  have hle := (h0.full _ num.add_one_pos).mp (by simp [hn0])
  rw [ensure_of_le (by omega)] at hn
  have hb := h.blockVersion_at hn0 hn
  rw [written_blockVersion, hb] at hv
  revert hv
  cases n0.blockVersion <;> cases n.blockUpdated <;> decide

end BlockWritten

section SetMeta

variable {metadata : Meta}

@[simp] lemma setMeta_fek : (setMeta ht metadata).fek = ht.fek := rfl
@[simp] lemma setMeta_head : (setMeta ht metadata).head = ht.head := rfl
@[simp] lemma setMeta_uuid : (setMeta ht metadata).uuid = ht.uuid := rfl
@[simp] lemma setMeta_version : (setMeta ht metadata).version = ht.version := rfl
@[simp] lemma setMeta_nodes : (setMeta ht metadata).nodes = ht.nodes := rfl
@[simp] lemma setMeta_metadata : (setMeta ht metadata).imeta.metadata = metadata := rfl

lemma Htree.Wf.setMeta (h : ht.Wf) : (setMeta ht metadata).Wf :=
  h.updateNode one_pos (fun _ => rfl)

lemma Htree.Wf.exists_root (h : ht.Wf) : ∃ n l r, ht.root = .node n l r := by
  obtain ⟨n, l, r, hs, -, -⟩ := h.exists_sub one_pos h.pos
  exact ⟨n, l, r, hs⟩

lemma setMeta_root {l r : BinaryTree HNode} (h : ht.root = .node n l r) :
    (setMeta ht metadata).root = .node { n with dirty := true } l r := by
  simp only [FsHtree.setMeta, metaSetDirty, h]
  rfl

lemma Live.setMeta (h : Live C f ht) : Live C f (setMeta ht metadata) := by
  obtain ⟨n, l, r, hr⟩ := h.wf.exists_root
  have htidy := h.tidy
  have hb := h.backed
  rw [hr] at htidy hb
  refine ⟨h.wf.setMeta, ?_, ?_, h.fek⟩
  · rw [setMeta_root hr]
    exact ⟨Bool.le_true _, htidy.2⟩
  · rw [setMeta_root hr]
    exact ⟨fun hd => by simp at hd, hb.2⟩

lemma Sound.setMeta (hw : ht.Wf) (h : Sound C (some ht.imeta.metadata) ht.root) :
    Sound C (some (setMeta ht metadata).imeta.metadata) (setMeta ht metadata).root := by
  obtain ⟨n, l, r, hr⟩ := hw.exists_root
  rw [hr] at h
  rw [setMeta_root hr]
  exact ⟨fun hd => by simp [touched_node] at hd, h.2⟩

lemma Evolves.setMeta (hw : ht.Wf) (h : Evolves t₀ ht.root) : Evolves t₀ (setMeta ht metadata).root := by
  obtain ⟨n, l, r, hr⟩ := hw.exists_root
  rw [hr] at h
  rw [setMeta_root hr]
  cases t₀ with
  | nil => trivial
  | node n0 l0 r0 => exact h

lemma BlockAt.setMeta {num : ℕ} {b : Bytes B} (h : BlockAt C f ht num b) : BlockAt C f (setMeta ht metadata) num b := by
  refine h.mono (fun n hn => ?_) rfl rfl (fun _ _ _ hx => hx)
  have ha := at?_modify ht.root (fun n => ({ n with dirty := true } : HNode)) one_pos num.add_one_pos
  split_ifs at ha with h1
  · rw [hn] at ha
    exact ⟨_, ha, rfl⟩
  · rw [hn] at ha
    exact ⟨n, ha, rfl⟩

end SetMeta

end Optee.FsHtree
