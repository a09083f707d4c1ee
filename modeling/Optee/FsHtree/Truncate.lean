import Optee.FsHtree.RootHash

/-! Truncating a tree detaches the nodes with the largest numbers and nothing else. -/

namespace Optee.FsHtree

open Lib.ByteStrings Lib.HeapTree Option

variable {B : ℕ} {C : Crypto} {f : HostFile B} {ht : Htree}

def Htree.shrunk (ht : Htree) (n : ℕ) : Htree := Htree.dropped^[ht.imeta.maxNodeId.toNat - n] ht

lemma Htree.Wf.truncateHtree (h : ht.Wf) (blockNum : ℕ) : truncateHtree ht blockNum = .ok (ht.shrunk (blockNum + 1)) :=
  h.dropNodes_eq (by omega)

lemma iterate_dropped_fields (ht : Htree) (k : ℕ) : (Htree.dropped^[k] ht).fek = ht.fek ∧
    (Htree.dropped^[k] ht).head = ht.head ∧ (Htree.dropped^[k] ht).uuid = ht.uuid ∧
    (Htree.dropped^[k] ht).imeta.metadata = ht.imeta.metadata := by
  induction k generalizing ht with
  | zero => exact ⟨rfl, rfl, rfl, rfl⟩
  | succ k ih => exact ih ht.dropped

variable {n : ℕ}

@[simp] lemma shrunk_fek : (ht.shrunk n).fek = ht.fek := (iterate_dropped_fields ht _).1
@[simp] lemma shrunk_head : (ht.shrunk n).head = ht.head := (iterate_dropped_fields ht _).2.1
@[simp] lemma shrunk_uuid : (ht.shrunk n).uuid = ht.uuid := (iterate_dropped_fields ht _).2.2.1

@[simp] lemma shrunk_version : (ht.shrunk n).version = ht.version := by simp [Htree.version]

lemma Htree.Wf.shrunk (h : ht.Wf) (hn : 0 < n) : (ht.shrunk n).Wf :=
  (h.iterate_dropped (by omega)).1

lemma Htree.Wf.nodes_shrunk (h : ht.Wf) (hn : 0 < n) : (ht.shrunk n).nodes = min ht.nodes n := by
  have hmax := (h.iterate_dropped (k := ht.imeta.maxNodeId.toNat - n) (by omega)).2.1
  simp only [Htree.shrunk, Htree.nodes] at hmax ⊢
  omega

variable {j : ℕ} {f' : HostFile B} {t : BinaryTree HNode}

lemma Htree.Wf.at?_shrunk (h : ht.Wf) (hn : 0 < n) (hj : 0 < j) :
    at? (ht.shrunk n).root j = if j ≤ n then at? ht.root j else none := by
  have hat := (h.iterate_dropped (k := ht.imeta.maxNodeId.toNat - n) (by omega)).2.2 j hj
  have hnone : ¬ j ≤ ht.nodes → at? ht.root j = none := fun hj' =>
    not_isSome_iff_eq_none.mp (fun hs => hj' ((h.full j hj).mp hs))
  have hnodes : ht.nodes = max 1 ht.imeta.maxNodeId.toNat := rfl
  rw [Htree.shrunk, hat]
  by_cases hle : j ≤ ht.nodes
  · have hiff : j ≤ ht.nodes - (ht.imeta.maxNodeId.toNat - n) ↔ j ≤ n := by omega
    simp [hiff]
  · simp [hnone hle, ite_self]

lemma shrunk_of_le (h : ht.nodes ≤ n) : ht.shrunk n = ht := by
  have hk : ht.imeta.maxNodeId.toNat - n = 0 := by
    rw [Htree.nodes] at h
    omega
  rw [Htree.shrunk, hk, Function.iterate_zero_apply]

lemma BlockAt.shrunk {num : ℕ} {b : Bytes B} (h : BlockAt C f ht num b) (hw : ht.Wf) (hn : num + 1 ≤ n)
    (hread : ∀ v x, f.read (.block num v) = some x → f'.read (.block num v) = some x) :
    BlockAt C f' (ht.shrunk n) num b := by
  refine h.mono (fun m hm => ⟨m, ?_, rfl⟩) shrunk_fek (by rw [shrunk_head]) (fun m _ => hread m.blockVersion)
  rw [hw.at?_shrunk (by omega) num.add_one_pos, if_pos hn, hm]

lemma HostFile.read_truncate {len : ℕ} {s : Slot} {x : Slot.Data B s} (h : f.read s = some x) (hs : s.stop B ≤ len) :
    (f.truncate len).read s = some x :=
  Lib.SlotFile.read_truncate (Slot.stop B) h hs

lemma hashOk_iff {metadata : Option Meta} : HashOk C metadata t ↔
    ∀ p n, get? p t = some n → C.digest (hashInput n.node (if p = [] then metadata else none)
      (nodeHash? (sub (p ++ [false]) t)) (nodeHash? (sub (p ++ [true]) t))) = n.node.hash := by
  induction t generalizing metadata with
  | nil => simp [HashOk]
  | node a l r ihl ihr =>
    rw [HashOk, ihl, ihr]
    constructor
    · rintro ⟨hself, hl, hr⟩ p n hn
      cases p with
      | nil => cases hn; exact hself
      | cons b p => cases b with
        | false => simpa [sub, child] using hl p n hn
        | true => simpa [sub, child] using hr p n hn
    · intro h
      refine ⟨h [] a rfl, fun p n hn => ?_, fun p n hn => ?_⟩
      · simpa [sub, child] using h (false :: p) n hn
      · simpa [sub, child] using h (true :: p) n hn

def nodeInput (metadata : Meta) (t : BinaryTree HNode) (j : ℕ) (n : HNode) : List UInt8 :=
  hashInput n.node (if j = 1 then some metadata else none) ((at? t (2 * j)).map (fun m => m.node.hash))
    ((at? t (2 * j + 1)).map (fun m => m.node.hash))

lemma heapPath_eq_nil (hj : 0 < j) : heapPath j = [] ↔ j = 1 := by
  constructor
  · intro h
    rw [← heapId_heapPath hj, h]
    rfl
  · rintro rfl
    rfl

lemma nodeInput_path (metadata : Meta) (t : BinaryTree HNode) (hj : 0 < j) (n : HNode) :
    hashInput n.node (if heapPath j = [] then some metadata else none)
      (nodeHash? (sub (heapPath j ++ [false]) t)) (nodeHash? (sub (heapPath j ++ [true]) t)) =
        nodeInput metadata t j n := by
  have hl := heapPath_child j hj false
  have hr := heapPath_child j hj true
  simp only [Bool.toNat_false, Bool.toNat_true, Nat.add_zero] at hl hr
  simp only [nodeInput, heapPath_eq_nil hj, at?, hl, hr]
  rfl

lemma hashOk_one_iff {metadata : Meta} : HashOk C (some metadata) t ↔
    ∀ j n, 0 < j → at? t j = some n → C.digest (nodeInput metadata t j n) = n.node.hash := by
  rw [hashOk_iff]
  constructor
  · intro h j n hj hn
    rw [← nodeInput_path metadata t hj n]
    exact h (heapPath j) n hn
  · intro h p n hn
    have := h (heapId p) n (heapId_pos p) (by rwa [at?_heapId])
    rwa [← nodeInput_path metadata t (heapId_pos p) n, heapPath_heapId] at this

lemma Clean.shrunk (h : Clean 1 ht.root) (hw : ht.Wf) (hn : 0 < n) : Clean 1 (ht.shrunk n).root := by
  refine allAt_one_iff.mpr (fun j m hj hm => ?_)
  rw [hw.at?_shrunk hn hj] at hm
  split_ifs at hm
  exact allAt_one_iff.mp h j m hj hm

lemma OnDisk.live_shrunk (h : OnDisk C f ht.version ht) (hn : 0 < n)
    (hread : ∀ idx v x, idx < n → f.read (.node idx v) = some x → f'.read (.node idx v) = some x) :
    Live C f' (ht.shrunk n) where
  wf := h.wf.shrunk hn
  tidy := (h.clean.shrunk h.wf hn).tidy
  backed := by
    rw [shrunk_version]
    obtain ⟨hroot, hrest⟩ := holds_one_iff.mp h.stored
    refine holds_one_iff.mpr ⟨fun m hm _ => ?_, fun j m hj hm _ => ?_⟩
    · rw [h.wf.at?_shrunk hn one_pos] at hm
      split_ifs at hm
      exact hread _ _ _ hn (hroot m hm trivial)
    · rw [h.wf.at?_shrunk hn (by omega)] at hm
      split_ifs at hm with hle
      obtain ⟨q, hq, hr⟩ := hrest j m hj hm trivial
      refine ⟨q, ?_, hread _ _ _ (by omega) hr⟩
      rw [h.wf.at?_shrunk hn (by omega), if_pos (by omega), hq]
  fek := by
    rw [shrunk_uuid, shrunk_head, shrunk_fek]
    exact h.live.fek

variable {metadata : Meta} {iv : Bytes 16}

lemma synced_setMeta_root (C : Crypto) (metadata : Meta) (iv : Bytes 16) (hc : Clean 1 ht.root) (hw : ht.Wf) :
    ∃ m l r, ht.root = .node m l r ∧
    ((setMeta ht metadata).synced C iv).root =
      .node (({ m with dirty := true } : HNode).flush C (some metadata) l r) l r := by
  obtain ⟨m, l, r, hroot⟩ := hw.exists_root
  rw [hroot] at hc
  have hl : touched l = false := Clean.untouched hc.2.1
  have hr : touched r = false := Clean.untouched hc.2.2
  refine ⟨m, l, r, hroot, ?_⟩
  rw [synced_root, setMeta_root hroot, syncTree, marked_of_untouched hl hr,
    syncTree_of_untouched C hl, syncTree_of_untouched C hr]
  rfl

lemma at?_synced_setMeta (hc : Clean 1 ht.root) (hw : ht.Wf) (hj : 2 ≤ j) :
    at? ((setMeta ht metadata).synced C iv).root j = at? ht.root j := by
  obtain ⟨m, l, r, hroot, hsync⟩ := synced_setMeta_root C metadata iv hc hw
  rw [hsync, hroot]
  have h := at?_modify (.node m l r) (fun _ => ({ m with dirty := true } : HNode).flush C (some metadata) l r)
    one_pos (show 0 < j by omega)
  rw [if_neg (by omega)] at h
  exact h

lemma nodeInput_synced_setMeta (hc : Clean 1 ht.root) (hw : ht.Wf) (hj : 0 < j) (m : HNode) :
    nodeInput metadata ((setMeta ht metadata).synced C iv).root j m = nodeInput metadata ht.root j m := by
  simp only [nodeInput, at?_synced_setMeta hc hw (show 2 ≤ 2 * j by omega),
    at?_synced_setMeta hc hw (show 2 ≤ 2 * j + 1 by omega)]

lemma hashOk_synced_setMeta (hc : Clean 1 ht.root) (hw : ht.Wf) :
    HashOk C (some metadata) ((setMeta ht metadata).synced C iv).root ↔
      ∀ j m, 2 ≤ j → at? ht.root j = some m → C.digest (nodeInput metadata ht.root j m) = m.node.hash := by
  rw [hashOk_one_iff]
  constructor
  · intro h j m hj hm
    have hj' := h j m (by omega) (by rwa [at?_synced_setMeta hc hw hj])
    rwa [nodeInput_synced_setMeta hc hw (by omega)] at hj'
  · intro h j m hj hm
    rw [nodeInput_synced_setMeta hc hw hj]
    by_cases hj1 : j = 1
    · subst hj1
      obtain ⟨m0, l, r, hroot, hsync⟩ := synced_setMeta_root C metadata iv hc hw
      rw [hsync] at hm
      cases hm
      rw [hroot]
      rfl
    · exact h j m (by omega) (by rwa [at?_synced_setMeta hc hw (by omega)] at hm)

lemma Htree.Wf.isSome_shrunk (h : ht.Wf) (hn : 0 < n) (hj : 0 < j) :
    (at? (ht.shrunk n).root j).isSome ↔ j ≤ n ∧ j ≤ ht.nodes := by
  rw [h.at?_shrunk hn hj]
  split_ifs with hle
  · simp [h.full j hj, hle, true_and]
  · simp [hle]

def nodeInputs (ht : Htree) : Set (List UInt8) :=
  {x | ∃ j m, 0 < j ∧ at? ht.root j = some m ∧ nodeInput ht.imeta.metadata ht.root j m = x}

def OnlyRootLosesChildren (m n : ℕ) : Prop := m ≤ n ∨ n = 1 ∨ n = 2 ∧ m = 3

lemma nodeInput_length (metadata : Meta) (t : BinaryTree HNode) (j : ℕ) (m : HNode) :
    (nodeInput metadata t j m).length = 34 + (if j = 1 then 8 else 0) +
      (if (at? t (2 * j)).isSome then 32 else 0) + if (at? t (2 * j + 1)).isSome then 32 else 0 := by
  have hopt : ∀ x : Option HNode, (optBytes (x.map (fun m => m.node.hash))).length = if x.isSome then 32 else 0 := by
    intro x
    cases x <;> simp [optBytes]
  have hmeta : ((if j = 1 then some metadata else none).elim [] Meta.bytes).length = if j = 1 then 8 else 0 := by
    split_ifs <;> simp
  simp only [nodeInput, hashInput, List.length_append, hopt, hmeta, leBytes_length, List.Vector.toList_length]

lemma Committed.hashOk_shrunk (h : Committed C f ht.version ht) (hn : 0 < n)
    (hsafe : OnlyRootLosesChildren ht.nodes n) :
    HashOk C (some metadata) ((setMeta (ht.shrunk n) metadata).synced C iv).root := by
  have hw := h.wf
  have hok := hashOk_one_iff.mp h.hashOk
  rw [hashOk_synced_setMeta (h.clean.shrunk hw hn) (hw.shrunk hn)]
  intro j m hj hm
  rw [hw.at?_shrunk hn (by omega)] at hm
  split_ifs at hm with hjn
  have hchild : ∀ i, 2 * j ≤ i → i ≤ 2 * j + 1 → at? (ht.shrunk n).root i = at? ht.root i := by
    intro i hlo hhi
    rw [hw.at?_shrunk hn (by omega)]
    split_ifs with hi
    · rfl
    · have hout : ¬ i ≤ ht.nodes := by
        simp only [OnlyRootLosesChildren] at hsafe
        omega
      exact (not_isSome_iff_eq_none.mp (fun hs => hout ((hw.full i (by omega)).mp hs))).symm
  have hne : j ≠ 1 := by omega
  have hold := hok j m (by omega) hm
  simp only [nodeInput, hne, if_false] at hold ⊢
  rwa [hchild _ le_rfl (by omega), hchild _ (by omega) le_rfl]

lemma Committed.onlyRootLosesChildren (h : Committed C f ht.version ht) (hn : 0 < n)
    (hinj : Set.InjOn C.digest (nodeInputs ht ∪ nodeInputs ((setMeta (ht.shrunk n) metadata).synced C iv)))
    (hall : HashOk C (some metadata) ((setMeta (ht.shrunk n) metadata).synced C iv).root) :
    OnlyRootLosesChildren ht.nodes n := by
  have hw := h.wf
  have hc := h.clean.shrunk hw hn
  have hws := hw.shrunk hn
  have hok := hashOk_one_iff.mp h.hashOk
  rw [hashOk_synced_setMeta hc hws] at hall
  by_contra hbad
  simp only [OnlyRootLosesChildren] at hbad
  obtain ⟨j, hj, hjn, hlost⟩ : ∃ j, 2 ≤ j ∧ j ≤ n ∧
      (2 * j ≤ ht.nodes ∧ n < 2 * j ∨ 2 * j + 1 ≤ ht.nodes ∧ n < 2 * j + 1) := by
    by_cases h2 : n = 2
    · exact ⟨2, by omega, by omega, by omega⟩
    · exact ⟨(n + 1) / 2, by omega, by omega, by omega⟩
  obtain ⟨m, hm, -⟩ := hw.at?_isSome (i := j) (by omega) (by omega)
  have hm' : at? (ht.shrunk n).root j = some m := by rwa [hw.at?_shrunk hn (by omega), if_pos hjn]
  have hsync : at? ((setMeta (ht.shrunk n) metadata).synced C iv).root j = some m := by
    rwa [at?_synced_setMeta hc hws hj]
  have heq := hinj (Or.inr ⟨j, m, by omega, hsync, rfl⟩) (Or.inl ⟨j, m, by omega, hm, rfl⟩) (by
    simp only [synced_imeta, setMeta_metadata, nodeInput_synced_setMeta hc hws (show 0 < j by omega)]
    rw [hall j m hj hm', hok j m (by omega) hm])
  simp only [synced_imeta, setMeta_metadata, nodeInput_synced_setMeta hc hws (show 0 < j by omega)] at heq
  -- the input is shorter by the hash of the lost child
  have hlen := congrArg List.length heq
  simp only [nodeInput_length, hw.isSome_shrunk hn (show 0 < 2 * j by omega), hw.full _ (show 0 < 2 * j by omega),
    hw.isSome_shrunk hn (show 0 < 2 * j + 1 by omega), hw.full _ (show 0 < 2 * j + 1 by omega)] at hlen
  split_ifs at hlen <;> omega

lemma syncTrace_setMeta (hc : Clean 1 ht.root) (hw : ht.Wf) : (setMeta ht metadata).syncTrace (B := B) C iv =
    [rpcWriteNode 1 (!ht.version) (rootImage ((setMeta ht metadata).synced C iv).root),
      rpcWriteHead (!ht.version) ((setMeta ht metadata).synced C iv).head] := by
  obtain ⟨m, l, r, hroot, hsync⟩ := synced_setMeta_root C metadata iv hc hw
  rw [hroot] at hc
  have hl : touched l = false := Clean.untouched hc.2.1
  have hr : touched r = false := Clean.untouched hc.2.2
  rw [hsync, Htree.syncTrace, setMeta_root hroot, syncWrites,
    syncWrites_of_untouched C hl, syncWrites_of_untouched C hr, marked_of_untouched hl hr,
    syncTree_of_untouched C hl, syncTree_of_untouched C hr]
  rfl

def Htree.cut (ht : Htree) (n : ℕ) (metadata : Meta) : Htree := setMeta (ht.shrunk n) metadata

lemma Htree.Wf.touched_cut (h : ht.Wf) (hn : 0 < n) : touched (ht.cut n metadata).root = true := by
  obtain ⟨m, l, r, hroot⟩ := (h.shrunk hn).exists_root
  rw [Htree.cut, setMeta_root hroot]
  rfl

lemma Committed.rootImage_setMeta {v : Bool} (h : Committed C f v ht) (iv : Bytes 16) :
    rootImage ((setMeta ht ht.imeta.metadata).synced C iv).root = rootImage ht.root := by
  obtain ⟨m, l, r, hroot, hsync⟩ := synced_setMeta_root C ht.imeta.metadata iv h.clean h.wf
  have hok := h.hashOk
  rw [hroot] at hok
  rw [hsync, hroot]
  have hhash : calcNodeHash C m.node (some ht.imeta.metadata) l r = m.node.hash := hok.1
  simp [rootImage, value?_node, map_some, getD_some, HNode.flush, hhash]

lemma rootHash_synced_setMeta (hc : Clean 1 ht.root) (hw : ht.Wf) :
    rootHash ((setMeta ht metadata).synced C iv).root =
      C.digest (rootInput ((setMeta ht metadata).synced C iv)) := by
  obtain ⟨m, l, r, hroot, hsync⟩ := synced_setMeta_root C metadata iv hc hw
  rw [rootInput, hsync]
  rfl

lemma metadata_of_rootInput {ht' : Htree} (hw : ht.Wf) (hw' : ht'.Wf) (h : rootInput ht' = rootInput ht) :
    ht'.imeta.metadata = ht.imeta.metadata := by
  obtain ⟨m, l, r, hroot⟩ := hw.exists_root
  obtain ⟨m', l', r', hroot'⟩ := hw'.exists_root
  simp only [rootInput, hroot, hroot'] at h
  obtain ⟨-, -, -, hd, -⟩ := hashInput_inj (by simp) h
  simpa using hd

lemma rootInput_mem_nodeInputs (hw : ht.Wf) : rootInput ht ∈ nodeInputs ht := by
  obtain ⟨m, l, r, hroot⟩ := hw.exists_root
  refine ⟨1, m, one_pos, by rw [hroot]; rfl, ?_⟩
  rw [rootInput, hroot]
  rfl

lemma Committed.cut_same_hash (h : Committed C f ht.version ht) (hn : 0 < n)
    (hbound : metadata = ht.imeta.metadata → ht.nodes ≤ n)
    (hinj : C.digest (rootInput ((ht.cut n metadata).synced C iv)) = C.digest (rootInput ht) →
      rootInput ((ht.cut n metadata).synced C iv) = rootInput ht)
    (hh : rootHash ((ht.cut n metadata).synced C iv).root = rootHash ht.root) :
    ht.cut n metadata = setMeta ht ht.imeta.metadata := by
  have hwf := (h.wf.shrunk hn)
  have hmeta : metadata = ht.imeta.metadata := by
    have hwf' : ((ht.cut n metadata).synced C iv).Wf := hwf.setMeta.syncTree
    refine metadata_of_rootInput h.wf hwf' (hinj ?_)
    rw [← h.rootHash_eq, ← hh]
    exact (rootHash_synced_setMeta (h.clean.shrunk h.wf hn) hwf).symm
  rw [Htree.cut, shrunk_of_le (hbound hmeta), hmeta]

lemma nodeInputs_leaf (hl : child false ht.root = .nil) (hr : child true ht.root = .nil) :
    nodeInputs ht ⊆ {rootInput ht} := by
  rintro x ⟨j, m, hj, hm, rfl⟩
  cases hroot : ht.root with
  | nil => rw [hroot] at hm; simp [at?] at hm
  | node a l r =>
    rw [hroot] at hl hr hm
    obtain rfl : l = .nil := hl
    obtain rfl : r = .nil := hr
    rw [at?] at hm
    cases hp : heapPath j with
    | nil =>
      obtain rfl : j = 1 := by rw [← heapId_heapPath hj, hp]; rfl
      cases hm
      simp only [rootInput, hroot]
      rfl
    | cons b p => rw [hp] at hm; cases b <;> simp [get?, sub, child] at hm

def Htree.inputList (ht : Htree) : List (List UInt8) :=
  (List.range' 1 ht.nodes).filterMap (fun j => (at? ht.root j).map (nodeInput ht.imeta.metadata ht.root j))

lemma Htree.Wf.mem_nodeInputs (hw : ht.Wf) {x : List UInt8} (hx : x ∈ nodeInputs ht) : x ∈ ht.inputList := by
  obtain ⟨j, m, hj, hm, rfl⟩ := hx
  have hle := (hw.full j hj).mp (by simp [hm])
  exact List.mem_filterMap.mpr ⟨j, List.mem_range'_1.mpr ⟨hj, by omega⟩, by rw [hm, map_some]⟩

end Optee.FsHtree
