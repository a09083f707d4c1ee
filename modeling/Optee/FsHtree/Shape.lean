import Optee.FsHtree.HashTree

/-! The nodes of a tree carry the numbers `1, ..., m`, each at its place in the heap order. -/

namespace Optee.FsHtree

open Lib.HeapTree List TeeResult Function

lemma directions_eq (nodeId : ℕ) : directions (nodeId.log2 + 1) nodeId = heapPath nodeId := by
  rw [directions, range'_eq_map_range, map_map]
  apply map_congr_left
  intro n _
  simp only [comp_apply]
  congr 1
  omega

structure Shape (root : BinaryTree HNode) (m : ℕ) : Prop where
  full : Full root m
  ids : ∀ i n, 0 < i → at? root i = some n → n.id = i
  pos : 0 < m
  lt : m < 2 ^ 32 - 1

variable {i k j : ℕ}

lemma findClosestNode_eq {root : BinaryTree HNode} (hi : 0 < i) (hlt : i < 2 ^ 32 - 1) :
    findClosestNode root i = .ok (closest (heapPath i) root) := by
  have ha : i ≠ 0 ∧ i < 2 ^ 32 - 1 := ⟨by omega, hlt⟩
  simp only [findClosestNode, nodeIdToLevel, assert_of ha, ok_bind, pure,
    Except.pure, directions_eq]

variable {root : BinaryTree HNode} {m : ℕ}

section

variable (h : Shape root m) (hi : 0 < i) (him : i ≤ m)
include h hi him

lemma Shape.exists_sub : ∃ n l r, sub (heapPath i) root = .node n l r ∧ n.id = i ∧ at? root i = some n := by
  cases hs : sub (heapPath i) root with
  | nil => exact absurd hs ((h.full.sub_ne_nil hi).mpr him)
  | node n l r =>
    have ha : at? root i = some n := by simp [at?, get?, hs]
    exact ⟨n, l, r, rfl, h.ids i n hi ha, ha⟩

lemma Shape.at?_isSome : ∃ n, at? root i = some n ∧ n.id = i := by
  obtain ⟨n, _, _, _, hn, ha⟩ := h.exists_sub hi him
  exact ⟨n, ha, hn⟩

lemma Shape.findClosestNode_self : findClosestNode root i = .ok (sub (heapPath i) root) := by
  rw [findClosestNode_eq hi (him.trans_lt h.lt), h.full.closest_self hi him]

lemma Shape.findNode_eq : findNode root i = .ok (at? root i) := by
  obtain ⟨n, l, r, hs, hn, ha⟩ := h.exists_sub hi him
  simp [findNode, h.findClosestNode_self hi him, ok_bind, hs, value?_node, ha, pure, Except.pure, Option.filter, hn]

end

lemma Shape.findClosestNode_above (h : Shape root m) (him : m < i) (hlt : i < 2 ^ 32 - 1) :
    ∃ a l r, findClosestNode root i = .ok (.node a l r) ∧ a.id ≤ m := by
  have hroot : root ≠ .nil := (h.full.sub_ne_nil one_pos).mpr h.pos
  obtain ⟨q, -, he, hn⟩ := exists_closest_eq_sub (heapPath i) hroot
  have hq : heapId q ≤ m := (h.full.sub_ne_nil (heapId_pos q)).mp (by rwa [heapPath_heapId])
  obtain ⟨a, l, r, hs, ha, -⟩ := h.exists_sub (heapId_pos q) hq
  rw [heapPath_heapId] at hs
  refine ⟨a, l, r, ?_, ha ▸ hq⟩
  rw [findClosestNode_eq (by omega) hlt, he, hs]

def leaf (n : HNode) : BinaryTree HNode := .node n .nil .nil

def grow (root : BinaryTree HNode) (m : ℕ) : ℕ → BinaryTree HNode
  | 0 => root
  | k + 1 => graft (heapPath (m + k + 1)) (leaf (HNode.new (m + k + 1))) (grow root m k)

lemma Shape.graft_leaf (h : Shape root m) (hlt : m + 1 < 2 ^ 32 - 1) {n : HNode}
    (hn : n.id = m + 1) : Shape (graft (heapPath (m + 1)) (leaf n) root) (m + 1) where
  full := h.full.graft_leaf h.pos
  ids := by
    intro i a hi ha
    have hpos := h.pos
    rw [leaf, at?_graft_leaf h.full (by omega) (by omega) (by omega) hi] at ha
    split_ifs at ha with hi'
    · cases ha
      rw [hn, hi']
    · exact h.ids i a hi ha
  pos := by omega
  lt := hlt

lemma Shape.grow (h : Shape root m) (hlt : m + k < 2 ^ 32 - 1) : Shape (grow root m k) (m + k) := by
  induction k with
  | zero => exact h
  | succ k ih => exact (ih (by omega)).graft_leaf hlt rfl

lemma Shape.at?_grow (h : Shape root m) (hlt : m + k < 2 ^ 32 - 1) (hj : 0 < j) : at? (FsHtree.grow root m k) j =
      if m < j ∧ j ≤ m + k then some (HNode.new j) else at? root j := by
  induction k with
  | zero => rw [if_neg (by omega)]; rfl
  | succ k ih =>
    have hs := h.grow (k := k) (by omega)
    have hpos := h.pos
    rw [FsHtree.grow, leaf, at?_graft_leaf hs.full (by omega) (by omega) (by omega) hj,
      ih (by omega)]
    by_cases hjk : j = m + k + 1
    · rw [if_pos hjk, if_pos (by omega), hjk]
    · rw [if_neg hjk]
      by_cases hc : m < j ∧ j ≤ m + k
      · rw [if_pos hc, if_pos (by omega)]
      · rw [if_neg hc, if_neg (by omega)]

lemma grow_succ' (root : BinaryTree HNode) (m k : ℕ) :
    grow (graft (heapPath (m + 1)) (leaf (HNode.new (m + 1))) root) (m + 1) k = grow root m (k + 1) := by
  induction k with
  | zero => rfl
  | succ k ih =>
    have hk : m + 1 + k + 1 = m + (k + 1) + 1 := by omega
    rw [grow, ih, hk]
    rfl

lemma Shape.addNode_old (h : Shape root m) {n : ℕ} (hn : 0 < n) (hnm : n ≤ m) : addNode root n = .ok root := by
  obtain ⟨a, l, r, hs, ha, -⟩ := h.exists_sub hn hnm
  simp [addNode, h.findClosestNode_self hn hnm, hs, ok_bind, ha, pure, Except.pure]

lemma isRight_eq (i : ℕ) : (isRight i).toNat = i % 2 := by
  rw [isRight]
  rcases Nat.mod_two_eq_zero_or_one i with h | h <;> simp [h]

lemma Shape.addNode_next (h : Shape root m) (hlt : m + 1 < 2 ^ 32 - 1) :
    addNode root (m + 1) = .ok (graft (heapPath (m + 1)) (leaf (HNode.new (m + 1))) root) := by
  have hpos := h.pos
  obtain ⟨a, l, r, hs, ha, -⟩ := h.exists_sub (i := (m + 1) / 2) (by omega) (by omega)
  have hclosest : findClosestNode root (m + 1) = .ok (.node a l r) := by
    rw [findClosestNode_eq (by omega) hlt, h.full.closest_next hpos, hs]
  have hchild : child (isRight (m + 1)) (.node a l r) = .nil := by
    have hd : 2 * ((m + 1) / 2) + (isRight (m + 1)).toNat = m + 1 := by rw [isRight_eq]; omega
    rw [← hs, ← sub_child root (by omega)]
    by_contra hc
    have := (h.full.sub_ne_nil (by omega)).mp hc
    omega
  have hne : a.id ≠ m + 1 := by omega
  simp [addNode, hclosest, ok_bind, hne, assert_of ha.symm, hchild, value?_nil, assert_of trivial, pure, Except.pure,
    leaf]

lemma Shape.foldlM_addNode (h : Shape root m) {a : ℕ} (ha : a ≤ m) (hlt : a + k < 2 ^ 32 - 1) :
    (List.range' (a + 1) k).foldlM addNode root = .ok (FsHtree.grow root m (a + k - m)) := by
  induction k generalizing a m root with
  | zero =>
    rw [show a + 0 - m = 0 by omega]
    rfl
  | succ k ih =>
    rw [range'_succ, foldlM_cons]
    by_cases hm : a + 1 ≤ m
    · rw [h.addNode_old (by omega) hm, ok_bind, ih h hm (by omega)]
      congr 2
      omega
    · obtain rfl : a = m := by omega
      rw [h.addNode_next (by omega), ok_bind,
        ih (h.graft_leaf (by omega) rfl) le_rfl (by omega), show a + 1 + k - (a + 1) = k by omega,
        grow_succ', show a + (k + 1) - a = k + 1 by omega]

def Htree.nodes (ht : Htree) : ℕ := max 1 ht.imeta.maxNodeId.toNat

abbrev Htree.Wf (ht : Htree) : Prop := Shape ht.root ht.nodes

def Htree.ensure (ht : Htree) (nodeId : ℕ) : Htree :=
  if ht.nodes < nodeId then
    { ht with
      root := grow ht.root ht.nodes (nodeId - ht.nodes)
      imeta := { ht.imeta with maxNodeId := UInt32.ofNat nodeId } }
  else ht

variable {ht : Htree} {nodeId : ℕ}

lemma ensure_of_le (h : nodeId ≤ ht.nodes) : ht.ensure nodeId = ht := if_neg (Nat.not_lt.mpr h)

lemma nodes_ensure (hlt : nodeId < 2 ^ 32 - 1) : (ht.ensure nodeId).nodes = max ht.nodes nodeId := by
  unfold Htree.ensure
  split_ifs with h
  · rw [Htree.nodes, UInt32.toNat_ofNat_of_lt' (hlt.trans (by decide))]
    omega
  · omega

lemma Htree.Wf.ensure (h : ht.Wf) (hlt : nodeId < 2 ^ 32 - 1) : (ht.ensure nodeId).Wf := by
  rw [Htree.Wf, nodes_ensure hlt]
  by_cases hn : ht.nodes < nodeId
  · rw [Htree.ensure, if_pos hn, max_eq_right hn.le]
    have hk : ht.nodes + (nodeId - ht.nodes) = nodeId := by omega
    simpa only [hk] using h.grow (k := nodeId - ht.nodes) (by omega)
  · rw [ensure_of_le (by omega), max_eq_left (by omega)]
    exact h

lemma Htree.Wf.at?_ensure (h : ht.Wf) (hlt : nodeId < 2 ^ 32 - 1) (hj : 0 < j) : at? (ht.ensure nodeId).root j =
      if ht.nodes < j ∧ j ≤ nodeId then some (HNode.new j) else at? ht.root j := by
  by_cases hn : ht.nodes < nodeId
  · have hk : ht.nodes + (nodeId - ht.nodes) = nodeId := by omega
    rw [Htree.ensure, if_pos hn, h.at?_grow (by omega) hj, hk]
  · rw [ensure_of_le (by omega), if_neg (by omega)]

lemma Shape.getNode_of_le (h : Shape ht.root m) (hi : 0 < nodeId) (hle : nodeId ≤ m) (create : Bool) :
    getNode ht create nodeId = .ok ht := by
  obtain ⟨a, l, r, hs, ha, -⟩ := h.exists_sub hi hle
  simp [getNode, h.findClosestNode_self hi hle, hs, ok_bind, ha, pure, Except.pure]

lemma Shape.getNode_create (h : Shape ht.root m) (hn : m < nodeId) (hlt : nodeId < 2 ^ 32 - 1) :
    getNode ht true nodeId = .ok { ht with
      root := FsHtree.grow ht.root m (nodeId - m)
      imeta := if ht.imeta.maxNodeId.toNat < nodeId then
        { ht.imeta with maxNodeId := UInt32.ofNat nodeId } else ht.imeta } := by
  obtain ⟨a, l, r, hc, ha⟩ := h.findClosestNode_above hn hlt
  have hne : a.id ≠ nodeId := by omega
  have hk : a.id + (nodeId - a.id) - m = nodeId - m := by omega
  simp [getNode, hc, ok_bind, hne, Bool.not_true, Bool.false_eq_true,
    h.foldlM_addNode ha (k := nodeId - a.id) (by omega), hk, pure, Except.pure]

lemma Htree.Wf.getNode_create (h : ht.Wf) (hi : 0 < nodeId) (hlt : nodeId < 2 ^ 32 - 1) :
    getNode ht true nodeId = .ok (ht.ensure nodeId) := by
  by_cases hn : nodeId ≤ ht.nodes
  · rw [h.getNode_of_le hi hn, ensure_of_le hn]
  · have hmax : ht.imeta.maxNodeId.toNat < nodeId := by
      have : ht.imeta.maxNodeId.toNat ≤ ht.nodes := le_max_right _ _
      omega
    rw [Shape.getNode_create h (by omega) hlt, if_pos hmax, Htree.ensure, if_pos (by omega)]

lemma Htree.Wf.getNode_above (h : ht.Wf) (hn : ht.nodes < nodeId) (hlt : nodeId < 2 ^ 32 - 1) :
    getNode ht false nodeId = .error .generic := by
  obtain ⟨a, l, r, hc, ha⟩ := h.findClosestNode_above hn hlt
  have hne : a.id ≠ nodeId := by omega
  simp [getNode, hc, ok_bind, hne, Bool.not_false]

lemma Shape.graft_nil (h : Shape root (m + 1)) (hm : 0 < m) :
    Shape (graft (heapPath (m + 1)) .nil root) m where
  full := h.full.graft_nil
  ids := by
    intro i a hi ha
    rw [at?_graft_nil h.full (by omega) hi] at ha
    split_ifs at ha with hi'
    exact h.ids i a hi ha
  pos := hm
  lt := by have := h.lt; omega

def Htree.dropped (ht : Htree) : Htree :=
  { ht with
    root := graft (heapPath ht.imeta.maxNodeId.toNat) .nil ht.root
    imeta := { ht.imeta with maxNodeId := ht.imeta.maxNodeId - 1 }
    dirty := true }

lemma maxNodeId_dropped (h : 1 < ht.imeta.maxNodeId.toNat) :
    ht.dropped.imeta.maxNodeId.toNat = ht.imeta.maxNodeId.toNat - 1 := by
  have h1 : (1 : UInt32) ≤ ht.imeta.maxNodeId := by rw [UInt32.le_iff_toNat_le]; exact h.le
  exact UInt32.toNat_sub_of_le _ _ h1

section

variable (h : ht.Wf) (hm : 1 < ht.imeta.maxNodeId.toNat)
include h hm

lemma Htree.Wf.dropped : ht.dropped.Wf := by
  have hn : ht.nodes = ht.imeta.maxNodeId.toNat - 1 + 1 := by unfold Htree.nodes; omega
  have hd : ht.dropped.nodes = ht.imeta.maxNodeId.toNat - 1 := by
    unfold Htree.nodes; rw [maxNodeId_dropped hm]; omega
  rw [Htree.Wf, hn] at h
  rw [Htree.Wf, hd]
  have hp : ht.imeta.maxNodeId.toNat = ht.imeta.maxNodeId.toNat - 1 + 1 := by omega
  have := h.graft_nil (by omega)
  rwa [← hp] at this

lemma Htree.Wf.dropLastNode_eq : dropLastNode ht = .ok ht.dropped := by
  have hn : ht.nodes = ht.imeta.maxNodeId.toNat := max_eq_right hm.le
  obtain ⟨a, l, r, hs, ha, -⟩ := h.exists_sub (by omega) hn.ge
  obtain ⟨a', hl⟩ := h.full.leaf (by omega)
  rw [hn, hs] at hl
  cases hl
  have hne : ht.imeta.maxNodeId.toNat ≠ 1 := by omega
  simp [dropLastNode, h.findClosestNode_self (by omega) hn.ge, hs, ok_bind,
    assert_of ha, value?_nil, and_self, assert_of trivial, assert_of hne, pure, Except.pure, Htree.dropped]

lemma Htree.Wf.at?_dropped (hj : 0 < j) :
    at? ht.dropped.root j = if j = ht.imeta.maxNodeId.toNat then none else at? ht.root j := by
  have hn : ht.nodes = ht.imeta.maxNodeId.toNat := max_eq_right hm.le
  have hf : Full ht.root ht.imeta.maxNodeId.toNat := hn ▸ h.full
  exact at?_graft_nil hf (by omega) hj

end

lemma Htree.Wf.iterate_dropped (h : ht.Wf) (hk : k ≤ ht.imeta.maxNodeId.toNat - 1) : (Htree.dropped^[k] ht).Wf ∧
      (Htree.dropped^[k] ht).imeta.maxNodeId.toNat = ht.imeta.maxNodeId.toNat - k ∧
      ∀ j, 0 < j → at? (Htree.dropped^[k] ht).root j =
        if j ≤ ht.nodes - k then at? ht.root j else none := by
  induction k with
  | zero =>
    refine ⟨h, rfl, fun j hj => ?_⟩
    split_ifs with hle
    · rfl
    · exact Option.not_isSome_iff_eq_none.mp (fun hs => hle ((h.full j hj).mp hs))
  | succ k ih =>
    obtain ⟨hwf, hmax, hat⟩ := ih (by omega)
    have hm : 1 < (Htree.dropped^[k] ht).imeta.maxNodeId.toNat := by omega
    rw [iterate_succ_apply']
    refine ⟨hwf.dropped hm, by rw [maxNodeId_dropped hm]; omega, fun j hj => ?_⟩
    have hn : ht.nodes = ht.imeta.maxNodeId.toNat := by unfold Htree.nodes; omega
    rw [hwf.at?_dropped hm hj, hat j hj, hmax, hn]
    by_cases hj1 : j = ht.imeta.maxNodeId.toNat - k
    · rw [if_pos hj1, if_neg (by omega)]
    · rw [if_neg hj1]
      by_cases hj2 : j ≤ ht.imeta.maxNodeId.toNat - k
      · rw [if_pos hj2, if_pos (by omega)]
      · rw [if_neg hj2, if_neg (by omega)]

lemma Htree.Wf.dropNodes_eq (h : ht.Wf) (hk : k ≤ ht.imeta.maxNodeId.toNat - 1) :
    dropNodes k ht = .ok (Htree.dropped^[k] ht) := by
  induction k generalizing ht with
  | zero => rfl
  | succ k ih =>
    have hm : 1 < ht.imeta.maxNodeId.toNat := by omega
    rw [dropNodes, h.dropLastNode_eq hm, ok_bind,
      ih (h.dropped hm) (by rw [maxNodeId_dropped hm]; omega), iterate_succ_apply]

end Optee.FsHtree
