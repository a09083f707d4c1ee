import Optee.FsHtree.Sync

/-! Opening a file succeeds exactly on a stored tree that verifies, and loads that tree. -/

namespace Optee.FsHtree

open Lib.ByteStrings Lib.HeapTree List Option TeeResult

variable {B : ℕ} {C : Crypto} {P : HNode → Prop} {f : HostFile B} {v : Bool} {t root : BinaryTree HNode} {n : HNode}
  {image : NodeImage} {head : HeadImage} {hash : Option (Bytes 32)}

lemma holds_iff {i : ℕ} : Holds P f i v t ↔
      (∀ n, get? [] t = some n → P n → f.read (.node (i - 1) v) = some n.node) ∧
      ∀ p b n, get? (p ++ [b]) t = some n → P n → ∃ q, get? p t = some q ∧
        f.read (.node ((p ++ [b]).foldl (fun i b => 2 * i + b.toNat) i - 1) (q.childVersion b)) =
          some n.node := by
  induction t generalizing i v with
  | nil => simp [Holds]
  | node a l r ihl ihr =>
    rw [Holds, ihl, ihr]
    constructor
    · rintro ⟨ha, ⟨hl0, hl⟩, hr0, hr⟩
      refine ⟨fun n hn => by cases hn; exact ha, fun p b n hn hP => ?_⟩
      cases p with
      | nil => cases b with
        | false => exact ⟨a, rfl, hl0 n hn hP⟩
        | true => exact ⟨a, rfl, hr0 n hn hP⟩
      | cons c p => cases c with
        | false => exact hl p b n hn hP
        | true => exact hr p b n hn hP
    · rintro ⟨h0, h⟩
      refine ⟨h0 a rfl, ⟨fun n hn hP => ?_, fun p b n hn hP => ?_⟩, fun n hn hP => ?_,
        fun p b n hn hP => ?_⟩
      · obtain ⟨q, hq, hr⟩ := h [] false n hn hP
        cases hq
        exact hr
      · exact h (false :: p) b n hn hP
      · obtain ⟨q, hq, hr⟩ := h [] true n hn hP
        cases hq
        exact hr
      · exact h (true :: p) b n hn hP

lemma heapPath_eq_snoc {j : ℕ} (hj : 2 ≤ j) : heapPath j = heapPath (j / 2) ++ [isRight j] := by
  have hd : 2 * (j / 2) + (isRight j).toNat = j := by rw [isRight_eq]; omega
  have := heapPath_child (j / 2) (by omega) (isRight j)
  rwa [hd] at this

lemma holds_one_iff : Holds P f 1 v t ↔
      (∀ n, at? t 1 = some n → P n → f.read (.node 0 v) = some n.node) ∧
      ∀ j n, 2 ≤ j → at? t j = some n → P n → ∃ q, at? t (j / 2) = some q ∧
        f.read (.node (j - 1) (q.childVersion (isRight j))) = some n.node := by
  rw [holds_iff]
  refine and_congr Iff.rfl ⟨fun h j n hj hn hP => ?_, fun h p b n hn hP => ?_⟩
  · rw [at?, heapPath_eq_snoc hj] at hn
    obtain ⟨q, hq, hr⟩ := h _ _ n hn hP
    refine ⟨q, hq, ?_⟩
    rwa [← heapPath_eq_snoc hj, ← heapId, heapId_heapPath (by omega)] at hr
  · have hb := Bool.toNat_le b
    have hp := heapId_pos p
    have hj : heapId (p ++ [b]) = 2 * heapId p + b.toNat := heapId_snoc p b
    have hd : heapId (p ++ [b]) / 2 = heapId p := by omega
    have hr : isRight (heapId (p ++ [b])) = b := by
      rw [isRight]
      cases b <;> simp
    obtain ⟨q, hq, hread⟩ := h (heapId (p ++ [b])) n (by omega) (by rwa [at?_heapId]) hP
    rw [hd, at?_heapId] at hq
    rw [hr] at hread
    exact ⟨q, hq, hread⟩

structure OnDisk (C : Crypto) (f : HostFile B) (v : Bool) (ht : Htree) : Prop where
  wf : ht.Wf
  clean : Clean 1 ht.root
  notDirty : ht.dirty = false
  stored : Stored f 1 v ht.root
  head : f.read (.head v) = some ht.head
  verified : verifyRoot C ht.uuid (rootHash ht.root) ht.head = .ok (ht.fek, ht.imeta)

structure Committed (C : Crypto) (f : HostFile B) (v : Bool) (ht : Htree) : Prop
    extends OnDisk C f v ht where
  hashOk : HashOk C (some ht.imeta.metadata) ht.root

def loadedNode (nodeId : ℕ) (image : NodeImage) : HNode := { HNode.new nodeId with node := image }

def Htree.withRoot (ht : Htree) (root : BinaryTree HNode) : Htree := { ht with root }

variable {ht : Htree} {m : ℕ}

lemma Shape.modify_graft_leaf (h : Shape ht.root m) {g : HNode → HNode} (hn : g (HNode.new (m + 1)) = n) :
    updateNode (m + 1) g (graft (heapPath (m + 1)) (leaf (HNode.new (m + 1))) ht.root) =
      graft (heapPath (m + 1)) (leaf n) ht.root := by
  have hpos := h.pos
  apply ext_at?
  intro j hj
  rw [updateNode, at?_modify _ _ (by omega) hj, leaf, leaf,
    at?_graft_leaf h.full (by omega) (by omega) (by omega) hj,
    at?_graft_leaf h.full (by omega) (by omega) (by omega) hj]
  split_ifs with hjm
  · rw [map_some, hn]
  · rfl

lemma Shape.loadNode_eq (h : Shape ht.root m) (hmax : m + 1 ≤ ht.imeta.maxNodeId.toNat)
    (hlt : m + 1 < 2 ^ 32 - 1) : loadNode f ht (m + 1) =
      match at? ht.root ((m + 1) / 2) with
      | none => .error .generic
      | some parent => (rpcReadNode f (m + 1) (parent.childVersion (isRight (m + 1)))) >>= fun image =>
        .ok (ht.withRoot (graft (heapPath (m + 1)) (leaf (loadedNode (m + 1) image)) ht.root)) := by
  have hpos := h.pos
  obtain ⟨q, hq, -⟩ := h.at?_isSome (i := (m + 1) / 2) (by omega) (by omega)
  simp only [loadNode, h.findNode_eq (i := (m + 1) / 2) (by omega) (by omega), hq, ok_bind,
    h.getNode_create (Nat.lt_succ_self m) hlt, pure, Except.pure]
  congr 1
  funext image
  rw [if_neg (by omega), show m + 1 - m = 1 by omega]
  have hg : FsHtree.grow ht.root m 1 = graft (heapPath (m + 1)) (leaf (HNode.new (m + 1))) ht.root := rfl
  rw [hg, h.modify_graft_leaf rfl]
  rfl

def LoadedAt (f : HostFile B) (root : BinaryTree HNode) (i : ℕ) : Prop :=
  ∃ image q, at? root i = some (loadedNode i image) ∧ at? root (i / 2) = some q ∧
    f.read (.node (i - 1) (q.childVersion (isRight i))) = some image

lemma rpcReadNode_succ {i : ℕ} : rpcReadNode f (i + 1) v = .ok image ↔ f.read (.node i v) = some image := by
  rw [rpcReadNode, orError_eq_ok, Nat.add_sub_cancel]

lemma Shape.loadNode_ok_iff (h : Shape ht.root m) (hmax : m + 1 ≤ ht.imeta.maxNodeId.toNat)
    (hlt : m + 1 < 2 ^ 32 - 1) {ht' : Htree} : loadNode f ht (m + 1) = .ok ht' ↔
      ∃ image q, at? ht.root ((m + 1) / 2) = some q ∧
        f.read (.node m (q.childVersion (isRight (m + 1)))) = some image ∧
        ht' = ht.withRoot (graft (heapPath (m + 1)) (leaf (loadedNode (m + 1) image)) ht.root) := by
  have hpos := h.pos
  obtain ⟨q, hq, -⟩ := h.at?_isSome (i := (m + 1) / 2) (by omega) (by omega)
  simp only [h.loadNode_eq hmax hlt, hq, bind_eq_ok, rpcReadNode_succ, Option.some.injEq,
    Except.ok.injEq]
  constructor
  · rintro ⟨image, hi, rfl⟩
    exact ⟨image, q, rfl, hi, rfl⟩
  · rintro ⟨image, _, rfl, hi, rfl⟩
    exact ⟨image, hi, rfl⟩

lemma Shape.loadNodes_ok_iff {k : ℕ} (h : Shape ht.root m)
    (hmax : k = 0 ∨ m + k ≤ ht.imeta.maxNodeId.toNat) (hlt : m + k < 2 ^ 32 - 1) {ht' : Htree} :
    (List.range' (m + 1) k).foldlM (loadNode f) ht = .ok ht' ↔
      ∃ root, ht' = ht.withRoot root ∧ Shape root (m + k) ∧
        (∀ i, 0 < i → i ≤ m → at? root i = at? ht.root i) ∧
        ∀ i, m < i → i ≤ m + k → LoadedAt f root i := by
  induction k generalizing ht m with
  | zero =>
    simp only [range'_zero, foldlM_nil, pure, Except.pure, Except.ok.injEq]
    constructor
    · rintro rfl
      exact ⟨ht.root, rfl, h, fun _ _ _ => rfl, fun i h1 h2 => by omega⟩
    · rintro ⟨root, rfl, hs, hold, -⟩
      have : root = ht.root := by
        apply ext_at?
        intro i hi
        by_cases him : i ≤ m
        · exact hold i hi him
        · rw [not_isSome_iff_eq_none.mp (fun hh => him ((hs.full i hi).mp hh)),
            not_isSome_iff_eq_none.mp (fun hh => him ((h.full i hi).mp hh))]
      rw [this]
      rfl
  | succ k ih =>
    have hpos := h.pos
    have hstep : ∀ image, Shape (ht.withRoot
        (graft (heapPath (m + 1)) (leaf (loadedNode (m + 1) image)) ht.root)).root (m + 1) :=
      fun image => h.graft_leaf (by omega) rfl
    have hat : ∀ image i, 0 < i →
        at? (graft (heapPath (m + 1)) (leaf (loadedNode (m + 1) image)) ht.root) i =
          if i = m + 1 then some (loadedNode (m + 1) image) else at? ht.root i := fun image i hi =>
      at?_graft_leaf h.full (by omega) (by omega) (by omega) hi
    have hsum : m + 1 + k = m + (k + 1) := by omega
    rw [range'_succ, foldlM_cons, bind_eq_ok]
    constructor
    · rintro ⟨ht1, h₁, hrest⟩
      obtain ⟨image, q, hq, hread, rfl⟩ := (h.loadNode_ok_iff (by omega) (by omega)).mp h₁
      obtain ⟨root, rfl, hs, hold, hnew⟩ :=
        (ih (hstep image) (Or.inr (by simp only [Htree.withRoot]; omega)) (by omega)).mp hrest
      rw [hsum] at hs hnew
      refine ⟨root, rfl, hs, fun i hi him => ?_, fun i hi him => ?_⟩
      · rw [hold i hi (by omega)]
        simp only [Htree.withRoot, hat image i hi]
        rw [if_neg (by omega)]
      · by_cases him' : i = m + 1
        · subst him'
          refine ⟨image, q, ?_, ?_, hread⟩
          · rw [hold _ (by omega) le_rfl]
            simp [Htree.withRoot, hat image _ (Nat.succ_pos m)]
          · rw [hold _ (by omega) (by omega)]
            simp only [Htree.withRoot, hat image ((m + 1) / 2) (by omega)]
            rw [if_neg (by omega), hq]
        · exact hnew i (by omega) him
    · rintro ⟨root, rfl, hs, hold, hnew⟩
      obtain ⟨image, q, hi, hq, hread⟩ := hnew (m + 1) (by omega) (by omega)
      rw [hold _ (by omega) (by omega)] at hq
      refine ⟨_, (h.loadNode_ok_iff (by omega) (by omega)).mpr ⟨image, q, hq, hread, rfl⟩, ?_⟩
      refine (ih (hstep image) (Or.inr (by simp only [Htree.withRoot]; omega)) (by omega)).mpr ⟨root, rfl, by rwa [hsum], fun i hi' him => ?_, fun i hi' him => ?_⟩
      · simp only [Htree.withRoot, hat image i hi']
        split_ifs with him'
        · rw [him', hi]
        · exact hold i hi' (by omega)
      · exact hnew i (by omega) (by omega)

lemma shape_leaf (hid : n.id = 1) : Shape (leaf n) 1 where
  full := by
    intro i hi
    by_cases h1 : i = 1
    · subst h1; simp [leaf, at?, get?]
    rw [at?, heapPath_eq_snoc (by omega), get?, leaf]
    constructor
    · intro hs
      cases hp : heapPath (i / 2) with
      | nil => rw [hp] at hs; cases hr : isRight i <;> simp [hr, sub] at hs
      | cons b p => rw [hp] at hs; cases b <;> simp [sub] at hs
    · intro; omega
  ids := by
    intro i a hi hn
    by_cases h1 : i = 1
    · subst h1
      cases hn
      exact hid
    · rw [at?, heapPath_eq_snoc (by omega), get?, leaf] at hn
      cases hp : heapPath (i / 2) with
      | nil => rw [hp] at hn; cases hr : isRight i <;> simp [hr, sub] at hn
      | cons b p => rw [hp] at hn; cases b <;> simp [sub] at hn
  pos := one_pos
  lt := by decide

lemma loadNode_last (hht : Htree) : loadNode f hht (2 ^ 32 - 1) ≠ .ok ht := by
  have hf : ∀ root, findClosestNode root (2 ^ 32 - 1) = .error .panic := fun root => rfl
  intro h
  simp only [loadNode, getNode, hf, error_bind] at h
  rw [bind_eq_ok] at h
  obtain ⟨p, -, hp⟩ := h
  cases p with
  | none => cases hp
  | some p =>
    simp only [bind_eq_ok] at hp
    obtain ⟨_, _, _, he, _⟩ := hp

lemma initTreeFromData_ok_iff {ht0 : Htree} (h0 : ht0.root = leaf (loadedNode 1 image)) :
    initTreeFromData f ht0 = .ok ht ↔
      ∃ root, ht = ht0.withRoot root ∧ Shape root ht0.nodes ∧
        at? root 1 = some (loadedNode 1 image) ∧ ∀ i, 1 < i → i ≤ ht0.nodes → LoadedAt f root i := by
  have hs : Shape ht0.root 1 := h0 ▸ shape_leaf rfl
  have hk : 1 + (ht0.imeta.maxNodeId.toNat - 1) = ht0.nodes := by unfold Htree.nodes; omega
  have hone : ∀ root : BinaryTree HNode, (∀ i, 0 < i → i ≤ 1 → at? root i = at? ht0.root i) ↔
      at? root 1 = some (loadedNode 1 image) := by
    intro root
    rw [h0]
    constructor
    · intro h; exact h 1 one_pos le_rfl
    · intro h i hi hi'
      obtain rfl : i = 1 := by omega
      exact h
  by_cases hlt : ht0.imeta.maxNodeId.toNat < 2 ^ 32 - 1
  · rw [initTreeFromData, hs.loadNodes_ok_iff (by omega) (by omega), hk]
    simp [hone]
  -- the last number is out of range for the search
  have hmax : ht0.imeta.maxNodeId.toNat = 2 ^ 32 - 1 := by
    have := ht0.imeta.maxNodeId.toNat_lt
    omega
  refine iff_of_false (fun h => ?_) ?_
  · rw [initTreeFromData, hmax, show 2 ^ 32 - 1 - 1 = (2 ^ 32 - 3) + 1 by decide, range'_concat,
      foldlM_append, bind_eq_ok] at h
    obtain ⟨ht1, -, h⟩ := h
    rw [foldlM_cons, bind_eq_ok] at h
    obtain ⟨ht2, h, -⟩ := h
    exact loadNode_last ht1 h
  · rintro ⟨root, -, hs', -, -⟩
    have := hs'.lt
    omega

lemma Shape.clean_stored_iff (h : Shape root m) :
    Clean 1 root ∧ Stored f 1 v root ↔ ∃ image, f.read (.node 0 v) = some image ∧
      at? root 1 = some (loadedNode 1 image) ∧ ∀ i, 1 < i → i ≤ m → LoadedAt f root i := by
  have hpos := h.pos
  have hloaded : Clean 1 root → ∀ i n, 0 < i → at? root i = some n → n = loadedNode i n.node := by
    intro hc i n hi hn
    obtain ⟨hd, hb⟩ := allAt_one_iff.mp hc i n hi hn
    have hid := h.ids i n hi hn
    cases n
    simp_all [loadedNode, HNode.new]
  rw [Stored, holds_one_iff]
  constructor
  · rintro ⟨hc, h1, hrest⟩
    obtain ⟨n, hn, -⟩ := h.at?_isSome one_pos hpos
    refine ⟨n.node, h1 n hn trivial, by rw [← hloaded hc 1 n one_pos hn]; exact hn, fun i hi him => ?_⟩
    obtain ⟨n, hn, -⟩ := h.at?_isSome (by omega) him
    obtain ⟨q, hq, hread⟩ := hrest i n hi hn trivial
    exact ⟨n.node, q, by rw [← hloaded hc i n (by omega) hn]; exact hn, hq, hread⟩
  · rintro ⟨image, hread, h1, hrest⟩
    refine ⟨allAt_one_iff.mpr (fun i n hi hn => ?_), fun n hn _ => ?_, fun j n hj hn _ => ?_⟩
    · by_cases hi1 : i = 1
      · subst hi1
        rw [h1] at hn
        cases hn
        exact ⟨rfl, rfl⟩
      · obtain ⟨_, _, hi', -, -⟩ := hrest i (by omega) ((h.full i hi).mp (by simp [hn]))
        rw [hi'] at hn
        cases hn
        exact ⟨rfl, rfl⟩
    · rw [h1] at hn
      cases hn
      exact hread
    · obtain ⟨image', q, hi', hq, hr⟩ := hrest j (by omega) ((h.full j (by omega)).mp (by simp [hn]))
      rw [hi'] at hn
      cases hn
      exact ⟨q, hq, hr⟩

def Picks (f : HostFile B) (hash : Option (Bytes 32)) (v : Bool) : Prop :=
  match hash with
  | some h => ∃ n₀ : NodeImage, f.read (.node 0 false) = some n₀ ∧
      (n₀.hash = h ∧ v = false ∨
        n₀.hash ≠ h ∧ v = true ∧ ∃ n₁ : NodeImage, f.read (.node 0 true) = some n₁ ∧ n₁.hash = h)
  | none => ∃ h₀ h₁ : HeadImage, f.read (.head false) = some h₀ ∧ f.read (.head true) = some h₁ ∧
      getIdxFromCounter h₀.counter h₁.counter = some v

lemma rpcReadHead_ok : rpcReadHead f v = .ok head ↔ f.read (.head v) = some head := by
  rw [rpcReadHead, orError_eq_ok]

lemma initHeadFromData_ok_iff {node : NodeImage} : initHeadFromData f hash = .ok (node, head) ↔
      ∃ v, Picks f hash v ∧ f.read (.node 0 v) = some node ∧ f.read (.head v) = some head := by
  have hnode : ∀ v image, rpcReadNode f 1 v = .ok image ↔ f.read (.node 0 v) = some image :=
    fun v image => rpcReadNode_succ
  cases hash with
  | some h =>
    simp only [initHeadFromData, bind_eq_ok, hnode]
    constructor
    · rintro ⟨n0, hn0, hrest⟩
      split_ifs at hrest with hh
      · simp only [bind_eq_ok, rpcReadHead_ok, pure, Except.pure] at hrest
        obtain ⟨hd, hhd, he⟩ := hrest
        cases he
        exact ⟨false, ⟨_, hn0, Or.inl ⟨hh, rfl⟩⟩, hn0, hhd⟩
      · simp only [bind_eq_ok, hnode] at hrest
        obtain ⟨n1, hn1, hrest⟩ := hrest
        split_ifs at hrest with hh'
        simp only [bind_eq_ok, rpcReadHead_ok, pure, Except.pure] at hrest
        obtain ⟨hd, hhd, he⟩ := hrest
        cases he
        exact ⟨true, ⟨n0, hn0, Or.inr ⟨hh, rfl, _, hn1, hh'⟩⟩, hn1, hhd⟩
    · rintro ⟨v, ⟨n0, hn0, ⟨hh, rfl⟩ | ⟨hh, rfl, n1, hn1, hh'⟩⟩, hn, hhd⟩
      · rw [hn0] at hn
        cases hn
        exact ⟨_, hn0, by simp [hh, rpcReadHead, hhd, pure, Except.pure]⟩
      · rw [hn1] at hn
        cases hn
        exact ⟨n0, hn0, by simp [hh, (hnode true _).mpr hn1, hh', rpcReadHead, hhd, pure, Except.pure]⟩
  | none =>
    simp only [initHeadFromData, bind_eq_ok, rpcReadHead_ok]
    constructor
    · rintro ⟨h0, hh0, h1, hh1, hrest⟩
      split at hrest
      · cases hrest
      rename_i idx hidx
      simp only [bind_eq_ok, hnode, pure, Except.pure] at hrest
      obtain ⟨n, hn, he⟩ := hrest
      refine ⟨idx, ⟨h0, h1, hh0, hh1, hidx⟩, ?_⟩
      cases idx <;> cases he <;> exact ⟨hn, by assumption⟩
    · rintro ⟨v, ⟨h0, h1, hh0, hh1, hidx⟩, hn, hhd⟩
      refine ⟨h0, hh0, h1, hh1, ?_⟩
      simp only [hidx, (hnode v node).mpr hn, ok_bind, pure, Except.pure]
      cases v with
      | false => rw [hh0] at hhd; cases hhd; rfl
      | true => rw [hh1] at hhd; cases hhd; rfl

lemma rootHash_of_at? (h : at? root 1 = some n) : rootHash root = n.node.hash := by
  cases root with
  | nil => simp [at?] at h
  | node a l r => cases h; rfl

lemma OnDisk.openHtree_eq (h : OnDisk C f v ht) (hp : Picks f hash v) :
    openHtree C f hash ht.uuid = verifyTree C ht >>= fun _ => pure ht := by
  obtain ⟨image, hread, h1, hload⟩ := h.wf.clean_stored_iff.mp ⟨h.clean, h.stored⟩
  have hinit : initTreeFromData f ⟨leaf (loadedNode 1 image), ht.head, ht.fek, ht.imeta, false, ht.uuid⟩ =
      .ok ht := by
    refine (initTreeFromData_ok_iff rfl).mpr ⟨ht.root, ?_, h.wf, h1, hload⟩
    rw [Htree.withRoot, ← h.notDirty]
  have hver : verifyRoot C ht.uuid image.hash ht.head = .ok (ht.fek, ht.imeta) := by
    have hr := h.verified
    rwa [rootHash_of_at? h1] at hr
  simp only [openHtree, initHeadFromData_ok_iff.mpr ⟨v, hp, hread, h.head⟩, hver, ok_bind]
  exact congrArg (· >>= fun ht => verifyTree C ht >>= fun _ => pure ht) hinit

lemma openHtree_ok_iff {uuid : Option Uuid} :
    openHtree C f hash uuid = .ok ht ↔ ht.uuid = uuid ∧ ∃ v, Picks f hash v ∧ Committed C f v ht := by
  constructor
  · intro h
    simp only [openHtree, bind_eq_ok, Prod.exists, initHeadFromData_ok_iff] at h
    obtain ⟨node, head, ⟨v, hv, hnode, hhead⟩, fek, imeta, hver, ht', hinit, _, hverify, hret⟩ := h
    cases hret
    obtain ⟨root, rfl, hs, h1, hload⟩ := (initTreeFromData_ok_iff rfl).mp hinit
    obtain ⟨hc, hst⟩ := hs.clean_stored_iff.mpr ⟨node, hnode, h1, hload⟩
    refine ⟨rfl, v, hv, ⟨⟨hs, hc, rfl, hst, hhead, ?_⟩, verifyNodes_eq_ok.mp hverify⟩⟩
    have hr : rootHash root = node.hash := rootHash_of_at? h1
    simpa only [Htree.withRoot, hr] using hver
  · rintro ⟨rfl, v, hv, hc⟩
    have hverify : verifyTree C ht = .ok () := verifyNodes_eq_ok.mpr hc.hashOk
    rw [hc.openHtree_eq hv, hverify]
    rfl

end Optee.FsHtree
