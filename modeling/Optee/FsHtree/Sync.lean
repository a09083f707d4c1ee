import Optee.FsHtree.Shape

/-! What a sync writes and what it leaves behind. -/

namespace Optee.FsHtree

open Lib.ByteStrings Lib.HeapTree List Option TeeResult HostFile

variable {B : ℕ} (C : Crypto)

def touched : BinaryTree HNode → Bool
  | .nil => false
  | .node n l r => n.dirty || touched l || touched r

def HNode.childVersion (n : HNode) (b : Bool) : Bool := n.node.version (committedChild b)

def HNode.blockVersion (n : HNode) : Bool := n.node.version committedBlock

def HNode.visited (n : HNode) (b : Bool) (t : BinaryTree HNode) : HNode :=
  if touched t then { n with dirty := true, node := n.node.flip (committedChild b) } else n

def HNode.marked (n : HNode) (l r : BinaryTree HNode) : HNode := (n.visited false l).visited true r

def syncTree : Option Meta → BinaryTree HNode → BinaryTree HNode
  | _, .nil => .nil
  | metadata, .node n l r =>
    if touched (.node n l r) then
      .node ((n.marked l r).flush C metadata (syncTree none l) (syncTree none r))
        (syncTree none l) (syncTree none r)
    else .node n l r

def syncWrites : Option Meta → ℕ → Bool → BinaryTree HNode → List (HostWrite B)
  | _, _, _, .nil => []
  | metadata, i, v, .node n l r =>
    if touched (.node n l r) then
      syncWrites none (2 * i) (n.childVersion false) l ++
        syncWrites none (2 * i + 1) (n.childVersion true) r ++
        [rpcWriteNode i (!v) ((n.marked l r).flush C metadata (syncTree C none l) (syncTree C none r)).node]
    else []

abbrev Numbered (i : ℕ) (t : BinaryTree HNode) : Prop := AllAt (fun j n => n.id = j) i t

abbrev Tidy (i : ℕ) (t : BinaryTree HNode) : Prop := AllAt (fun _ n => n.blockUpdated ≤ n.dirty) i t

@[simp] lemma touched_nil : touched .nil = false := rfl

section

variable (n : HNode) (b : Bool) (l r t : BinaryTree HNode) (metadata : Option Meta)

lemma touched_node : touched (.node n l r) = (n.dirty || touched l || touched r) := rfl

@[simp] lemma visited_id : (n.visited b t).id = n.id := by
  unfold HNode.visited; split_ifs <;> rfl

@[simp] lemma visited_blockUpdated : (n.visited b t).blockUpdated = n.blockUpdated := by
  unfold HNode.visited; split_ifs <;> rfl

@[simp] lemma visited_dirty : (n.visited b t).dirty = (n.dirty || touched t) := by
  unfold HNode.visited; split_ifs with h <;> simp [h]

@[simp] lemma visited_childVersion (c : Bool) :
    (n.visited b t).childVersion c = (n.childVersion c ^^ (decide (b = c) && touched t)) := by
  unfold HNode.visited HNode.childVersion
  split_ifs with h
  · rw [NodeImage.version_flip _ (committedChild_lt b), h]
    by_cases hc : c = b
    · subst hc; simp
    · simp [hc, Ne.symm hc]
  · simp [h]

@[simp] lemma visited_blockVersion : (n.visited b t).blockVersion = n.blockVersion := by
  unfold HNode.visited HNode.blockVersion
  split_ifs
  · rw [NodeImage.version_flip _ (committedChild_lt b)]; simp
  · rfl

lemma visited_hash :
    (n.visited b t).node.hash = n.node.hash ∧ (n.visited b t).node.iv = n.node.iv ∧
      (n.visited b t).node.tag = n.node.tag := by
  unfold HNode.visited; split_ifs <;> exact ⟨rfl, rfl, rfl⟩

lemma visited_visited : (n.visited false l).visited true r = n.marked l r := rfl

@[simp] lemma marked_id : (n.marked l r).id = n.id := by
  simp [HNode.marked]

lemma marked_dirty : (n.marked l r).dirty = touched (.node n l r) := by
  simp [HNode.marked, touched_node]

@[simp] lemma flush_childVersion : (n.flush C metadata l r).childVersion b = n.childVersion b := rfl

@[simp] lemma marked_childVersion_false :
    (n.marked l r).childVersion false = (n.childVersion false ^^ touched l) := by
  simp [HNode.marked]

@[simp] lemma marked_childVersion_true :
    (n.marked l r).childVersion true = (n.childVersion true ^^ touched r) := by
  simp [HNode.marked]

@[simp] lemma marked_blockVersion : (n.marked l r).blockVersion = n.blockVersion := by
  simp [HNode.marked]

end

variable {metadata : Option Meta} {t : BinaryTree HNode}

lemma syncTree_of_untouched (h : touched t = false) :
    syncTree C metadata t = t := by
  cases t with
  | nil => rfl
  | node n l r => rw [syncTree, if_neg (by simp [h])]

lemma syncWrites_of_untouched {i : ℕ} {v : Bool}
    (h : touched t = false) : syncWrites (B := B) C metadata i v t = [] := by
  cases t with
  | nil => rfl
  | node n l r => rw [syncWrites, if_neg (by simp [h])]

variable {n : HNode} {l r t₀ : BinaryTree HNode} {ws : List (HostWrite B)} {w : HostWrite B} {j : ℕ}

lemma touched_children (h : touched (.node n l r) = false) :
    n.dirty = false ∧ touched l = false ∧ touched r = false := by
  simpa [touched_node, and_assoc] using h

lemma marked_tidy (h : n.blockUpdated ≤ n.dirty) (l r : BinaryTree HNode) :
    (n.marked l r).blockUpdated ≤ touched (.node n l r) := by
  revert h
  simp only [HNode.marked, visited_blockUpdated, touched_node]
  cases n.blockUpdated <;> cases n.dirty <;> simp

lemma marked_of_untouched (hl : touched l = false) (hr : touched r = false) : n.marked l r = n := by
  simp [HNode.marked, HNode.visited, hl, hr]

lemma isRight_left (i : ℕ) : isRight (2 * i) = false := by simp [isRight]

lemma isRight_right (i : ℕ) : isRight (2 * i + 1) = true := by simp [isRight]

lemma syncNodes_eq {i : ℕ} (parent : HNode) (hn : Numbered i t)
    (ht : Tidy i t) : syncNodes (B := B) C parent t =
      .ok (syncTree C none t, parent.visited (isRight i) t,
        syncWrites C none i (parent.childVersion (isRight i)) t) := by
  induction t generalizing i parent with
  | nil => simp [syncNodes, syncTree, syncWrites, HNode.visited, pure, Except.pure]
  | node n l r ihl ihr =>
    have hid : n.id = i := hn.1
    simp only [syncNodes, ihl n hn.2.1 ht.2.1, ihr (n.visited false l) hn.2.2 ht.2.2, isRight_left,
      isRight_right, ok_bind, visited_visited, assert_of (marked_tidy ht.1 l r),
      marked_dirty, marked_id, hid, pure, Except.pure, visited_childVersion, Bool.false_eq_true,
      decide_false, Bool.false_and, Bool.xor_false]
    cases htouch : touched (.node n l r) with
    | true =>
      have hv : (parent.node.flip (committedChild (isRight i))).version (committedChild (isRight i)) =
          !parent.childVersion (isRight i) := by
        simp [NodeImage.version_flip _ (committedChild_lt _), HNode.childVersion]
      have hp : parent.visited (isRight i) (.node n l r) =
          { parent with dirty := true, node := parent.node.flip (committedChild (isRight i)) } :=
        if_pos htouch
      simp [syncTree, syncWrites, htouch, hv, hp]
    | false =>
      obtain ⟨-, hl, hr⟩ := touched_children htouch
      have hp : parent.visited (isRight i) (.node n l r) = parent := if_neg (by simp [htouch])
      simp [htouch, syncTree_of_untouched, syncWrites_of_untouched, hl, hr, marked_of_untouched, hp]

lemma syncRoot_eq (counter : UInt32) (metadata : Meta)
    (hn : Numbered 1 t) (ht : Tidy 1 t) : syncRoot (B := B) C counter metadata t =
      .ok (syncTree C (some metadata) t,
        syncWrites C (some metadata) 1 (!decide (counter % 2 = 0)) t) := by
  cases t with
  | nil => rfl
  | node n l r =>
    have hid : n.id = 1 := hn.1
    simp only [syncRoot, syncNodes_eq C n hn.2.1 ht.2.1, syncNodes_eq C (n.visited false l) hn.2.2 ht.2.2,
      isRight_left, isRight_right, ok_bind, visited_visited,
      assert_of (marked_tidy ht.1 l r), marked_dirty, marked_id, hid, pure, Except.pure,
      visited_childVersion, Bool.false_eq_true, decide_false, Bool.false_and, Bool.xor_false]
    cases htouch : touched (.node n l r) with
    | true => simp [syncTree, syncWrites, htouch, Bool.not_not]
    | false =>
      obtain ⟨-, hl, hr⟩ := touched_children htouch
      simp [htouch, syncTree_of_untouched, syncWrites_of_untouched, hl, hr, marked_of_untouched]

def Holds (P : HNode → Prop) (f : HostFile B) : ℕ → Bool → BinaryTree HNode → Prop
  | _, _, .nil => True
  | i, v, .node n l r =>
    (P n → f.read (.node (i - 1) v) = some n.node) ∧
      Holds P f (2 * i) (n.childVersion false) l ∧ Holds P f (2 * i + 1) (n.childVersion true) r

abbrev Stored (f : HostFile B) (i : ℕ) (v : Bool) (t : BinaryTree HNode) : Prop :=
  Holds (fun _ => True) f i v t

abbrev Backed (f : HostFile B) (i : ℕ) (v : Bool) (t : BinaryTree HNode) : Prop :=
  Holds (fun n => n.dirty = false) f i v t

def Uses : ℕ → Bool → BinaryTree HNode → Slot → Prop
  | _, _, .nil, _ => False
  | i, v, .node n l r, s =>
    s = .node (i - 1) v ∨ s = .block (i - 1) n.blockVersion ∨
      Uses (2 * i) (n.childVersion false) l s ∨ Uses (2 * i + 1) (n.childVersion true) r s

variable {C}
variable {P : HNode → Prop} {f f' : HostFile B} {i : ℕ} {v : Bool} {t : BinaryTree HNode}

lemma Holds.frame (h : Holds P f i v t)
    (hf : ∀ s, Uses i v t s → ∀ x, f.read s = some x → f'.read s = some x) : Holds P f' i v t := by
  induction t generalizing i v with
  | nil => trivial
  | node n l r ihl ihr =>
    refine ⟨fun hn => hf _ (Or.inl rfl) _ (h.1 hn), ihl h.2.1 ?_, ihr h.2.2 ?_⟩
    · exact fun s hs => hf s (Or.inr (Or.inr (Or.inl hs)))
    · exact fun s hs => hf s (Or.inr (Or.inr (Or.inr hs)))

lemma Holds.frame_nodes (h : Holds P f i v t)
    (hf : ∀ idx u x, f.read (.node idx u) = some x → f'.read (.node idx u) = some x) :
    Holds P f' i v t := by
  induction t generalizing i v with
  | nil => trivial
  | node n l r ihl ihr => exact ⟨fun hn => hf _ _ _ (h.1 hn), ihl h.2.1, ihr h.2.2⟩

lemma Holds.writeAll (h : Holds P f i v t) (hw : ∀ w ∈ ws, ¬ Uses i v t w.1) : Holds P (f.writeAll ws) i v t :=
  h.frame (fun _ hs _ hx => read_writeAll (fun w hm he => hw w hm (he ▸ hs)) hx)

def Slot.nodeId : Slot → ℕ
  | .head _ => 0
  | .node idx _ => idx + 1
  | .block idx _ => idx + 1

lemma Uses.under {s : Slot} (hi : 0 < i) (h : Uses i v t s) : Under i s.nodeId := by
  induction t generalizing i v with
  | nil => exact h.elim
  | node n l r ihl ihr =>
    rcases h with rfl | rfl | h | h
    · rw [Slot.nodeId, Nat.sub_add_cancel hi]; exact Under.refl i
    · rw [Slot.nodeId, Nat.sub_add_cancel hi]; exact Under.refl i
    · exact Under.of_child (b := false) (ihl (by omega) h)
    · exact Under.of_child (b := true) (ihr (by omega) h)

lemma mem_syncWrites (hi : 0 < i) (h : w ∈ syncWrites C metadata i v t) :
    ∃ idx vers, w.1 = .node idx vers ∧ Under i (idx + 1) := by
  induction t generalizing i v metadata with
  | nil => simp [syncWrites] at h
  | node n l r ihl ihr =>
    rw [syncWrites] at h
    split_ifs at h
    · simp only [mem_append, mem_singleton] at h
      rcases h with (h | h) | rfl
      · obtain ⟨idx, vers, he, hu⟩ := ihl (by omega) h
        exact ⟨idx, vers, he, Under.of_child (b := false) hu⟩
      · obtain ⟨idx, vers, he, hu⟩ := ihr (by omega) h
        exact ⟨idx, vers, he, Under.of_child (b := true) hu⟩
      · exact ⟨i - 1, !v, rfl, by rw [Nat.sub_add_cancel hi]; exact Under.refl i⟩
    · simp at h

lemma mem_syncWrites_under (hi : 0 < i) (h : w ∈ syncWrites C metadata i v t) :
    Under i w.1.nodeId := by
  obtain ⟨idx, vers, he, hu⟩ := mem_syncWrites hi h
  rwa [he]

lemma Holds.stored_of_untouched (h : Backed f i v t) (ht : touched t = false) : Stored f i v t := by
  induction t generalizing i v with
  | nil => trivial
  | node n l r ihl ihr =>
    obtain ⟨hd, hl, hr⟩ := touched_children ht
    exact ⟨fun _ => h.1 hd, ihl h.2.1 hl, ihr h.2.2 hr⟩

lemma Holds.stored_syncTree (h : Backed f i v t) (metadata : Option Meta) (hi : 0 < i) :
    Stored (f.writeAll (syncWrites C metadata i v t)) i (v ^^ touched t) (syncTree C metadata t) := by
  induction t generalizing i v metadata f with
  | nil => trivial
  | node n l r ihl ihr =>
    cases htouch : touched (.node n l r) with
    | false =>
      rw [syncWrites_of_untouched C htouch, syncTree_of_untouched C htouch, Bool.xor_false]
      exact h.stored_of_untouched htouch
    | true =>
      have hl := ihl h.2.1 none (by omega)
      have hr : Backed (f.writeAll (syncWrites C none (2 * i) (n.childVersion false) l)) (2 * i + 1)
          (n.childVersion true) r :=
        h.2.2.writeAll fun w hw hu => Under.left_right hi (mem_syncWrites_under (by omega) hw) (hu.under (by omega))
      have hr' := ihr hr none (by omega)
      rw [syncTree, syncWrites, if_pos htouch, if_pos htouch, Bool.xor_true]
      refine ⟨fun _ => read_writeAll_last _ _ _, ?_, ?_⟩
      · rw [flush_childVersion, marked_childVersion_false, append_assoc, HostFile.writeAll_append]
        refine hl.writeAll (fun w hw hu => ?_)
        have hu' := hu.under (by omega)
        rcases mem_append.mp hw with hw | hw
        · exact Under.left_right hi hu' (mem_syncWrites_under (by omega) hw)
        · rw [mem_singleton.mp hw] at hu'
          have := hu'.le
          simp only [rpcWriteNode, Slot.nodeId] at this
          omega
      · rw [flush_childVersion, marked_childVersion_true, HostFile.writeAll_append,
          HostFile.writeAll_append]
        refine hr'.writeAll (fun w hw hu => ?_)
        rw [mem_singleton.mp hw] at hu
        have := (hu.under (by omega)).le
        simp only [rpcWriteNode, Slot.nodeId] at this
        omega

variable (C)

def HashOk : Option Meta → BinaryTree HNode → Prop
  | _, .nil => True
  | metadata, .node n l r =>
    calcNodeHash C n.node metadata l r = n.node.hash ∧ HashOk none l ∧ HashOk none r

def Sound : Option Meta → BinaryTree HNode → Prop
  | _, .nil => True
  | metadata, .node n l r =>
    (touched (.node n l r) = false → calcNodeHash C n.node metadata l r = n.node.hash) ∧
      Sound none l ∧ Sound none r

variable {C}
variable {metadata : Option Meta}

lemma verifyNodes_eq_ok {u : Unit} : verifyNodes C metadata t = .ok u ↔ HashOk C metadata t := by
  induction t generalizing metadata with
  | nil => exact iff_of_true rfl trivial
  | node n l r ihl ihr =>
    rw [verifyNodes]
    simp only [bind_eq_ok, ihl, ihr, exists_const, HashOk]
    split_ifs with h <;> simp [h, pure, Except.pure]

lemma HashOk.sound (h : HashOk C metadata t) : Sound C metadata t := by
  induction t generalizing metadata with
  | nil => trivial
  | node n l r ihl ihr => exact ⟨fun _ => h.1, ihl h.2.1, ihr h.2.2⟩

lemma hashOk_syncTree_iff : HashOk C metadata (syncTree C metadata t) ↔ Sound C metadata t := by
  induction t generalizing metadata with
  | nil => exact Iff.rfl
  | node n l r ihl ihr =>
    cases htouch : touched (.node n l r) with
    | false =>
      obtain ⟨-, hl, hr⟩ := touched_children htouch
      have ihl' := @ihl none
      have ihr' := @ihr none
      rw [syncTree_of_untouched C hl] at ihl'
      rw [syncTree_of_untouched C hr] at ihr'
      rw [syncTree_of_untouched C htouch, HashOk, Sound, ihl', ihr']
      simp [htouch]
    | true =>
      rw [syncTree, if_pos htouch, HashOk, Sound, ihl, ihr]
      have hself : calcNodeHash C ((n.marked l r).flush C metadata (syncTree C none l)
          (syncTree C none r)).node metadata (syncTree C none l) (syncTree C none r) =
          ((n.marked l r).flush C metadata (syncTree C none l) (syncTree C none r)).node.hash := rfl
      simp [hself, htouch]

def HNode.face (n : HNode) : ℕ × Bytes 16 × Bytes 16 × Bool :=
  (n.id, n.node.iv, n.node.tag, n.blockVersion)

lemma marked_face (n : HNode) (l r : BinaryTree HNode) : (n.marked l r).face = n.face := by
  simp [HNode.face, HNode.marked, visited_hash]

lemma get?_syncTree_face (p : List Bool) :
    (get? p (syncTree C metadata t)).map HNode.face = (get? p t).map HNode.face := by
  induction t generalizing p metadata with
  | nil => rfl
  | node n l r ihl ihr =>
    rw [syncTree]
    split_ifs
    · cases p with
      | nil => exact congrArg some (marked_face n l r)
      | cons b p => cases b with
        | false => exact ihl p
        | true => exact ihr p
    · rfl

lemma at?_syncTree_face (metadata : Option Meta) (t : BinaryTree HNode) (j : ℕ) :
    (at? (syncTree C metadata t) j).map HNode.face = (at? t j).map HNode.face :=
  get?_syncTree_face _

lemma exists_at?_syncTree (h : at? (syncTree C metadata t) j = some n) :
    ∃ n0, at? t j = some n0 ∧ n0.face = n.face := by
  have hf := at?_syncTree_face (C := C) metadata t j
  rw [h] at hf
  exact map_eq_some_iff.mp hf.symm

lemma exists_syncTree_at? {n0 : HNode} (h : at? t j = some n0) :
    ∃ n, at? (syncTree C metadata t) j = some n ∧ n.face = n0.face := by
  have hf := at?_syncTree_face (C := C) metadata t j
  rw [h] at hf
  exact map_eq_some_iff.mp hf

lemma Shape.syncTree {m : ℕ} (h : Shape t m) : Shape (syncTree C metadata t) m where
  full := by
    intro j hj
    rw [← h.full j hj, ← isSome_map (f := HNode.face), at?_syncTree_face, isSome_map]
  ids := by
    intro j n hj hn
    obtain ⟨n0, h0, hf⟩ := exists_at?_syncTree hn
    have hid : n0.id = n.id := congrArg Prod.fst hf
    rw [← hid]
    exact h.ids j n0 hj h0
  pos := h.pos
  lt := h.lt

def Clean (i : ℕ) (t : BinaryTree HNode) : Prop :=
  AllAt (fun _ n => n.dirty = false ∧ n.blockUpdated = false) i t

lemma Clean.of_untouched (h : Tidy i t) (ht : touched t = false) : Clean i t := by
  induction t generalizing i with
  | nil => trivial
  | node n l r ihl ihr =>
    obtain ⟨hd, hl, hr⟩ := touched_children ht
    have hu : n.blockUpdated ≤ n.dirty := h.1
    have hb : n.blockUpdated = false := by
      revert hu
      rw [hd]
      cases n.blockUpdated <;> decide
    exact ⟨⟨hd, hb⟩, ihl h.2.1 hl, ihr h.2.2 hr⟩

lemma clean_syncTree (h : Tidy i t) : Clean i (syncTree C metadata t) := by
  induction t generalizing i metadata with
  | nil => trivial
  | node n l r ihl ihr =>
    cases htouch : touched (.node n l r) with
    | false =>
      rw [syncTree_of_untouched C htouch]
      exact Clean.of_untouched h htouch
    | true =>
      rw [FsHtree.syncTree, if_pos htouch]
      exact ⟨⟨rfl, rfl⟩, ihl h.2.1, ihr h.2.2⟩

lemma Clean.untouched (h : Clean i t) : touched t = false := by
  induction t generalizing i with
  | nil => rfl
  | node n l r ihl ihr => simp [touched_node, h.1.1, ihl h.2.1, ihr h.2.2]

lemma Clean.tidy (h : Clean i t) : Tidy i t := by
  induction t generalizing i with
  | nil => trivial
  | node n l r ihl ihr => exact ⟨by simp [h.1.2], ihl h.2.1, ihr h.2.2⟩

def Evolves : BinaryTree HNode → BinaryTree HNode → Prop
  | .nil, _ => True
  | .node _ _ _, .nil => True
  | .node n₀ l₀ r₀, .node n l r =>
    (∀ b, n.childVersion b = n₀.childVersion b) ∧ n.blockVersion = (n₀.blockVersion ^^ n.blockUpdated) ∧
      Evolves l₀ l ∧ Evolves r₀ r

lemma Evolves.of_clean (h : Clean i t) : Evolves t t := by
  induction t generalizing i with
  | nil => trivial
  | node n l r ihl ihr => exact ⟨fun _ => rfl, by simp [h.1.2], ihl h.2.1, ihr h.2.2⟩

lemma not_uses_self (hi : 0 < i) : ¬ Uses i v t₀ (.node (i - 1) (!v)) := by
  intro h
  cases t₀ with
  | nil => exact h.elim
  | node n l r =>
    rcases h with h | h | h | h
    · simp at h
    · simp at h
    · have := (h.under (by omega)).le
      simp only [Slot.nodeId] at this
      omega
    · have := (h.under (by omega)).le
      simp only [Slot.nodeId] at this
      omega

lemma Evolves.syncWrites_avoid (h : Evolves t₀ t) (hi : 0 < i) (hw : w ∈ syncWrites C metadata i v t) :
    ¬ Uses i v t₀ w.1 := by
  induction t generalizing t₀ i v metadata with
  | nil => simp [syncWrites] at hw
  | node n l r ihl ihr =>
    cases t₀ with
    | nil => exact fun hu => hu.elim
    | node n0 l0 r0 =>
      obtain ⟨hv, -, hl, hr⟩ := h
      rw [syncWrites] at hw
      split_ifs at hw
      swap
      · simp at hw
      simp only [mem_append, mem_singleton] at hw
      -- a write below one child can only meet the slots of the committed subtree at that child
      rcases hw with (hw | hw) | rfl
      · obtain ⟨idx, vers, he, hu⟩ := mem_syncWrites (by omega) hw
        have hi' := hu.le
        have ih := ihl hl (by omega) hw
        rw [he] at ih ⊢
        rintro (h | h | h | h)
        · cases h; omega
        · cases h
        · exact ih (by rwa [hv])
        · exact Under.left_right hi hu (h.under (by omega))
      · obtain ⟨idx, vers, he, hu⟩ := mem_syncWrites (by omega) hw
        have hi' := hu.le
        have ih := ihr hr (by omega) hw
        rw [he] at ih ⊢
        rintro (h | h | h | h)
        · cases h; omega
        · cases h
        · exact Under.left_right hi (h.under (by omega)) hu
        · exact ih (by rwa [hv])
      · exact not_uses_self hi

end Optee.FsHtree
