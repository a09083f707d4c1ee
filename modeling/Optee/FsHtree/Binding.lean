import Optee.FsHtree.Truncate

/-! A root hash fixes the tree below it: the images of its nodes, their number and the metadata. -/

namespace Optee.FsHtree

open Lib.ByteStrings Lib.HeapTree Option

variable {B : ℕ} {C : Crypto} {ht ht' : Htree}

def HNode.image (n : HNode) : ℕ × NodeImage := (n.id, n.node)

def SameImages (ht ht' : Htree) : Prop :=
  ∀ j, 0 < j → (at? ht.root j).map HNode.image = (at? ht'.root j).map HNode.image

def hashAt (ht : Htree) (j : ℕ) : Option (Bytes 32) := (at? ht.root j).map (fun n => n.node.hash)

@[simp] lemma optBytes_length (h : Option (Bytes 32)) : (optBytes h).length = if h.isSome then 32 else 0 := by
  cases h <;> simp [optBytes]

lemma optBytes_inj {h h' : Option (Bytes 32)} (heq : optBytes h = optBytes h') : h = h' := by
  have hlen := congrArg List.length heq
  cases h with
  | none => cases h' with
    | none => rfl
    | some b => simp at hlen
  | some a => cases h' with
    | none => simp at hlen
    | some b => exact congrArg some (Subtype.ext heq)

variable {l' r' l r : Option (Bytes 32)} {j : ℕ}

lemma optBytes_append_inj (h : l = none → r = none) (h' : l' = none → r' = none)
    (heq : optBytes l ++ optBytes r = optBytes l' ++ optBytes r') : l = l' ∧ r = r' := by
  have hlen := congrArg List.length heq
  have hl : (optBytes l).length = (optBytes l').length := by
    cases l with
    | none => cases l' with
      | none => rfl
      | some b =>
        cases h rfl
        simp at hlen
        omega
    | some a => cases l' with
      | none =>
        cases h' rfl
        simp at hlen
      | some b => simp
  obtain ⟨hl, hr⟩ := List.append_inj heq hl
  exact ⟨optBytes_inj hl, optBytes_inj hr⟩

lemma Htree.Wf.hashAt_eq_none (h : ht.Wf) (hj : 0 < j) : hashAt ht j = none ↔ ht.nodes < j := by
  rw [hashAt, map_eq_none_iff, ← not_isSome_iff_eq_none, h.full j hj, Nat.not_le]

lemma Htree.Wf.hashAt_right (h : ht.Wf) (hj : 0 < j) (hl : hashAt ht (2 * j) = none) :
    hashAt ht (2 * j + 1) = none := by
  rw [h.hashAt_eq_none (by omega)] at hl ⊢
  omega

lemma image_of_hash {n n' : HNode} {d d' : Option Meta} (hid : n.id = n'.id) (hhash : n.node.hash = n'.node.hash)
    (hd : d.isSome = d'.isSome) (hl : l = none → r = none) (hl' : l' = none → r' = none)
    (heq : hashInput n.node d l r = hashInput n'.node d' l' r') : n.image = n'.image ∧ d = d' ∧ l = l' ∧ r = r' := by
  obtain ⟨hiv, htag, hflags, hdd, hopt⟩ := hashInput_inj hd heq
  obtain ⟨hll, hrr⟩ := optBytes_append_inj hl hl' hopt
  obtain ⟨id, _, _, ⟨hash, iv, tag, flags⟩⟩ := n
  simp_all [HNode.image]

section

variable (hw : ht.Wf) (hw' : ht'.Wf) (hok : HashOk C (some ht.imeta.metadata) ht.root) (hok' : HashOk C (some ht'.imeta.metadata) ht'.root) (hinj : Set.InjOn C.digest (nodeInputs ht ∪ nodeInputs ht'))
include hw hw' hok hok' hinj

lemma same_step
    (hj : 0 < j) (h : hashAt ht j = hashAt ht' j) : (at? ht.root j).map HNode.image = (at? ht'.root j).map HNode.image ∧
      hashAt ht (2 * j) = hashAt ht' (2 * j) ∧ hashAt ht (2 * j + 1) = hashAt ht' (2 * j + 1) ∧
      (j = 1 → ht.imeta.metadata = ht'.imeta.metadata) := by
  have hpos := hw.pos
  by_cases hle : j ≤ ht.nodes
  · obtain ⟨n, hn, hid⟩ := hw.at?_isSome hj hle
    rw [hashAt, hn] at h
    obtain ⟨n', hn', hhash⟩ := map_eq_some_iff.mp h.symm
    have hid' := hw'.ids j n' hj hn'
    have hin := hinj (Or.inl ⟨j, n, hj, hn, rfl⟩) (Or.inr ⟨j, n', hj, hn', rfl⟩)
      (by rw [hashOk_one_iff.mp hok j n hj hn, hashOk_one_iff.mp hok' j n' hj hn', hhash])
    obtain ⟨himage, hd, hl, hr⟩ := image_of_hash (hid.trans hid'.symm) hhash.symm
      (by split_ifs <;> rfl) (hw.hashAt_right hj) (hw'.hashAt_right hj) hin
    refine ⟨by rw [hn, hn', map_some, map_some, himage], hl, hr, fun h1 => ?_⟩
    simpa [h1] using hd
  · have hnone : ∀ i, j ≤ i → hashAt ht i = none ∧ hashAt ht' i = none := by
      intro i hi
      rw [(hw.hashAt_eq_none hj).mpr (by omega)] at h
      have hlt := (hw'.hashAt_eq_none hj).mp h.symm
      exact ⟨(hw.hashAt_eq_none (by omega)).mpr (by omega), (hw'.hashAt_eq_none (by omega)).mpr (by omega)⟩
    have himage : ∀ {t : Htree}, hashAt t j = none → (at? t.root j).map HNode.image = none := by
      intro t ht
      rw [hashAt, map_eq_none_iff] at ht
      rw [ht, map_none]
    refine ⟨?_, ?_, ?_, by omega⟩
    · rw [himage (hnone j le_rfl).1, himage (hnone j le_rfl).2]
    · rw [(hnone (2 * j) (by omega)).1, (hnone (2 * j) (by omega)).2]
    · rw [(hnone (2 * j + 1) (by omega)).1, (hnone (2 * j + 1) (by omega)).2]

lemma same_of_rootHash (h : rootHash ht.root = rootHash ht'.root) :
    ht.imeta.metadata = ht'.imeta.metadata ∧ SameImages ht ht' := by
  have hstep := fun j hj => same_step hw hw' hok hok' hinj (j := j) hj
  have hroot : hashAt ht 1 = hashAt ht' 1 := by
    obtain ⟨n, hn, -⟩ := hw.at?_isSome one_pos hw.pos
    obtain ⟨n', hn', -⟩ := hw'.at?_isSome one_pos hw'.pos
    rw [rootHash_of_at? hn, rootHash_of_at? hn'] at h
    rw [hashAt, hashAt, hn, hn', map_some, map_some, h]
  have hall : ∀ j, 0 < j → hashAt ht j = hashAt ht' j := by
    intro j
    induction j using Nat.strong_induction_on with
    | _ j ih =>
      intro hj
      by_cases h1 : j = 1
      · rw [h1, hroot]
      · obtain ⟨-, hl, hr, -⟩ := hstep (j / 2) (by omega) (ih (j / 2) (by omega) (by omega))
        rcases Nat.mod_two_eq_zero_or_one j with hm | hm
        · rwa [show 2 * (j / 2) = j by omega] at hl
        · rwa [show 2 * (j / 2) + 1 = j by omega] at hr
  exact ⟨(hstep 1 one_pos hroot).2.2.2 rfl, fun j hj => (hstep j hj (hall j hj)).1⟩

end

def Grounded (C : Crypto) (inputs : Set (List UInt8)) (ht : Htree) : Prop :=
  ∀ j n, 0 < j → at? ht.root j = some n → n.dirty = false → ∃ l r, (l = none → r = none) ∧
    hashInput n.node (if j = 1 then some ht.imeta.metadata else none) l r ∈ inputs ∧
    C.digest (hashInput n.node (if j = 1 then some ht.imeta.metadata else none) l r) = n.node.hash ∧
    (∀ c, at? ht.root (2 * j) = some c → c.dirty = false → l = some c.node.hash) ∧
    ∀ c, at? ht.root (2 * j + 1) = some c → c.dirty = false → r = some c.node.hash

variable {inputs inputs' : Set (List UInt8)}

lemma Grounded.mono (h : Grounded C inputs ht) (hsub : inputs ⊆ inputs') : Grounded C inputs' ht := by
  intro j n hj hn hd
  obtain ⟨l, r, hlr, hmem, hrest⟩ := h j n hj hn hd
  exact ⟨l, r, hlr, hsub hmem, hrest⟩

lemma HashOk.grounded (h : HashOk C (some ht.imeta.metadata) ht.root) (hw : ht.Wf) : Grounded C (nodeInputs ht) ht := by
  intro j n hj hn _
  refine ⟨hashAt ht (2 * j), hashAt ht (2 * j + 1), hw.hashAt_right hj, ⟨j, n, hj, hn, rfl⟩,
    hashOk_one_iff.mp h j n hj hn, fun c hc _ => ?_, fun c hc _ => ?_⟩
  · rw [hashAt, hc, map_some]
  · rw [hashAt, hc, map_some]

section Changes

variable {num : ℕ} {block : Bytes B} {iv : Bytes 16} {metadata : Meta} {n : ℕ}

lemma Grounded.of_at? (h : Grounded C inputs ht) (hmeta : ht'.imeta.metadata = ht.imeta.metadata)
    (hat : ∀ j m, 0 < j → at? ht'.root j = some m → m.dirty = false → at? ht.root j = some m) :
    Grounded C inputs ht' := by
  intro j m hj hm hd
  obtain ⟨l, r, hlr, hmem, hhash, hl, hr⟩ := h j m hj (hat j m hj hm hd) hd
  rw [hmeta]
  exact ⟨l, r, hlr, hmem, hhash, fun c hc hcd => hl c (hat _ c (by omega) hc hcd) hcd,
    fun c hc hcd => hr c (hat _ c (by omega) hc hcd) hcd⟩

lemma Grounded.blockWritten (h : Grounded C inputs ht) (hw : ht.Wf) (hlt : num + 1 < 2 ^ 32 - 1)
    (hle : num ≤ ht.nodes) : Grounded C inputs (ht.blockWritten C num block iv) := by
  refine h.of_at? blockWritten_metadata (fun j m hj hm hd => ?_)
  rw [at?_blockWritten hj] at hm
  split_ifs at hm with hjn
  · obtain ⟨m0, -, rfl⟩ := map_eq_some_iff.mp hm
    cases hd
  · rwa [hw.at?_ensure hlt hj, if_neg (by omega)] at hm

lemma Grounded.shrunk (h : Grounded C inputs ht) (hw : ht.Wf) (hn : 0 < n) : Grounded C inputs (ht.shrunk n) := by
  refine h.of_at? (iterate_dropped_fields ht _).2.2.2 (fun j m hj hm _ => ?_)
  rw [hw.at?_shrunk hn hj] at hm
  split_ifs at hm
  exact hm

lemma at?_setMeta (hj : 0 < j) : at? (setMeta ht metadata).root j =
    if j = 1 then (at? ht.root j).map (fun m => { m with dirty := true }) else at? ht.root j :=
  at?_modify _ _ one_pos hj

lemma Grounded.setMeta (h : Grounded C inputs ht) : Grounded C inputs (setMeta ht metadata) := by
  have hat : ∀ j m, 0 < j → at? (FsHtree.setMeta ht metadata).root j = some m → m.dirty = false →
      j ≠ 1 ∧ at? ht.root j = some m := by
    intro j m hj hm hd
    rw [at?_setMeta hj] at hm
    split_ifs at hm with h1
    · obtain ⟨m0, -, rfl⟩ := map_eq_some_iff.mp hm
      cases hd
    · exact ⟨h1, hm⟩
  intro j m hj hm hd
  obtain ⟨h1, hm'⟩ := hat j m hj hm hd
  obtain ⟨l, r, hlr, hmem, hhash, hl, hr⟩ := h j m hj hm' hd
  rw [if_neg h1] at hmem hhash ⊢
  exact ⟨l, r, hlr, hmem, hhash, fun c hc hcd => hl c (hat _ c (by omega) hc hcd).2 hcd,
    fun c hc hcd => hr c (hat _ c (by omega) hc hcd).2 hcd⟩

end Changes

lemma get?_syncTree_cases {metadata : Option Meta} {t : BinaryTree HNode} (p : List Bool) {n : HNode}
    (h : get? p (syncTree C metadata t) = some n) :
    C.digest (hashInput n.node (if p = [] then metadata else none) (nodeHash? (sub (p ++ [false]) (syncTree C metadata t)))
      (nodeHash? (sub (p ++ [true]) (syncTree C metadata t)))) = n.node.hash ∨
    get? p t = some n ∧ n.dirty = false ∧ ∀ b, sub (p ++ [b]) (syncTree C metadata t) = sub (p ++ [b]) t := by
  induction t generalizing metadata p with
  | nil => simp [syncTree] at h
  | node a l r ihl ihr =>
    by_cases htouched : touched (.node a l r) = true
    · rw [syncTree, if_pos htouched] at h ⊢
      cases p with
      | nil =>
        cases h
        exact Or.inl rfl
      | cons b p => cases b with
        | false =>
          rcases ihl p h with hhash | hkeep
          · exact Or.inl (by simpa [sub, child] using hhash)
          · exact Or.inr hkeep
        | true =>
          rcases ihr p h with hhash | hkeep
          · exact Or.inl (by simpa [sub, child] using hhash)
          · exact Or.inr hkeep
    · rw [Bool.not_eq_true] at htouched
      rw [syncTree_of_untouched C htouched] at h ⊢
      refine Or.inr ⟨h, ?_, fun _ => rfl⟩
      by_contra hd
      rw [touched_of_get? h (by simpa using hd)] at htouched
      cases htouched

lemma Grounded.synced (h : Grounded C inputs ht) (hw : ht.Wf) (iv : Bytes 16) :
    Grounded C (inputs ∪ nodeInputs (ht.synced C iv)) (ht.synced C iv) := by
  have hws : (ht.synced C iv).Wf := hw.syncTree
  intro j n hj hn _
  rcases get?_syncTree_cases (heapPath j) hn with hhash | ⟨hold, hd, hkeep⟩
  · refine ⟨hashAt (ht.synced C iv) (2 * j), hashAt (ht.synced C iv) (2 * j + 1), hws.hashAt_right hj,
      Or.inr ⟨j, n, hj, hn, rfl⟩, ?_, fun c hc _ => ?_, fun c hc _ => ?_⟩
    · rwa [nodeInput_path _ _ hj] at hhash
    · rw [hashAt, hc, map_some]
    · rw [hashAt, hc, map_some]
  · obtain ⟨l, r, hlr, hmem, hhash, hcl, hcr⟩ := h j n hj hold hd
    have hat : ∀ b : Bool, at? (ht.synced C iv).root (2 * j + b.toNat) = at? ht.root (2 * j + b.toNat) := by
      intro b
      rw [at?, at?, heapPath_child j hj b, get?, get?, synced_root, hkeep b]
    refine ⟨l, r, hlr, Or.inl hmem, hhash, fun c hc => ?_, fun c hc => ?_⟩
    · exact hcl c ((hat false).symm.trans hc)
    · exact hcr c ((hat true).symm.trans hc)

lemma Grounded.same (h : Grounded C inputs ht) (hc : Clean 1 ht.root) (hw : ht.Wf) (hw' : ht'.Wf)
    (hok' : HashOk C (some ht'.imeta.metadata) ht'.root) (hinj : Set.InjOn C.digest (inputs ∪ nodeInputs ht'))
    (hmeta : ht'.imeta = ht.imeta) (hhash : rootHash ht'.root = rootHash ht.root) : SameImages ht' ht := by
  have hnodes : ht'.nodes = ht.nodes := by rw [Htree.nodes, Htree.nodes, hmeta]
  have hclean := fun j n hj hn => (allAt_one_iff.mp hc j n hj hn).1
  have hstep : ∀ j, 0 < j → j ≤ ht.nodes → hashAt ht' j = hashAt ht j →
      (at? ht'.root j).map HNode.image = (at? ht.root j).map HNode.image ∧
      ∀ i, i / 2 = j → i ≤ ht.nodes → hashAt ht' i = hashAt ht i := by
    intro j hj hle heq
    obtain ⟨n, hn, hid⟩ := hw.at?_isSome hj hle
    obtain ⟨n', hn', hid'⟩ := hw'.at?_isSome hj (hnodes ▸ hle)
    simp only [hashAt, hn, hn', map_some, Option.some.injEq] at heq
    obtain ⟨l, r, hlr, hmem, hdig, hl, hr⟩ := h j n hj hn (hclean j n hj hn)
    have hin := hinj (Or.inr ⟨j, n', hj, hn', rfl⟩) (Or.inl hmem)
      (by rw [hashOk_one_iff.mp hok' j n' hj hn', hdig, heq])
    obtain ⟨himage, -, hl', hr'⟩ := image_of_hash (hid'.trans hid.symm) heq (by split_ifs <;> rfl)
      (hw'.hashAt_right hj) hlr hin
    refine ⟨by rw [hn, hn', map_some, map_some, himage], fun i hi hile => ?_⟩
    obtain ⟨c, hcat, -⟩ := hw.at?_isSome (by omega) hile
    have hcd := hclean i c (by omega) hcat
    rcases Nat.mod_two_eq_zero_or_one i with hm | hm
    · obtain rfl : i = 2 * j := by omega
      rw [hl', hl c hcat hcd, hashAt, hcat, map_some]
    · obtain rfl : i = 2 * j + 1 := by omega
      rw [hr', hr c hcat hcd, hashAt, hcat, map_some]
  have hall : ∀ j, 0 < j → j ≤ ht.nodes → hashAt ht' j = hashAt ht j := by
    intro j
    induction j using Nat.strong_induction_on with
    | _ j ih =>
      intro hj hle
      by_cases h1 : j = 1
      · obtain ⟨n, hn, -⟩ := hw.at?_isSome hj hle
        obtain ⟨n', hn', -⟩ := hw'.at?_isSome hj (hnodes ▸ hle)
        rw [h1] at hn hn' ⊢
        rw [rootHash_of_at? hn, rootHash_of_at? hn'] at hhash
        rw [hashAt, hashAt, hn, hn', map_some, map_some, hhash]
      · exact (hstep (j / 2) (by omega) (by omega) (ih _ (by omega) (by omega) (by omega))).2 j rfl hle
  intro j hj
  by_cases hle : j ≤ ht.nodes
  · exact (hstep j hj hle (hall j hj hle)).1
  · have hnone : ∀ {t : Htree}, t.Wf → ¬ j ≤ t.nodes → at? t.root j = none := fun hwt hnot =>
      not_isSome_iff_eq_none.mp (fun hs => hnot ((hwt.full j hj).mp hs))
    rw [hnone hw hle, hnone hw' (hnodes ▸ hle)]

end Optee.FsHtree
