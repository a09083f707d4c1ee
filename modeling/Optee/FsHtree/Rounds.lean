import Optee.FsHtree.Commit

/-! Rounds of changes to an open file, each closed by a sync. -/

namespace Optee.FsHtree

open Lib.ByteStrings Lib.HeapTree List TeeResult

variable {B : ℕ} (C : Crypto)

inductive Change (B : ℕ)
  | write (blockNum : ℕ) (block : Bytes B) (iv : Bytes 16)
  | setMeta (metadata : Meta)

def Change.run (ht : Htree) : Change B → TeeResult (Htree × List (HostWrite B))
  | .write num block iv => writeBlock C ht num block iv
  | .setMeta metadata => pure (FsHtree.setMeta ht metadata, [])

def runChanges : Htree → List (Change B) → TeeResult (Htree × List (HostWrite B))
  | ht, [] => pure (ht, [])
  | ht, c :: cs => do
    let (ht₁, ws) ← c.run C ht
    let (ht₂, us) ← runChanges ht₁ cs
    pure (ht₂, ws ++ us)

structure Round (B : ℕ) where
  changes : List (Change B)
  iv : Bytes 16

structure Session (B : ℕ) where
  file : HostFile B
  ht : Htree
  hash : Bytes 32

def Round.run (s : Session B) (r : Round B) : TeeResult (Session B × List (HostWrite B)) := do
  let (ht, ws) ← runChanges C s.ht r.changes
  let (ht, hash, us) ← syncToStorage C ht s.hash r.iv
  pure (⟨s.file.writeAll (ws ++ us), ht, hash⟩, ws ++ us)

def Session.create (uuid : Option Uuid) (fek iv : Bytes 16) : TeeResult (Session B) := do
  let (ht, hash, ws) ← createHtree C uuid fek iv
  pure ⟨HostFile.empty.writeAll ws, ht, hash⟩

def runRounds (s : Session B) : List (Round B) → TeeResult (Session B)
  | [] => pure s
  | r :: rs => do
    let (s, _) ← r.run C s
    runRounds s rs

def NoSkip : ℕ → List (Change B) → Prop
  | _, [] => True
  | m, .write num _ _ :: cs => num ≤ m ∧ NoSkip (max m (num + 1)) cs
  | m, .setMeta _ :: cs => NoSkip m cs

structure Contents (B : ℕ) where
  metadata : Meta
  blocks : ℕ → Option (Bytes B)
  nodes : ℕ

def Contents.new : Contents B := ⟨⟨0⟩, fun _ => none, 1⟩

def Contents.change (c : Contents B) : Change B → Contents B
  | .write num block _ =>
    { c with blocks := Function.update c.blocks num (some block), nodes := max c.nodes (num + 1) }
  | .setMeta metadata => { c with metadata }

def Contents.apply (c : Contents B) (cs : List (Change B)) : Contents B := cs.foldl Contents.change c

def allChanges (rs : List (Round B)) : List (Change B) := rs.flatMap Round.changes

def isWrite : Change B → Bool
  | .write _ _ _ => true
  | .setMeta _ => false

variable {C}

structure Represents (C : Crypto) (f : HostFile B) (ht : Htree) (c : Contents B) : Prop where
  metadata : ht.imeta.metadata = c.metadata
  nodes : ht.nodes = c.nodes
  blocks : ∀ num b, c.blocks num = some b → BlockAt C f ht num b

def Reads (C : Crypto) (f : HostFile B) (hash : Option (Bytes 32)) (uuid : Option Uuid) (c : Contents B) :
    Prop :=
  ∃ ht, openHtree C f hash uuid = .ok ht ∧ ht.imeta.metadata = c.metadata ∧ ht.nodes = c.nodes ∧
    ∀ num b, c.blocks num = some b → readBlock C f ht num = .ok b

lemma Committed.reads {f : HostFile B} {v : Bool} {ht : Htree} {hash : Option (Bytes 32)} {c : Contents B}
    (h : Committed C f v ht) (hp : Picks f hash v) (hr : Represents C f ht c) :
    Reads C f hash ht.uuid c :=
  ⟨ht, openHtree_ok_iff.mpr ⟨rfl, v, hp, h⟩, hr.metadata, hr.nodes,
    fun num b hb => (readBlock_ok_iff h.wf).mpr (hr.blocks num b hb)⟩

structure Pending (C : Crypto) (f : HostFile B) (ht₀ ht : Htree) (c : Contents B) (ws : List (HostWrite B)) :
    Prop where
  live : Live C (f.writeAll ws) ht
  sound : Sound C (some ht.imeta.metadata) ht.root
  evolves : Evolves ht₀.root ht.root
  nodes_le : ht₀.nodes ≤ ht.nodes
  head : ht.head = ht₀.head
  fek : ht.fek = ht₀.fek
  uuid : ht.uuid = ht₀.uuid
  represents : Represents C (f.writeAll ws) ht c
  avoid : ∀ w ∈ ws, ∃ num v, w.1 = .block num v ∧ ¬ Uses 1 ht₀.version ht₀.root w.1
  dirty : ht.dirty = true → touched ht.root = true

variable {ht' : Htree} {num : ℕ} {block : Bytes B} {us : List (HostWrite B)} {cs ds : List (Change B)}

lemma writeBlock_lt {ht : Htree} {iv : Bytes 16} {ws : List (HostWrite B)}
    (h : writeBlock C ht num block iv = .ok (ht', ws)) : num + 1 < 2 ^ 32 - 1 := by
  by_contra hlt
  have hf : findClosestNode ht.root (num + 1) = .error .panic := by
    simp only [findClosestNode, nodeIdToLevel, assert]
    rw [if_neg (by omega)]
    rfl
  simp only [writeBlock, getBlockNode, getNode, hf, error_bind] at h
  cases h

variable {f : HostFile B} {ht₀ ht : Htree} {c : Contents B} {ws : List (HostWrite B)}

lemma Committed.pending (h : Committed C f ht.version ht) (hr : Represents C f ht c) :
    Pending C f ht ht c [] where
  live := h.toOnDisk.live
  sound := h.hashOk.sound
  evolves := Evolves.of_clean h.clean
  nodes_le := le_rfl
  head := rfl
  fek := rfl
  uuid := rfl
  represents := hr
  avoid := by simp
  dirty := fun hd => by rw [h.notDirty] at hd; cases hd

lemma Pending.write (h : Pending C f ht₀ ht c ws) (hC : C.Correct) (h0 : ht₀.Wf) {iv : Bytes 16}
    (hle : num ≤ ht.nodes) (hrun : writeBlock C ht num block iv = .ok (ht', us)) :
    Pending C f ht₀ ht' (c.change (.write num block iv)) (ws ++ us) := by
  have hlt := writeBlock_lt hrun
  obtain ⟨n, hn, he⟩ := h.live.wf.writeBlock_eq hlt block iv
  rw [he] at hrun
  cases hrun
  refine ⟨?_, h.sound.blockWritten h.live.wf hlt hle,
    h.evolves.blockWritten h0 h.live.wf h.nodes_le hlt hle, ?_, by simp [h.head], by simp [h.fek],
    by simp [h.uuid], ⟨by simp [h.represents.metadata, Contents.change], ?_, ?_⟩, ?_, fun _ => ?_⟩
  · rw [HostFile.writeAll_append]
    exact h.live.blockWritten hlt hle n
  · rw [nodes_blockWritten hlt]
    exact h.nodes_le.trans (le_max_left _ _)
  · rw [nodes_blockWritten hlt, h.represents.nodes]
    rfl
  · intro num' b hb
    rw [HostFile.writeAll_append]
    by_cases hnum : num' = num
    · subst hnum
      simp only [Contents.change, Function.update_self, Option.some.injEq] at hb
      subst hb
      exact blockAt_blockWritten_self hC hn
    · simp only [Contents.change, Function.update_of_ne hnum] at hb
      exact (h.represents.blocks num' b hb).blockWritten_of_ne h.live.wf hlt hnum n
  · intro w hw
    rcases mem_append.mp hw with hw | hw
    · exact h.avoid w hw
    · rw [mem_singleton.mp hw]
      exact ⟨num, _, rfl, h.evolves.blockWrite_avoid h0 h.nodes_le hn _⟩
  · obtain ⟨n', l, r, -, -, hreach, hroot, -⟩ :=
      h.live.wf.blockWritten_root C block iv hlt hle
    rw [hroot]
    exact touched_graft hreach (touched_written _ _ _ _ _)

lemma Pending.setMeta (h : Pending C f ht₀ ht c ws) (metadata : Meta) :
    Pending C f ht₀ (setMeta ht metadata) (c.change (.setMeta metadata)) ws where
  live := h.live.setMeta
  sound := h.sound.setMeta h.live.wf
  evolves := h.evolves.setMeta h.live.wf
  nodes_le := h.nodes_le
  head := h.head
  fek := h.fek
  uuid := h.uuid
  represents := ⟨rfl, h.represents.nodes, fun num b hb => (h.represents.blocks num b hb).setMeta⟩
  avoid := h.avoid
  dirty := fun _ => by
    obtain ⟨n, l, r, hr⟩ := h.live.wf.exists_root
    rw [setMeta_root hr]
    rfl

lemma Pending.runChanges (h : Pending C f ht₀ ht c ws) (hC : C.Correct) (h0 : ht₀.Wf) (hskip : NoSkip ht.nodes cs)
    (hrun : runChanges C ht cs = .ok (ht', us)) : Pending C f ht₀ ht' (c.apply cs) (ws ++ us) := by
  induction cs generalizing ht c ws us with
  | nil =>
    cases hrun
    rwa [append_nil]
  | cons a cs ih =>
    simp only [FsHtree.runChanges, bind_eq_ok, Prod.exists, pure, Except.pure] at hrun
    obtain ⟨ht1, us1, hrun1, ht2, us2, hrun2, he⟩ := hrun
    cases he
    rw [← append_assoc]
    cases a with
    | write num block iv =>
      have h1 := h.write hC h0 hskip.1 hrun1
      refine ih h1 ?_ hrun2
      have hn := h1.represents.nodes
      rw [hn]
      simpa only [Contents.change, h.represents.nodes] using hskip.2
    | setMeta metadata =>
      cases hrun1
      rw [append_nil]
      exact ih (h.setMeta metadata) hskip hrun2

lemma touched_of_get? {p : List Bool} {t : BinaryTree HNode} {n : HNode} (h : get? p t = some n)
    (hd : n.dirty = true) : touched t = true := by
  induction t generalizing p with
  | nil => simp at h
  | node a l r ihl ihr =>
    cases p with
    | nil => cases h; simp [touched_node, hd]
    | cons b p => cases b with
      | false => simp [touched_node, ihl h]
      | true => simp [touched_node, ihr h]

def Updated (ht : Htree) : Prop := ∃ j n, 0 < j ∧ at? ht.root j = some n ∧ n.blockUpdated = true

lemma Updated.setMeta (h : Updated ht) (metadata : Meta) : Updated (setMeta ht metadata) := by
  obtain ⟨j, n, hj, hn, hu⟩ := h
  have ha := at?_modify ht.root (fun n => ({ n with dirty := true } : HNode)) one_pos hj
  rw [hn] at ha
  split_ifs at ha with h1
  · exact ⟨j, _, hj, ha, hu⟩
  · exact ⟨j, n, hj, ha, hu⟩

lemma Updated.blockWritten (hw : ht.Wf) (hlt : num + 1 < 2 ^ 32 - 1) (block : Bytes B) (iv : Bytes 16) :
    Updated (ht.blockWritten C num block iv) := by
  have hle : num + 1 ≤ (ht.ensure (num + 1)).nodes := by rw [nodes_ensure hlt]; exact le_max_right _ _
  obtain ⟨n, hn, -⟩ := (hw.ensure hlt).at?_isSome num.add_one_pos hle
  refine ⟨num + 1, n.written iv (C.authEnc ht.fek iv (nodeAad ht.head.encFek iv) block).2,
    num.add_one_pos, ?_, rfl⟩
  rw [at?_blockWritten num.add_one_pos, if_pos rfl, hn]
  rfl

lemma updated_of_runChanges (h : Pending C f ht₀ ht c ws) (hC : C.Correct) (h0 : ht₀.Wf) (hskip : NoSkip ht.nodes cs)
    (hrun : runChanges C ht cs = .ok (ht', us)) (hup : Updated ht ∨ cs.any isWrite = true) : Updated ht' := by
  induction cs generalizing ht c ws us with
  | nil =>
    cases hrun
    simpa using hup
  | cons a cs ih =>
    simp only [FsHtree.runChanges, bind_eq_ok, Prod.exists, pure, Except.pure] at hrun
    obtain ⟨ht1, us1, hrun1, ht2, us2, hrun2, he⟩ := hrun
    cases he
    cases a with
    | write num block iv =>
      have h1 := h.write hC h0 hskip.1 hrun1
      refine ih h1 ?_ hrun2 (Or.inl ?_)
      · rw [h1.represents.nodes]
        simpa only [Contents.change, h.represents.nodes] using hskip.2
      · have hlt := writeBlock_lt hrun1
        obtain ⟨n, -, he⟩ := h.live.wf.writeBlock_eq hlt block iv
        rw [Change.run, he] at hrun1
        cases hrun1
        exact Updated.blockWritten h.live.wf hlt block iv
    | setMeta metadata =>
      cases hrun1
      refine ih (h.setMeta metadata) hskip hrun2 ?_
      rcases hup with hup | hup
      · exact Or.inl (hup.setMeta metadata)
      · exact Or.inr (by simpa [isWrite] using hup)

lemma setMeta_setMeta (hw : ht.Wf) (m1 m2 : Meta) : setMeta (setMeta ht m1) m2 = setMeta ht m2 := by
  obtain ⟨n, l, r, hr⟩ := hw.exists_root
  simp only [setMeta, metaSetDirty, hr]
  rfl

lemma runChanges_of_no_write (hw : ht.Wf) (hm : ht.imeta.metadata = c.metadata) (hcs : cs.any isWrite = false) :
    runChanges C ht cs =
      .ok (if cs = [] then ht else setMeta ht (c.apply cs).metadata, []) := by
  induction cs generalizing ht c with
  | nil => rfl
  | cons a cs ih =>
    cases a with
    | write num block iv => simp [isWrite] at hcs
    | setMeta metadata =>
      have hcs' : cs.any isWrite = false := by simpa [isWrite] using hcs
      simp only [runChanges, Change.run, pure, Except.pure, ok_bind, nil_append,
        ih (c := c.change (.setMeta metadata)) hw.setMeta rfl hcs', cons_ne_nil, if_false]
      by_cases hnil : cs = []
      · subst hnil; rfl
      · simp only [hnil, if_false, setMeta_setMeta hw]
        rfl

lemma apply_of_no_write (hcs : cs.any isWrite = false) (hm : (c.apply cs).metadata = c.metadata) : c.apply cs = c := by
  have h : ∀ c : Contents B, (c.apply cs).blocks = c.blocks ∧ (c.apply cs).nodes = c.nodes := by
    clear hm
    induction cs with
    | nil => exact fun c => ⟨rfl, rfl⟩
    | cons a cs ih =>
      cases a with
      | write num block iv => simp [isWrite] at hcs
      | setMeta metadata => exact fun c => ih (by simpa [isWrite] using hcs) (c.change (.setMeta metadata))
  obtain ⟨hb, hn⟩ := h c
  generalize c.apply cs = d at hm hb hn
  cases d
  simp_all

lemma Change.run_dirty {a : Change B} (h : a.run C ht = .ok (ht', ws)) : ht'.dirty = true := by
  cases a with
  | write num block iv =>
    simp only [Change.run, writeBlock, bind_eq_ok, pure, Except.pure] at h
    obtain ⟨_, _, _, _, he⟩ := h
    cases he
    rfl
  | setMeta metadata => cases h; rfl

lemma runChanges_dirty (h : runChanges C ht cs = .ok (ht', ws)) (hcs : cs ≠ []) : ht'.dirty = true := by
  induction cs generalizing ht ws with
  | nil => exact absurd rfl hcs
  | cons a cs ih =>
    simp only [runChanges, bind_eq_ok, Prod.exists, pure, Except.pure] at h
    obtain ⟨ht1, us1, h1, ht2, us2, h2, he⟩ := h
    cases he
    cases cs with
    | nil => cases h2; exact Change.run_dirty h1
    | cons b cs => exact ih h2 (cons_ne_nil b cs)

lemma noSkip_append : NoSkip c.nodes (cs ++ ds) ↔ NoSkip c.nodes cs ∧ NoSkip (c.apply cs).nodes ds := by
  induction cs generalizing c with
  | nil => exact (and_iff_right trivial).symm
  | cons a cs ih =>
    cases a with
    | write num block iv =>
      have := ih (c := c.change (.write num block iv))
      exact (and_congr_right_iff.mpr (fun _ => this)).trans and_assoc.symm
    | setMeta metadata => exact ih (c := c.change (.setMeta metadata))

lemma apply_append (c : Contents B) (cs ds : List (Change B)) :
    c.apply (cs ++ ds) = (c.apply cs).apply ds := foldl_append

lemma runChanges_append {ht1 ht2 : Htree} (h1 : runChanges C ht cs = .ok (ht1, ws))
    (h2 : runChanges C ht1 ds = .ok (ht2, us)) : runChanges C ht (cs ++ ds) = .ok (ht2, ws ++ us) := by
  induction cs generalizing ht ws with
  | nil =>
    cases h1
    exact h2
  | cons a cs ih =>
    simp only [runChanges, bind_eq_ok, Prod.exists, pure, Except.pure] at h1
    obtain ⟨ht3, us3, h3, ht4, us4, h4, he⟩ := h1
    cases he
    simp [cons_append, runChanges, h3, ok_bind, ih h4, pure, Except.pure, append_assoc]

lemma runChanges_nodes (hw : ht.Wf) (h : runChanges C ht cs = .ok (ht', ws)) (hc : c.nodes = ht.nodes) :
    ht'.Wf ∧ ht'.nodes = (c.apply cs).nodes := by
  induction cs generalizing ht ws c with
  | nil =>
    cases h
    exact ⟨hw, hc.symm⟩
  | cons a cs ih =>
    simp only [runChanges, bind_eq_ok, Prod.exists, pure, Except.pure] at h
    obtain ⟨ht1, us1, h1, ht2, us2, h2, he⟩ := h
    cases he
    cases a with
    | write num block iv =>
      have hlt := writeBlock_lt h1
      obtain ⟨n, -, he⟩ := hw.writeBlock_eq hlt block iv
      rw [Change.run, he] at h1
      cases h1
      refine ih (hw.blockWritten hlt) h2 ?_
      rw [nodes_blockWritten hlt, ← hc]
      rfl
    | setMeta metadata =>
      cases h1
      exact ih hw.setMeta h2 hc

end Optee.FsHtree
