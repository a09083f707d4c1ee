import Optee.Lib.Runs
import Optee.FsHtree.Binding

/-! Histories of hash tree files on a hostile store. -/

namespace Optee.FsHtree

open Lib.ByteStrings Lib.HeapTree List TeeResult

variable {B : ℕ} (C : Crypto)

structure Sealed where
  size : ℕ
  key : Bytes 16
  iv : Bytes 16
  aad : List UInt8
  plain : Bytes size
  deriving DecidableEq

def Sealed.tag (e : Sealed) : Bytes 16 := (C.authEnc e.key e.iv e.aad e.plain).2

def Produced (log : List Sealed) (key iv : Bytes 16) (aad : List UInt8) {n : ℕ} (crypt : Bytes n) (tag : Bytes 16) :
    Prop :=
  ∃ plain : Bytes n, ⟨n, key, iv, aad, plain⟩ ∈ log ∧ C.authEnc key iv aad plain = (crypt, tag)

def Htree.sealedHead (ht : Htree) : Sealed :=
  ⟨16, ht.fek, ht.head.iv, headAad (rootHash ht.root) ht.head, ht.imeta.bytes⟩

def Htree.sealedBlock (ht : Htree) (block : Bytes B) (iv : Bytes 16) : Sealed :=
  ⟨B, ht.fek, iv, nodeAad ht.head.encFek iv, block⟩

structure Handle (B : ℕ) where
  ht : Htree
  blocks : ℕ → Option (Bytes B)

structure World (B : ℕ) where
  log : List Sealed
  -- the initialisation vectors that were used or read so far
  seen : List (Bytes 16)
  commits : List (Handle B)
  loaded : List Htree
  handles : List (Handle B)

def World.start : World B := ⟨[], [zeroBytes 16], [], [], []⟩

def unsealed (B : ℕ) (log : List Sealed) (n : NodeImage) : Option (Bytes B) :=
  log.findSome? (fun e =>
    if h : e.size = B then if e.iv = n.iv ∧ e.tag C = n.tag then some (h ▸ e.plain) else none else none)

def Htree.ivs (ht : Htree) : List (Bytes 16) :=
  (List.range' 1 ht.nodes).filterMap (fun j => (at? ht.root j).map (fun n => n.node.iv))

def World.add (w : World B) (h : Handle B) : World B := { w with handles := w.handles ++ [h] }

def World.put (w : World B) (i : ℕ) (h : Handle B) : World B := { w with handles := w.handles.set i h }

def World.seal (w : World B) (e : Sealed) : World B := { w with log := e :: w.log, seen := e.iv :: w.seen }

def World.commit (w : World B) (h : Handle B) : World B := { w.seal h.ht.sealedHead with commits := h :: w.commits }

def World.load (w : World B) (ht : Htree) : World B :=
  let blocks := fun num => (at? ht.root (num + 1)).bind (fun n => unsealed C B w.log n.node)
  { w.add ⟨ht, blocks⟩ with seen := ht.ivs ++ w.seen, loaded := ht :: w.loaded }

inductive Event (B : ℕ)
  | create (uuid : Option Uuid) (fek iv : Bytes 16)
  | load (f : HostFile B) (hash : Option (Bytes 32)) (uuid : Option Uuid)
  | write (i num : ℕ) (block : Bytes B) (iv : Bytes 16)
  | setMeta (i : ℕ) (metadata : Meta)
  | truncate (i blockNum : ℕ)
  | sync (i : ℕ) (iv : Bytes 16)

def World.handle (w : World B) (i : ℕ) : TeeResult (Handle B) := orError .badParameters w.handles[i]?

def World.step (w : World B) : Event B → TeeResult (World B)
  | .create uuid fek iv => do
    let (ht, _, _) ← createHtree (B := B) C uuid fek iv
    let h := ⟨ht, fun _ => none⟩
    pure ((w.commit h).add h)
  | .load f hash uuid => do
    let ht ← openHtree C f hash uuid
    pure (w.load C ht)
  | .write i num block iv => do
    let h ← w.handle i
    let (ht, _) ← writeBlock C h.ht num block iv
    pure ((w.seal (h.ht.sealedBlock block iv)).put i ⟨ht, Function.update h.blocks num (some block)⟩)
  | .setMeta i metadata => do
    let h ← w.handle i
    pure (w.put i ⟨setMeta h.ht metadata, h.blocks⟩)
  | .truncate i blockNum => do
    let h ← w.handle i
    let ht ← truncateHtree h.ht blockNum
    pure (w.put i ⟨ht, fun num => if num ≤ blockNum then h.blocks num else none⟩)
  | .sync i iv => do
    let h ← w.handle i
    let (ht, _, _) ← syncToStorage (B := B) C h.ht (zeroBytes 32) iv
    if h.ht.dirty then pure ((w.commit ⟨ht, h.blocks⟩).put i ⟨ht, h.blocks⟩) else pure w

def World.inputs (w : World B) : Set (List UInt8) :=
  {x | (∃ h ∈ w.commits, x ∈ nodeInputs h.ht) ∨ ∃ ht ∈ w.loaded, x ∈ nodeInputs ht}

def Event.Fresh (w : World B) : Event B → Prop
  | .create _ _ iv | .write _ _ _ iv | .sync _ iv => iv ∉ w.seen
  | _ => True

/-- Every node that a sync will not rehash still has the hash of its image, its children and, for the root,
the metadata. -/
def Event.Sound (w : World B) : Event B → Prop
  | .sync i _ => ∀ h, w.handles[i]? = some h → h.ht.dirty = true → FsHtree.Sound C (some h.ht.imeta.metadata) h.ht.root
  | _ => True

instance Sound.decidable : ∀ metadata t, Decidable (FsHtree.Sound C metadata t)
  | _, .nil => isTrue trivial
  | metadata, .node n l r =>
    have := Sound.decidable none l
    have := Sound.decidable none r
    inferInstanceAs (Decidable ((touched (.node n l r) = false → calcNodeHash C n.node metadata l r = n.node.hash) ∧
      FsHtree.Sound C none l ∧ FsHtree.Sound C none r))

instance Event.Fresh.decidable (w : World B) (e : Event B) : Decidable (e.Fresh w) := by
  unfold Event.Fresh
  split <;> infer_instance

instance Event.Sound.decidable (w : World B) (e : Event B) : Decidable (e.Sound C w) := by
  unfold Event.Sound
  split
  · exact Option.decidableForallMem _
  · infer_instance

def Event.NoSkip (w : World B) : Event B → Prop
  | .write i num _ _ => ∀ h, w.handles[i]? = some h → num ≤ h.ht.nodes
  | _ => True

instance Event.NoSkip.decidable (w : World B) (e : Event B) : Decidable (e.NoSkip w) := by
  unfold Event.NoSkip
  split
  · exact Option.decidableForallMem _
  · infer_instance

structure World.Shaped (w : World B) : Prop where
  handles : ∀ h ∈ w.handles, h.ht.Wf ∧ Tidy 1 h.ht.root
  commits : ∀ h ∈ w.commits, h.ht.Wf ∧ Clean 1 h.ht.root

variable {C}
variable {w w' : World B} {e : Event B}

inductive Step (C : Crypto) (w : World B) : Event B → World B → Prop
  | create {uuid fek iv} {h : Handle B} (hh : h = ⟨(newHtree C uuid fek).synced C iv, fun _ => none⟩) :
    Step C w (.create uuid fek iv) ((w.commit h).add h)
  | load {f hash uuid ht} {v : Bool} (hc : Committed C f v ht) : Step C w (.load f hash uuid) (w.load C ht)
  | write {i num block iv h} (hh : w.handles[i]? = some h) (hlt : num + 1 < 2 ^ 32 - 1) :
    Step C w (.write i num block iv) ((w.seal (h.ht.sealedBlock block iv)).put i
      ⟨h.ht.blockWritten C num block iv, Function.update h.blocks num (some block)⟩)
  | setMeta {i metadata h} (hh : w.handles[i]? = some h) :
    Step C w (.setMeta i metadata) (w.put i ⟨FsHtree.setMeta h.ht metadata, h.blocks⟩)
  | truncate {i blockNum h} (hh : w.handles[i]? = some h) :
    Step C w (.truncate i blockNum) (w.put i
      ⟨h.ht.shrunk (blockNum + 1), fun num => if num ≤ blockNum then h.blocks num else none⟩)
  | sync {i iv h} {h' : Handle B} (hh : w.handles[i]? = some h) (hd : h.ht.dirty = true)
    (hh' : h' = ⟨h.ht.synced C iv, h.blocks⟩) :
    Step C w (.sync i iv) ((w.commit h').put i h')
  | skip {i iv} : Step C w (.sync i iv) w

variable {h : Handle B} {i : ℕ}

lemma World.handle_ok : w.handle i = .ok h ↔ w.handles[i]? = some h := by
  rw [World.handle, orError_eq_ok]

lemma World.Shaped.step (hw : w.Shaped) (hC : C.Correct) (h : w.step C e = .ok w') : Step C w e w' := by
  have hmem : ∀ {i h}, w.handles[i]? = some h → h ∈ w.handles := fun hh => mem_of_getElem? hh
  cases e with
  | create uuid fek iv =>
    cases h
    exact .create rfl
  | load f hash uuid =>
    simp only [World.step, bind_eq_ok, pure, Except.pure, Except.ok.injEq] at h
    obtain ⟨ht, hopen, rfl⟩ := h
    obtain ⟨-, v, -, hc⟩ := openHtree_ok_iff.mp hopen
    exact .load hc
  | write i num block iv =>
    simp only [World.step, bind_eq_ok, World.handle_ok, Prod.exists, pure, Except.pure, Except.ok.injEq] at h
    obtain ⟨h, hh, ht, ws, hwrite, rfl⟩ := h
    have hlt := writeBlock_lt hwrite
    obtain ⟨n, -, heq⟩ := (hw.handles h (hmem hh)).1.writeBlock_eq hlt block iv
    rw [hwrite] at heq
    cases heq
    exact .write hh hlt
  | setMeta i metadata =>
    simp only [World.step, bind_eq_ok, World.handle_ok, pure, Except.pure, Except.ok.injEq] at h
    obtain ⟨h, hh, rfl⟩ := h
    exact .setMeta hh
  | truncate i blockNum =>
    simp only [World.step, bind_eq_ok, World.handle_ok, pure, Except.pure, Except.ok.injEq] at h
    obtain ⟨h, hh, ht, htrunc, rfl⟩ := h
    rw [(hw.handles h (hmem hh)).1.truncateHtree] at htrunc
    cases htrunc
    exact .truncate hh
  | sync i iv =>
    simp only [World.step, bind_eq_ok, World.handle_ok, Prod.exists, pure, Except.pure] at h
    obtain ⟨h, hh, ht, hash, ws, hsync, hret⟩ := h
    obtain ⟨hwf, htidy⟩ := hw.handles h (hmem hh)
    split_ifs at hret with hd
    · rw [hwf.syncToStorage_dirty htidy hd] at hsync
      cases hsync
      cases hret
      exact .sync hh hd rfl
    · cases hret
      exact .skip

section Tidy

variable {ht : Htree} {num n : ℕ} {block : Bytes B} {iv : Bytes 16} {metadata : Meta}

lemma tidy_blockWritten (h : Tidy 1 ht.root) (hw : ht.Wf) (hlt : num + 1 < 2 ^ 32 - 1) :
    Tidy 1 (ht.blockWritten C num block iv).root := by
  have hensure : ∀ j m, 0 < j → at? (ht.ensure (num + 1)).root j = some m → m.blockUpdated ≤ m.dirty := by
    intro j m hj hm
    rw [hw.at?_ensure hlt hj] at hm
    split_ifs at hm
    · cases hm
      exact le_rfl
    · exact allAt_one_iff.mp h j m hj hm
  refine allAt_one_iff.mpr (fun j m hj hm => ?_)
  rw [at?_blockWritten hj] at hm
  split_ifs at hm
  · obtain ⟨m0, -, rfl⟩ := Option.map_eq_some_iff.mp hm
    exact written_tidy _ _ _
  · exact hensure j m hj hm

lemma tidy_shrunk (h : Tidy 1 ht.root) (hw : ht.Wf) (hn : 0 < n) : Tidy 1 (ht.shrunk n).root := by
  refine allAt_one_iff.mpr (fun j m hj hm => ?_)
  rw [hw.at?_shrunk hn hj] at hm
  split_ifs at hm
  exact allAt_one_iff.mp h j m hj hm

lemma tidy_setMeta (h : Tidy 1 ht.root) : Tidy 1 (setMeta ht metadata).root := by
  refine allAt_one_iff.mpr (fun j m hj hm => ?_)
  rw [at?_setMeta hj] at hm
  split_ifs at hm
  · obtain ⟨m0, -, rfl⟩ := Option.map_eq_some_iff.mp hm
    exact Bool.le_true _
  · exact allAt_one_iff.mp h j m hj hm

end Tidy

lemma World.mem_put {x : Handle B} (hx : x ∈ (w.put i h).handles) : x ∈ w.handles ∨ x = h :=
  mem_or_eq_of_mem_set hx

lemma World.mem_add {x : Handle B} (hx : x ∈ (w.add h).handles) : x ∈ w.handles ∨ x = h := by
  simpa [World.add] using hx

lemma World.Shaped.put (hw : w.Shaped) (hh : h.ht.Wf ∧ Tidy 1 h.ht.root) : (w.put i h).Shaped where
  handles x hx := by
    rcases World.mem_put hx with hx | rfl
    · exact hw.handles x hx
    · exact hh
  commits := hw.commits

lemma World.Shaped.add (hw : w.Shaped) (hh : h.ht.Wf ∧ Tidy 1 h.ht.root) : (w.add h).Shaped where
  handles x hx := by
    rcases World.mem_add hx with hx | rfl
    · exact hw.handles x hx
    · exact hh
  commits := hw.commits

lemma World.Shaped.commit (hw : w.Shaped) (hh : h.ht.Wf ∧ Clean 1 h.ht.root) : (w.commit h).Shaped where
  handles := hw.handles
  commits x hx := by
    rcases mem_cons.mp hx with rfl | hx
    · exact hh
    · exact hw.commits x hx

lemma Step.shaped (hC : C.Correct) (hs : Step C w e w') (hw : w.Shaped) : w'.Shaped := by
  have hmem : ∀ {i : ℕ} {h : Handle B}, w.handles[i]? = some h → h.ht.Wf ∧ Tidy 1 h.ht.root :=
    fun hh => hw.handles _ (mem_of_getElem? hh)
  cases hs with
  | @create uuid fek iv h hh =>
    subst hh
    have hl := live_newHtree hC (HostFile.empty (B := B)) uuid fek
    have hclean : Clean 1 ((newHtree C uuid fek).synced C iv).root := clean_syncTree hl.tidy
    exact (hw.commit ⟨hl.wf.syncTree, hclean⟩).add ⟨hl.wf.syncTree, hclean.tidy⟩
  | load hc =>
    refine ⟨fun x hx => ?_, hw.commits⟩
    rcases World.mem_add hx with hx | rfl
    · exact hw.handles x hx
    · exact ⟨hc.wf, hc.clean.tidy⟩
  | write hh hlt =>
    obtain ⟨hwf, htidy⟩ := hmem hh
    have hseal : ∀ x, (w.seal x).Shaped := fun x => ⟨hw.handles, hw.commits⟩
    exact (hseal _).put ⟨hwf.blockWritten hlt, tidy_blockWritten htidy hwf hlt⟩
  | setMeta hh =>
    obtain ⟨hwf, htidy⟩ := hmem hh
    exact hw.put ⟨hwf.setMeta, tidy_setMeta htidy⟩
  | truncate hh =>
    obtain ⟨hwf, htidy⟩ := hmem hh
    exact hw.put ⟨hwf.shrunk (Nat.succ_pos _), tidy_shrunk htidy hwf (Nat.succ_pos _)⟩
  | @sync i iv h h' hh hd hh' =>
    subst hh'
    obtain ⟨hwf, htidy⟩ := hmem hh
    have hclean : Clean 1 (h.ht.synced C iv).root := clean_syncTree htidy
    exact (hw.commit ⟨hwf.syncTree, hclean⟩).put ⟨hwf.syncTree, hclean.tidy⟩
  | skip => exact hw

end Optee.FsHtree
