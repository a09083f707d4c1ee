import Optee.FsHtree.Hostile
import Optee.FsHtree.ToyCrypto

/-! The tree of one handle over any calls is always a heap. -/

namespace Optee.FsHtree

open Lib.ByteStrings Lib.HeapTree List Option

variable {B : ℕ} {C : Crypto} {ht ht' : Htree} {m : ℕ} {f : HostFile B}

inductive TreeCall (B : ℕ)
  | create (uuid : Option Uuid) (fek iv : Bytes 16)
  | load (f : HostFile B) (hash : Option (Bytes 32)) (uuid : Option Uuid)
  | write (num : ℕ) (block : Bytes B) (iv : Bytes 16)
  | truncate (num : ℕ)
  | setMeta (metadata : Meta)
  | sync (hash : Bytes 32) (iv : Bytes 16)
  /-- also what a call does whose storage fails -/
  | close

def TreeCall.run (C : Crypto) (ht? : Option Htree) : TreeCall B → Option Htree
  | .create uuid fek iv => (createHtree (B := B) C uuid fek iv).toOption.map Prod.fst
  | .load f hash uuid => (openHtree C f hash uuid).toOption
  | .write num block iv => ht?.bind fun ht => (writeBlock C ht num block iv).toOption.map Prod.fst
  | .truncate num => ht?.bind fun ht => (truncateHtree ht num).toOption
  | .setMeta metadata => ht?.map fun ht => FsHtree.setMeta ht metadata
  | .sync hash iv => ht?.bind fun ht => (syncToStorage (B := B) C ht hash iv).toOption.map Prod.fst
  | .close => none

def Tended (ht : Htree) : Prop := ht.Wf ∧ Tidy 1 ht.root

lemma toOption_eq_some {α : Type} {x : TeeResult α} {a : α} (h : x.toOption = some a) : x = .ok a := by
  cases x with
  | error e => cases h
  | ok b => exact congrArg Except.ok (Option.some.inj h)

lemma tended_newHtree (uuid : Option Uuid) (fek : Bytes 16) : Tended (newHtree C uuid fek) :=
  ⟨shape_leaf rfl, Bool.le_true _, trivial, trivial⟩

variable {r : Htree × Bytes 32 × List (HostWrite B)} {ht? : Option Htree}

lemma Tended.sync {hash : Bytes 32} {iv : Bytes 16} (h : Tended ht) (hsync : syncToStorage C ht hash iv = .ok r) :
    Tended r.1 := by
  cases hd : ht.dirty with
  | false =>
    rw [syncToStorage_clean hd] at hsync
    cases hsync
    exact h
  | true =>
    rw [h.1.syncToStorage_dirty h.2 hd] at hsync
    cases hsync
    exact ⟨h.1.syncTree, (clean_syncTree h.2).tidy⟩

lemma tended_createHtree {uuid : Option Uuid} {fek iv : Bytes 16} (h : createHtree C uuid fek iv = .ok r) :
    Tended r.1 := by
  obtain ⟨x, hsync, hr⟩ := TeeResult.bind_eq_ok.mp h
  cases hr
  exact Tended.sync (r := x) (tended_newHtree uuid fek) hsync

lemma TreeCall.run_tended (h : ∀ ht, ht? = some ht → Tended ht) (call : TreeCall B) :
    ∀ ht, call.run C ht? = some ht → Tended ht := by
  intro ht hrun
  cases call with
  | create uuid fek iv =>
    change (createHtree C uuid fek iv).toOption.map Prod.fst = some ht at hrun
    obtain ⟨r, hr, rfl⟩ := map_eq_some_iff.mp hrun
    exact tended_createHtree (toOption_eq_some hr)
  | load f hash uuid =>
    obtain ⟨-, v, -, hc⟩ := openHtree_ok_iff.mp (toOption_eq_some hrun)
    exact ⟨hc.wf, hc.clean.tidy⟩
  | write num block iv =>
    obtain ⟨ht0, h0, hmap⟩ := bind_eq_some_iff.mp hrun
    obtain ⟨⟨ht1, ws⟩, hr, rfl⟩ := map_eq_some_iff.mp hmap
    have hwrite := toOption_eq_some hr
    have hlt := writeBlock_lt hwrite
    obtain ⟨n, -, heq⟩ := (h ht0 h0).1.writeBlock_eq hlt block iv
    rw [hwrite] at heq
    cases heq
    exact ⟨(h ht0 h0).1.blockWritten hlt, tidy_blockWritten (h ht0 h0).2 (h ht0 h0).1 hlt⟩
  | truncate num =>
    obtain ⟨ht0, h0, hr⟩ := bind_eq_some_iff.mp hrun
    have htrunc := toOption_eq_some hr
    rw [(h ht0 h0).1.truncateHtree] at htrunc
    cases htrunc
    exact ⟨(h ht0 h0).1.shrunk (Nat.succ_pos _), tidy_shrunk (h ht0 h0).2 (h ht0 h0).1 (Nat.succ_pos _)⟩
  | setMeta metadata =>
    obtain ⟨ht0, h0, rfl⟩ := map_eq_some_iff.mp hrun
    exact ⟨(h ht0 h0).1.setMeta, tidy_setMeta (h ht0 h0).2⟩
  | sync hash iv =>
    obtain ⟨ht0, h0, hmap⟩ := bind_eq_some_iff.mp hrun
    obtain ⟨r, hr, rfl⟩ := map_eq_some_iff.mp hmap
    exact (h ht0 h0).sync (toOption_eq_some hr)
  | close => cases hrun

lemma tended_of_run (calls : List (TreeCall B)) (h : ∀ ht, ht? = some ht → Tended ht) :
    ∀ ht, calls.foldl (TreeCall.run C) ht? = some ht → Tended ht := by
  induction calls generalizing ht? with
  | nil => exact h
  | cons call calls ih => exact ih (TreeCall.run_tended h call)

lemma Shape.findClosestNode_deepest (h : Shape ht.root m) {id : ℕ} (hid : 0 < id) (hlt : id < 2 ^ 32 - 1) :
    ∃ k a l r, findClosestNode ht.root id = .ok (.node a l r) ∧ sub (heapPath (id / 2 ^ k)) ht.root = .node a l r ∧
      a.id = id / 2 ^ k ∧ (a.id = id ↔ id ≤ m) ∧ ∀ j < k, at? ht.root (id / 2 ^ j) = none := by
  obtain ⟨k, hclosest, hpos, hle, hdeep⟩ := h.full.closest_eq h.pos hid
  obtain ⟨a, l, r, hsub, ha, -⟩ := h.exists_sub hpos hle
  refine ⟨k, a, l, r, by rw [findClosestNode_eq hid hlt, hclosest, hsub], hsub, ha, ?_, fun j hj => ?_⟩
  · constructor
    · omega
    · intro hm
      cases k with
      | zero => simpa using ha
      | succ k => exact absurd (hdeep 0 k.succ_pos) (by simpa using hm)
  · have habove := hdeep j hj
    exact not_isSome_iff_eq_none.mp fun hs => absurd ((h.full _ (by omega)).mp hs) (by omega)

lemma Shape.loadNode_ne_panic (h : Shape ht.root m) (hmax : m + 1 ≤ ht.imeta.maxNodeId.toNat) (hlt : m + 1 < 2 ^ 32 - 1) :
    loadNode f ht (m + 1) ≠ .error .panic := by
  have hpos := h.pos
  obtain ⟨q, hq, -⟩ := h.at?_isSome (i := (m + 1) / 2) (by omega) (by omega)
  rw [h.loadNode_eq hmax hlt, hq]
  dsimp only
  unfold rpcReadNode
  cases f.read (.node (m + 1 - 1) (q.childVersion (isRight (m + 1)))) with
  | none | some image => exact fun he => by cases he

lemma Shape.loadNodes_ne_panic {k : ℕ} (h : Shape ht.root m) (hmax : k = 0 ∨ m + k ≤ ht.imeta.maxNodeId.toNat)
    (hlt : m + k < 2 ^ 32 - 1) : (List.range' (m + 1) k).foldlM (loadNode f) ht ≠ .error .panic := by
  induction k generalizing ht m with
  | zero => exact fun he => by cases he
  | succ k ih =>
    rw [range'_succ, foldlM_cons]
    cases hload : loadNode f ht (m + 1) with
    | error e =>
      intro he
      cases he
      exact h.loadNode_ne_panic (by omega) (by omega) hload
    | ok ht1 =>
      obtain ⟨image, q, -, -, rfl⟩ := (h.loadNode_ok_iff (by omega) (by omega)).mp hload
      have hstep : Shape (ht.withRoot (graft (heapPath (m + 1)) (leaf (loadedNode (m + 1) image)) ht.root)).root (m + 1) :=
        h.graft_leaf (by omega) rfl
      exact ih hstep (.inr (by simp only [Htree.withRoot]; omega)) (by omega)

lemma Htree.Wf.getNode_ne_panic (h : ht.Wf) {id : ℕ} (hid : 0 < id) (hlt : id < 2 ^ 32 - 1) (create : Bool) :
    getNode ht create id ≠ .error .panic := by
  rcases Nat.lt_or_ge ht.nodes id with hlast | hle
  · cases create with
    | false => rw [h.getNode_above hlast hlt]; exact fun he => by cases he
    | true => rw [h.getNode_create hid hlt]; exact fun he => by cases he
  · rw [h.getNode_of_le hid hle]
    exact fun he => by cases he

lemma createHtree_ok (C : Crypto) (uuid : Option Uuid) (fek iv : Bytes 16) :
    ∃ ht, [TreeCall.create (B := B) uuid fek iv].foldl (TreeCall.run C) none = some ht := by
  exact ⟨_, rfl⟩

end Optee.FsHtree
