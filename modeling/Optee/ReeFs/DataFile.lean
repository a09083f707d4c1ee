import Optee.ReeFs.Contents

/-! Data files under the calls of the REE file system that commit what they change. -/

namespace Optee.ReeFs

open FsHtree Lib.ByteStrings List TeeResult HostFile

structure DataFile where
  fd : Fd
  hash : Bytes 32

variable (C : Crypto)

def syncFile (fd : Fd) (hash : Bytes 32) (iv : Bytes 16) : TeeResult (DataFile × List Effect) := do
  let (ht, hash, ws) ← syncToStorage C fd.ht hash iv
  pure (⟨⟨ht, fd.file.writeAll ws⟩, hash⟩, ws.map .write)

def writeFile (d : DataFile) (pos : ℕ) (buf : List UInt8) (ivs : ℕ → ℕ → Bytes 16) (iv : Bytes 16) :
    TeeResult (DataFile × List Effect) := do
  let (fd, es) ← writePrimitive C d.fd pos buf ivs
  let (d, us) ← syncFile C fd d.hash iv
  pure (d, es ++ us)

def truncateFile (d : DataFile) (newLen : ℕ) (ivs : ℕ → Bytes 16) (iv : Bytes 16) :
    TeeResult (DataFile × List Effect) := do
  let (fd, es) ← ftruncateInternal C d.fd newLen ivs
  let (d, us) ← syncFile C fd d.hash iv
  pure (d, es ++ us)

def emptyFile (uuid : Option Uuid) (fek iv : Bytes 16) : TeeResult (DataFile × List Effect) := do
  let (ht, hash, ws) ← createHtree C uuid fek iv
  pure (⟨⟨ht, HostFile.empty.writeAll ws⟩, hash⟩, ws.map .write)

def createFile (uuid : Option Uuid) (fek iv₀ : Bytes 16) (head attr data : List UInt8)
    (ivs : ℕ → ℕ → ℕ → Bytes 16) (iv : Bytes 16) : TeeResult (DataFile × List Effect) := do
  let (d, es₀) ← emptyFile C uuid fek iv₀
  let (fd, es₁) ← writePrimitive C d.fd 0 head (ivs 0)
  let (fd, es₂) ← writePrimitive C fd head.length attr (ivs 1)
  let (fd, es₃) ← writePrimitive C fd (head.length + attr.length) data (ivs 2)
  let (d, us) ← syncFile C fd d.hash iv
  pure (d, es₀ ++ es₁ ++ es₂ ++ es₃ ++ us)

def reopenFile (d : DataFile) : TeeResult DataFile := do
  let ht ← openHtree C d.fd.file (some d.hash) d.fd.ht.uuid
  pure ⟨⟨ht, d.fd.file⟩, d.hash⟩

structure Kept (C : Crypto) (d : DataFile) (F : List UInt8) : Prop where
  stores : Stores C d.fd F
  committed : Committed C d.fd.file d.fd.ht.version d.fd.ht
  anchored : Anchored C d.fd.file d.fd.ht
  hash : d.hash = rootHash d.fd.ht.root
  bounded : d.fd.ht.nodes ≤ F.length / blockSize + 1

def NoRootCollision (ht ht' : Htree) : Prop :=
  ht'.Wf → C.digest (rootInput ht') = C.digest (rootInput ht) → rootInput ht' = rootInput ht

variable {C} {ht : Htree} {f : HostFile blockSize} {uuid : Option Uuid}

lemma noRootCollision {S : Set (List UInt8)} (hS : Set.InjOn C.digest S) {ht' : Htree} (hw : ht.Wf)
    (h : nodeInputs ht ⊆ S) (h' : nodeInputs ht' ⊆ S) : NoRootCollision C ht ht' :=
  fun hw' he => hS (h' (rootInput_mem_nodeInputs hw')) (h (rootInput_mem_nodeInputs hw)) he

variable {fd fd' : Fd} {d d' : DataFile} {F F' : List UInt8} {ws : List (HostWrite blockSize)} {iv : Bytes 16}

lemma BlockAt.synced {num : ℕ} {b : Bytes blockSize} (h : BlockAt C f ht num b) (iv : Bytes 16) :
    BlockAt C (f.writeAll (ht.syncTrace C iv)) (ht.synced C iv) num b :=
  h.mono (fun _ hn => exists_syncTree_at? hn) rfl rfl (fun _ _ _ hx =>
    read_writeAll (fun _ hw => syncTrace_no_block hw _ _) hx)

lemma Stores.synced (h : Stores C fd F) (iv : Bytes 16) :
    Stores C ⟨fd.ht.synced C iv, fd.file.writeAll (fd.ht.syncTrace C iv)⟩ F where
  wf := h.wf.syncTree
  blocks num hnum := by
    obtain ⟨b, hb, hbF⟩ := h.blocks num hnum
    exact ⟨b, BlockAt.synced hb iv, hbF⟩
  length_eq := h.length_eq
  small := h.small

lemma Kept.steps (h : Kept C d F) (hC : C.Correct) (hsteps : Steps C d.fd ws fd') (hst : Stores C fd' F')
    (hnodes : fd'.ht.nodes ≤ F'.length / blockSize + 1) {us : List Effect}
    (hsync : syncFile C fd' d.hash iv = .ok (d', us))
    (hinj : d.fd.ht.version = false → NoRootCollision C d.fd.ht d'.fd.ht) :
    Kept C d' F' ∧ d'.fd.ht.uuid = d.fd.ht.uuid := by
  obtain ⟨ht, f⟩ := fd'
  obtain ⟨cs, hrun, hskip, rfl⟩ := hsteps
  let c : Contents blockSize := ⟨d.fd.ht.imeta.metadata, fun _ => none, d.fd.ht.nodes⟩
  have hrep : Represents C d.fd.file d.fd.ht c := ⟨rfl, rfl, by simp [c]⟩
  have hp := (h.committed.pending hrep).runChanges hC h.committed.wf hskip hrun
  by_cases hnil : cs = []
  · subst hnil
    cases hrun
    rw [syncFile, syncToStorage_clean h.committed.notDirty] at hsync
    cases hsync
    exact ⟨⟨hst, h.committed, h.anchored, h.hash, hnodes⟩, rfl⟩
  · have hd := runChanges_dirty hrun hnil
    rw [syncFile, hp.live.wf.syncToStorage_dirty hp.live.tidy hd] at hsync
    cases hsync
    refine ⟨⟨hst.synced iv, ?_, ?_, rfl, hnodes⟩, hp.uuid⟩
    · rw [← writeAll_append]
      exact hp.committed hC hd iv
    · rw [← writeAll_append]
      intro hv
      have hv0 : d.fd.ht.version = false := by
        rwa [synced_version, hp.version, Bool.not_eq_true'] at hv
      have hs := fun hh => h.committed.same_hash hrep hC hskip hrun hd iv (hinj hv0 (hst.synced iv).wf) hh
      exact hp.anchored h.committed iv (fun hh => ⟨(hs hh).2.2.1, (hs hh).2.2.2.1⟩) hv

def Restores (C : Crypto) (f : HostFile blockSize) (hash : Bytes 32) (uuid : Option Uuid) (F : List UInt8) : Prop :=
  ∃ ht, openHtree C f (some hash) uuid = .ok ht ∧ (Fd.mk ht f).length = F.length ∧
    ∀ pos len, pos + len < 2 ^ 64 →
      readPrimitive C ⟨ht, f⟩ pos len = .ok (min len (F.length - pos), slice F pos len)

lemma Stores.withHead (h : Stores C ⟨ht, f⟩ F) {head : HeadImage} (henc : head.encFek = ht.head.encFek) :
    Stores C ⟨ht.withHead head, f⟩ F where
  wf := h.wf
  blocks num hnum := by
    obtain ⟨b, hb, hbF⟩ := h.blocks num hnum
    exact ⟨b, hb.mono (fun n hn => ⟨n, hn, rfl⟩) rfl henc (fun _ _ _ hx => hx), hbF⟩
  length_eq := h.length_eq
  small := h.small

lemma Kept.restores (h : Kept C d F) : Restores C d.fd.file d.hash d.fd.ht.uuid F := by
  obtain ⟨head, henc, hp, hc, -⟩ := h.committed.opens h.anchored
  have hst := h.stores.withHead henc
  rw [h.hash]
  exact ⟨d.fd.ht.withHead head, openHtree_ok_iff.mpr ⟨rfl, _, hp, hc⟩, hst.length_eq, fun pos len hlen => hst.readPrimitive hlen⟩

lemma Kept.reopen (h : Kept C d F) (hrun : reopenFile C d = .ok d') : Kept C d' F ∧ d'.fd.ht.uuid = d.fd.ht.uuid := by
  obtain ⟨head, henc, hp, hc, ha⟩ := h.committed.opens h.anchored
  have hopen : openHtree C d.fd.file (some d.hash) d.fd.ht.uuid = .ok (d.fd.ht.withHead head) := by
    rw [h.hash]
    exact openHtree_ok_iff.mpr ⟨rfl, _, hp, hc⟩
  rw [reopenFile, hopen] at hrun
  cases hrun
  exact ⟨⟨h.stores.withHead henc, hc, ha, h.hash, h.bounded⟩, rfl⟩

lemma le_nodes_bound {n k m len : ℕ} (h : n ≤ max k (m / blockSize + 1)) (hk : k ≤ F.length / blockSize + 1)
    (hF : F.length ≤ len) (hm : m ≤ len) : n ≤ len / blockSize + 1 := by
  have h1 := Nat.div_le_div_right (c := blockSize) hF
  have h2 := Nat.div_le_div_right (c := blockSize) hm
  omega

section Step

variable (h : Kept C d F) (hC : C.Correct) {es : List Effect}
  (hinj : d.fd.ht.version = false → NoRootCollision C d.fd.ht d'.fd.ht)

include h hC hinj

lemma Kept.write {pos : ℕ} {buf : List UInt8} {ivs : ℕ → ℕ → Bytes 16} (hbuf : buf ≠ [])
    (hlast : pos + buf.length ≤ 2 ^ 31) (hrun : writeFile C d pos buf ivs iv = .ok (d', es)) :
    Kept C d' (patch F pos buf) ∧ d'.fd.ht.uuid = d.fd.ht.uuid := by
  obtain ⟨fd', ws, hw, hst, hsteps, hnodes⟩ := h.stores.writePrimitive hC hbuf hlast ivs
  rw [writeFile, hw, ok_bind, bind_eq_ok] at hrun
  obtain ⟨⟨d1, us⟩, hsync, he⟩ := hrun
  cases he
  refine h.steps hC hsteps hst (le_nodes_bound hnodes h.bounded ?_ ?_) hsync hinj
  · rw [patch_length]
    exact le_max_left _ _
  · rw [patch_length]
    omega

lemma Kept.grow {newLen : ℕ} {ivs : ℕ → Bytes 16} (hlen : F.length < newLen) (hlast : newLen ≤ 2 ^ 31)
    (hrun : truncateFile C d newLen ivs iv = .ok (d', es)) :
    Kept C d' (resize F newLen) ∧ d'.fd.ht.uuid = d.fd.ht.uuid := by
  obtain ⟨fd', ws, hw, hst, hsteps, hnodes⟩ := h.stores.grow hC hlen hlast ivs
  rw [truncateFile, hw, ok_bind, bind_eq_ok] at hrun
  obtain ⟨⟨d1, us⟩, hsync, he⟩ := hrun
  cases he
  refine h.steps hC hsteps hst (le_nodes_bound hnodes h.bounded ?_ ?_) hsync hinj
  · rw [resize_length]
    exact hlen.le
  · rw [resize_length]
    omega

end Step

lemma emptyFile_ok (hC : C.Correct) {fek : Bytes 16} {es : List Effect} (h : emptyFile C uuid fek iv = .ok (d, es)) :
    d.fd.ht.version = true ∧ d.fd.ht.uuid = uuid ∧
      (C.digest (rootInput d.fd.ht) ≠ zeroBytes 32 → Kept C d []) := by
  cases h
  exact ⟨rfl, rfl, fun hzero => ⟨⟨⟨(live_newHtree hC (HostFile.empty (B := blockSize)) uuid fek).wf.syncTree,
    by simp⟩, rfl, by simp⟩, committed_newHtree hC uuid fek iv, anchored_newHtree hC uuid fek iv hzero, rfl, le_rfl⟩⟩

lemma Stores.append (h : Stores C fd F) (hC : C.Correct) (hb : fd.ht.nodes ≤ F.length / blockSize + 1)
    (part : List UInt8) (hlast : F.length + part.length ≤ 2 ^ 31) (ivs : ℕ → ℕ → Bytes 16) :
    ∃ fd' ws, ReeFs.writePrimitive C fd F.length part ivs = .ok (fd', ws.map .write) ∧ Stores C fd' (F ++ part) ∧
      Steps C fd ws fd' ∧ fd'.ht.nodes ≤ (F ++ part).length / blockSize + 1 := by
  by_cases hp : part = []
  · subst hp
    exact ⟨fd, [], rfl, by simpa using h, Steps.refl C fd, by simpa using hb⟩
  obtain ⟨fd', ws, hrun, hst, hsteps, hnodes⟩ := h.writePrimitive hC hp hlast ivs
  rw [patch_length_self] at hst
  refine ⟨fd', ws, hrun, hst, hsteps, le_nodes_bound hnodes hb ?_ ?_⟩
  · rw [length_append]
    omega
  · rw [length_append]
    omega

lemma Kept.create (hC : C.Correct) {fek iv0 : Bytes 16} {head attr data : List UInt8} {ivs : ℕ → ℕ → ℕ → Bytes 16}
    {es : List Effect} (hrun : createFile C uuid fek iv0 head attr data ivs iv = .ok (d, es))
    (hlast : head.length + attr.length + data.length ≤ 2 ^ 31)
    (hzero : ∀ d0 es0, emptyFile C uuid fek iv0 = .ok (d0, es0) → C.digest (rootInput d0.fd.ht) ≠ zeroBytes 32) :
    Kept C d (head ++ attr ++ data) ∧ d.fd.ht.uuid = uuid := by
  rw [createFile, bind_eq_ok] at hrun
  obtain ⟨⟨d0, es0⟩, hempty, hrun⟩ := hrun
  obtain ⟨hv, hu, hk⟩ := emptyFile_ok hC hempty
  have h0 := hk (hzero d0 es0 hempty)
  obtain ⟨fd1, ws1, hw1, h1, hs1, hb1⟩ := h0.stores.append hC h0.bounded head (by simp; omega) (ivs 0)
  obtain ⟨fd2, ws2, hw2, h2, hs2, hb2⟩ := h1.append hC hb1 attr (by simp; omega) (ivs 1)
  obtain ⟨fd3, ws3, hw3, h3, hs3, hb3⟩ := h2.append hC hb2 data (by simp; omega) (ivs 2)
  simp only [nil_append, length_nil, length_append] at hw1 hw2 hw3 h3 hb3
  simp only [hw1, hw2, hw3, ok_bind, bind_eq_ok, pure, Except.pure] at hrun
  obtain ⟨⟨d1, us⟩, hsync, he⟩ := hrun
  cases he
  have hsteps := (hs1.trans h0.stores.wf hs2).trans h0.stores.wf hs3
  refine (h0.steps hC hsteps h3 (by simpa [add_assoc] using hb3) hsync (fun hv' => ?_)).imp_right (fun h => h.trans hu)
  rw [hv] at hv'
  cases hv'

end Optee.ReeFs
