import Optee.FsHtree.ToyCrypto
import Optee.ReeFs.DataFile

/-! Shrinking a committed file. -/

namespace Optee.ReeFs

open FsHtree Lib.ByteStrings Lib.HeapTree List TeeResult HostFile

variable {C : Crypto} {d d' : DataFile} {F : List UInt8} {iv : Bytes 16}

def cutTree (ht : Htree) (newLen : ℕ) : Htree := ht.cut (newLen / blockSize + 1) ⟨UInt64.ofNat newLen⟩

def cutAt (newLen : ℕ) : ℕ := truncateAt (roundup newLen / blockSize)

def cutTrace (C : Crypto) (ht : Htree) (newLen : ℕ) (iv : Bytes 16) : List (HostWrite blockSize) :=
  (cutTree ht newLen).syncTrace C iv

def cutFile (C : Crypto) (d : DataFile) (newLen : ℕ) (iv : Bytes 16) : DataFile :=
  ⟨⟨(cutTree d.fd.ht newLen).synced C iv, (d.fd.file.truncate (cutAt newLen)).writeAll (cutTrace C d.fd.ht newLen iv)⟩,
    rootHash ((cutTree d.fd.ht newLen).synced C iv).root⟩

variable {newLen : ℕ}

lemma read_node_cut {f : HostFile blockSize} (hlen : newLen ≤ 2 ^ 31) (idx : ℕ) (v : Bool) (x : NodeImage)
    (hidx : idx < newLen / blockSize + 1) (h : f.read (.node idx v) = some x) :
    (f.truncate (cutAt newLen)).read (.node idx v) = some x := by
  refine read_truncate h (stop_node_le ?_ v)
  rw [roundup_div (by omega)]
  rw [blockSize_eq] at hidx
  omega

section

variable (h : Kept C d F) (hlen : newLen ≤ F.length)
include h hlen

lemma Kept.live_cut : Live C (d.fd.file.truncate (cutAt newLen)) (cutTree d.fd.ht newLen) :=
  (h.committed.live_shrunk (Nat.succ_pos _) (read_node_cut (hlen.trans h.stores.small))).setMeta

lemma Kept.truncateFile_eq (ivs : ℕ → Bytes 16) (iv : Bytes 16) :
    truncateFile C d newLen ivs iv = .ok (cutFile C d newLen iv,
      .truncate (cutAt newLen) :: (cutTrace C d.fd.ht newLen iv).map .write) := by
  have hl := h.live_cut hlen
  have hd : (cutTree d.fd.ht newLen).dirty = true := rfl
  have hsync : syncToStorage C (cutTree d.fd.ht newLen) d.hash iv = .ok (_, _, _) :=
    hl.wf.syncToStorage_dirty (B := blockSize) hl.tidy hd
  rw [truncateFile, ftruncateInternal_shrink h.stores.wf (by rw [h.stores.length_eq]; exact hlen)]
  have hht : (shrunkFd d.fd newLen).ht = cutTree d.fd.ht newLen := rfl
  simp only [ok_bind, syncFile, hht, hsync, pure, Except.pure]
  rfl

lemma Kept.stores_cut (iv : Bytes 16) :
    Stores C (cutFile C d newLen iv).fd (resize F newLen) := (h.stores.shrunk hlen).synced iv

end

lemma Kept.onDisk_cut (h : Kept C d F) (hC : C.Correct) (hlen : newLen ≤ F.length) (iv : Bytes 16) :
    OnDisk C (cutFile C d newLen iv).fd.file (cutFile C d newLen iv).fd.ht.version (cutFile C d newLen iv).fd.ht :=
  (h.live_cut hlen).onDisk hC (h.committed.wf.touched_cut (Nat.succ_pos _))


lemma Kept.clean_cut (h : Kept C d F) (newLen : ℕ) : Clean 1 (d.fd.ht.shrunk (newLen / blockSize + 1)).root :=
  h.committed.clean.shrunk h.committed.wf (Nat.succ_pos _)

lemma Kept.cutTrace_eq (h : Kept C d F) (newLen : ℕ) (iv : Bytes 16) : cutTrace C d.fd.ht newLen iv =
    [rpcWriteNode 1 (!d.fd.ht.version) (rootImage ((cutTree d.fd.ht newLen).synced C iv).root),
      rpcWriteHead (!d.fd.ht.version) ((cutTree d.fd.ht newLen).synced C iv).head] := by
  rw [cutTrace, cutTree, Htree.cut, syncTrace_setMeta (h.clean_cut newLen) (h.committed.wf.shrunk (Nat.succ_pos _)),
    shrunk_version]

lemma cutFile_version : (cutFile C d newLen iv).fd.ht.version = !d.fd.ht.version := by
  have h : (cutTree d.fd.ht newLen).version = d.fd.ht.version := shrunk_version
  rw [← h]
  exact synced_version

section

variable (h : Kept C d F) (hlen : newLen ≤ F.length)
include h hlen

lemma Kept.old_cut (iv : Bytes 16) :
    (cutFile C d newLen iv).fd.file.read (.node 0 d.fd.ht.version) = some (rootImage d.fd.ht.root) ∧
      (cutFile C d newLen iv).fd.file.read (.head d.fd.ht.version) = some d.fd.ht.head := by
  have hsmall := hlen.trans h.stores.small
  constructor
  · refine read_writeAll (fun w hw => ?_)
      (read_node_cut hsmall 0 _ _ (Nat.succ_pos _) h.committed.read_root)
    simp only [h.cutTrace_eq, mem_cons, not_mem_nil, or_false] at hw
    rcases hw with rfl | rfl <;> simp [rpcWriteNode, rpcWriteHead]
  · refine read_writeAll (fun w hw => ?_) (read_truncate h.committed.head (stop_head_le _ _))
    simp only [h.cutTrace_eq, mem_cons, not_mem_nil, or_false] at hw
    rcases hw with rfl | rfl <;> simp [rpcWriteNode, rpcWriteHead]

lemma Kept.bound_cut
    (hm : (⟨UInt64.ofNat newLen⟩ : Meta) = d.fd.ht.imeta.metadata) : d.fd.ht.nodes ≤ newLen / blockSize + 1 := by
  have hl := h.stores.length_eq
  have hsmall := h.stores.small
  rw [Fd.length, ← hm] at hl
  have hnl : newLen = F.length := by
    rw [← hl]
    exact (UInt64.toNat_ofNat_of_lt' ((hlen.trans hsmall).trans_lt (by decide))).symm
  rw [hnl]
  exact h.bounded

lemma Kept.cut_same_hash
    (hinj : NoRootCollision C d.fd.ht (cutFile C d newLen iv).fd.ht)
    (hh : (cutFile C d newLen iv).hash = rootHash d.fd.ht.root) :
    d.fd.ht.nodes ≤ newLen / blockSize + 1 ∧ rootImage (cutFile C d newLen iv).fd.ht.root = rootImage d.fd.ht.root ∧
      (cutFile C d newLen iv).fd.ht.imeta = d.fd.ht.imeta := by
  have hsame := h.committed.cut_same_hash (Nat.succ_pos (newLen / blockSize)) (h.bound_cut hlen)
    (hinj (h.stores_cut hlen iv).wf) hh
  have hmeta : (⟨UInt64.ofNat newLen⟩ : Meta) = d.fd.ht.imeta.metadata :=
    congrArg (fun t : Htree => t.imeta.metadata) hsame
  refine ⟨h.bound_cut hlen hmeta, ?_, ?_⟩
  · have himage := h.committed.rootImage_setMeta iv
    rw [← hsame] at himage
    exact himage
  · show (cutTree d.fd.ht newLen).imeta = (setMeta d.fd.ht d.fd.ht.imeta.metadata).imeta
    exact congrArg Htree.imeta hsame

end

lemma Kept.cut (h : Kept C d F) (hC : C.Correct) (hlen : newLen ≤ F.length)
    (hsafe : OnlyRootLosesChildren d.fd.ht.nodes (newLen / blockSize + 1))
    (hinj : NoRootCollision C d.fd.ht (cutFile C d newLen iv).fd.ht) :
    Kept C (cutFile C d newLen iv) (resize F newLen) where
  stores := h.stores_cut hlen iv
  committed := ⟨h.onDisk_cut hC hlen iv, h.committed.hashOk_shrunk (Nat.succ_pos _) hsafe⟩
  anchored hv := by
    rw [cutFile_version, Bool.not_eq_true'] at hv
    obtain ⟨hroot, hhead⟩ := h.old_cut hlen iv
    rw [hv] at hroot hhead
    refine ⟨_, hroot, fun hh => ?_⟩
    rw [rootImage_hash] at hh
    obtain ⟨-, himage, himeta⟩ := h.cut_same_hash hlen hinj hh.symm
    refine ⟨himage.symm, _, hhead, ?_, hv, ?_⟩
    · show d.fd.ht.head.encFek = (d.fd.ht.shrunk (newLen / blockSize + 1)).head.encFek
      rw [shrunk_head]
    · rw [himeta, ← hh]
      have hver := h.committed.verified
      have hfek : (cutFile C d newLen iv).fd.ht.fek = d.fd.ht.fek := shrunk_fek
      have huuid : (cutFile C d newLen iv).fd.ht.uuid = d.fd.ht.uuid := shrunk_uuid
      rwa [hfek, huuid]
  hash := rfl
  bounded := by
    have hn : (cutFile C d newLen iv).fd.ht.nodes = (d.fd.ht.shrunk (newLen / blockSize + 1)).nodes := rfl
    rw [hn, h.committed.wf.nodes_shrunk (Nat.succ_pos _), resize_length]
    exact min_le_right _ _

lemma Kept.opens_cut (h : Kept C d F) (hC : C.Correct) (hlen : newLen ≤ F.length)
    (hinj : Set.InjOn C.digest (nodeInputs d.fd.ht ∪ nodeInputs (cutFile C d newLen iv).fd.ht)) {ht : Htree}
    (hopen : openHtree C (cutFile C d newLen iv).fd.file (some (cutFile C d newLen iv).hash) d.fd.ht.uuid = .ok ht) :
    OnlyRootLosesChildren d.fd.ht.nodes (newLen / blockSize + 1) := by
  have hdisk := h.onDisk_cut hC hlen iv
  have huuid : (cutFile C d newLen iv).fd.ht.uuid = d.fd.ht.uuid := shrunk_uuid
  have hnew := hdisk.read_root
  obtain ⟨hold, -⟩ := h.old_cut hlen iv
  obtain ⟨-, u, hpick, -⟩ := openHtree_ok_iff.mp hopen
  by_cases hu : u = (cutFile C d newLen iv).fd.ht.version
  · rw [hu] at hpick
    rw [← huuid, hdisk.openHtree_eq hpick, bind_eq_ok] at hopen
    obtain ⟨_, hverify, -⟩ := hopen
    exact h.committed.onlyRootLosesChildren (Nat.succ_pos _) hinj (verifyNodes_eq_ok.mp hverify)
  · obtain ⟨n, hn, hcase⟩ := hpick
    rw [cutFile_version] at hu hnew
    cases hv : d.fd.ht.version with
    | false =>
      -- version 0 is the old root, so its hash is the new one
      rw [hv] at hold
      rw [hold] at hn
      cases hn
      rcases hcase with ⟨hh, -⟩ | ⟨-, rfl, -⟩
      · rw [rootImage_hash] at hh
        exact Or.inl (h.cut_same_hash hlen (noRootCollision hinj h.committed.wf Set.subset_union_left
          Set.subset_union_right) hh.symm).1
      · simp [hv] at hu
    | true =>
      rw [hv] at hnew
      rw [Bool.not_true, hn] at hnew
      cases hnew
      rcases hcase with ⟨-, rfl⟩ | ⟨hne, -⟩
      · simp [hv] at hu
      · exact absurd (rootImage_hash _) hne

inductive FileOp
  | write (pos : ℕ) (buf : List UInt8) (ivs : ℕ → ℕ → Bytes 16) (iv : Bytes 16)
  | truncate (newLen : ℕ) (ivs : ℕ → Bytes 16) (iv : Bytes 16)
  | reopen

def FileOp.run (C : Crypto) (d : DataFile) : FileOp → TeeResult DataFile
  | .write pos buf ivs iv => do
    let (d, _) ← writeFile C d pos buf ivs iv
    pure d
  | .truncate newLen ivs iv => do
    let (d, _) ← truncateFile C d newLen ivs iv
    pure d
  | .reopen => reopenFile C d

def runFile (C : Crypto) (d : DataFile) (ops : List FileOp) : TeeResult DataFile := ops.foldlM (FileOp.run C) d

def FileOp.InRange : FileOp → Prop
  | .write pos buf _ _ => pos + buf.length ≤ 2 ^ 31
  | .truncate newLen _ _ => newLen ≤ 2 ^ 31
  | .reopen => True

def FileOp.effect (F : List UInt8) : FileOp → List UInt8
  | .write pos buf _ _ => if buf = [] then F else patch F pos buf
  | .truncate newLen _ _ => resize F newLen
  | .reopen => F

def fileContents (F : List UInt8) (ops : List FileOp) : List UInt8 := ops.foldl FileOp.effect F

def FileOp.Safe (d : DataFile) : FileOp → Prop
  | .truncate newLen _ _ => newLen ≤ d.fd.length → OnlyRootLosesChildren d.fd.ht.nodes (newLen / blockSize + 1)
  | _ => True

def SafeRun (C : Crypto) : DataFile → List FileOp → Prop
  | _, [] => True
  | d, op :: ops => op.Safe d ∧ ∀ d', op.run C d = .ok d' → SafeRun C d' ops

def runInputs (C : Crypto) (d : DataFile) (ops : List FileOp) : Set (List UInt8) :=
  {x | ∃ k d', runFile C d (ops.take k) = .ok d' ∧ x ∈ nodeInputs d'.fd.ht}

lemma Kept.op {op : FileOp} (h : Kept C d F) (hC : C.Correct) (hop : op.InRange) (hsafe : op.Safe d) (hrun : op.run C d = .ok d')
    (hinj : NoRootCollision C d.fd.ht d'.fd.ht) : Kept C d' (op.effect F) ∧ d'.fd.ht.uuid = d.fd.ht.uuid := by
  cases op with
  | write pos buf ivs iv =>
    simp only [FileOp.run, bind_eq_ok, pure, Except.pure] at hrun
    obtain ⟨⟨d₁, es⟩, hrun, he⟩ := hrun
    cases he
    rw [FileOp.effect]
    split_ifs with hbuf
    · subst hbuf
      simp only [writeFile, writePrimitive, length_nil, if_true, pure, Except.pure, ok_bind,
        bind_eq_ok] at hrun
      obtain ⟨⟨d2, us⟩, hsync, he⟩ := hrun
      cases he
      exact h.steps hC (Steps.refl C d.fd) h.stores h.bounded hsync (fun _ => hinj)
    · exact h.write hC (fun _ => hinj) hbuf hop hrun
  | truncate newLen ivs iv =>
    simp only [FileOp.run, bind_eq_ok, pure, Except.pure] at hrun
    obtain ⟨⟨d₁, es⟩, hrun, he⟩ := hrun
    cases he
    by_cases hgrow : F.length < newLen
    · exact h.grow hC (fun _ => hinj) hgrow hop hrun
    · have hlen : newLen ≤ F.length := by omega
      rw [h.truncateFile_eq hlen] at hrun
      cases hrun
      exact ⟨h.cut hC hlen (hsafe (by rwa [h.stores.length_eq])) hinj, shrunk_uuid⟩
  | reopen => exact h.reopen hrun

variable {op : FileOp} {ops : List FileOp} {d₁ : DataFile}

lemma runFile_cons : runFile C d (op :: ops) = .ok d' ↔ ∃ d₁, op.run C d = .ok d₁ ∧ runFile C d₁ ops = .ok d' := by
  rw [runFile, foldlM_cons, bind_eq_ok]
  rfl

lemma mem_runInputs (ops : List FileOp) : nodeInputs d.fd.ht ⊆ runInputs C d ops :=
  fun _ hx => ⟨0, d, rfl, hx⟩

lemma runInputs_step (h : op.run C d = .ok d') : runInputs C d' ops ⊆ runInputs C d (op :: ops) := by
  rintro x ⟨k, d₁, hk, hx⟩
  exact ⟨k + 1, d₁, runFile_cons.mpr ⟨d', h, hk⟩, hx⟩

lemma Kept.run (h : Kept C d F) (hC : C.Correct) (hops : ∀ op ∈ ops, op.InRange) (hsafe : SafeRun C d ops)
    (hrun : runFile C d ops = .ok d') (hinj : Set.InjOn C.digest (runInputs C d ops)) :
    Kept C d' (fileContents F ops) ∧ d'.fd.ht.uuid = d.fd.ht.uuid := by
  induction ops generalizing d F with
  | nil =>
    cases hrun
    exact ⟨h, rfl⟩
  | cons op ops ih =>
    obtain ⟨d₁, hrun1, hrun2⟩ := runFile_cons.mp hrun
    obtain ⟨h1, hu1⟩ := h.op hC (hops op mem_cons_self) hsafe.1 hrun1
      (noRootCollision hinj h.committed.wf (mem_runInputs _) ((mem_runInputs ops).trans (runInputs_step hrun1)))
    obtain ⟨h2, hu2⟩ := ih h1 (fun o ho => hops o (mem_cons_of_mem op ho)) (hsafe.2 d₁ hrun1) hrun2
      (hinj.mono (runInputs_step hrun1))
    exact ⟨h2, hu2.trans hu1⟩

lemma runFile_append (h : runFile C d ops = .ok d') (hop : op.run C d' = .ok d₁) :
    runFile C d (ops ++ [op]) = .ok d₁ := by
  rw [runFile, foldlM_append]
  have hfold : ops.foldlM (FileOp.run C) d = .ok d' := h
  rw [hfold, ok_bind, foldlM_cons, hop]
  rfl

lemma runInputs_append (op : FileOp) : runInputs C d ops ⊆ runInputs C d (ops ++ [op]) := by
  rintro x ⟨k, d₁, hk, hx⟩
  refine ⟨min k ops.length, d₁, ?_, hx⟩
  rwa [take_append_of_le_length (min_le_right _ _), ← take_take, take_length]

lemma runInputs_last (h : runFile C d ops = .ok d') (hop : op.run C d' = .ok d₁) :
    nodeInputs d₁.fd.ht ⊆ runInputs C d (ops ++ [op]) := by
  refine fun x hx => ⟨(ops ++ [op]).length, d₁, ?_, hx⟩
  rw [take_length]
  exact runFile_append h hop

theorem shrink_survives_reopening (hC : C.Correct) (uuid : Option Uuid) (fek iv₀ : Bytes 16)
    (head attr data : List UInt8) (ivs₀ : ℕ → ℕ → ℕ → Bytes 16) (iv₁ : Bytes 16) (d₀ : DataFile) (es₀ : List Effect)
    (hcreate : createFile C uuid fek iv₀ head attr data ivs₀ iv₁ = .ok (d₀, es₀))
    (hsize : head.length + attr.length + data.length ≤ 2 ^ 31) (ops : List FileOp) (d : DataFile)
    (hrun : runFile C d₀ ops = .ok d) (hrange : ∀ op ∈ ops, op.InRange) (hsafe : SafeRun C d₀ ops)
    (newLen : ℕ) (hlen : newLen ≤ d.fd.length) (ivs : ℕ → Bytes 16) (iv : Bytes 16) (d' : DataFile) (es : List Effect)
    (htrunc : truncateFile C d newLen ivs iv = .ok (d', es))
    (hinj : Set.InjOn C.digest (runInputs C d₀ (ops ++ [.truncate newLen ivs iv])))
    (hzero : ∀ d₁ es₁, emptyFile C uuid fek iv₀ = .ok (d₁, es₁) → C.digest (rootInput d₁.fd.ht) ≠ zeroBytes 32) :
    Restores C d'.fd.file d'.hash uuid ((fileContents (head ++ attr ++ data) ops).take newLen) ↔
      OnlyRootLosesChildren d.fd.ht.nodes (newLen / blockSize + 1) := by
  obtain ⟨h₀, hu₀⟩ := Kept.create hC hcreate hsize hzero
  obtain ⟨h, hu⟩ := h₀.run hC hrange hsafe hrun (hinj.mono (runInputs_append _))
  rw [h.stores.length_eq] at hlen
  have hlast : (FileOp.truncate newLen ivs iv).run C d = .ok d' := by
    rw [FileOp.run, htrunc]
    rfl
  have hlt : nodeInputs d.fd.ht ⊆ runInputs C d₀ (ops ++ [.truncate newLen ivs iv]) :=
    fun x hx => runInputs_append _ ⟨ops.length, d, by rwa [take_length], hx⟩
  have hlt' := runInputs_last hrun hlast
  rw [h.truncateFile_eq hlen] at htrunc
  cases htrunc
  have htake : (fileContents (head ++ attr ++ data) ops).take newLen =
      resize (fileContents (head ++ attr ++ data) ops) newLen := by
    rw [resize, extend, take_append_of_le_length hlen]
  rw [htake, ← hu₀, ← hu]
  constructor
  · rintro ⟨ht, hopen, -⟩
    exact h.opens_cut hC hlen (hinj.mono (Set.union_subset hlt hlt')) hopen
  · intro hcut
    have hk : Kept C (cutFile C d newLen iv) _ := h.cut hC hlen hcut (noRootCollision hinj h.committed.wf hlt hlt')
    have huuid : (cutFile C d newLen iv).fd.ht.uuid = d.fd.ht.uuid := shrunk_uuid
    rw [← huuid]
    exact hk.restores

lemma runInputs_single (h : op.run C d = .ok d') : runInputs C d [op] ⊆ nodeInputs d.fd.ht ∪ nodeInputs d'.fd.ht := by
  rintro x ⟨k, d₁, hk, hx⟩
  cases k with
  | zero => cases hk; exact Or.inl hx
  | succ k =>
    obtain ⟨d2, h2, hk⟩ := runFile_cons.mp hk
    rw [h] at h2
    cases h2
    rw [take_nil] at hk
    cases hk
    exact Or.inr hx

def toyFile (data : List UInt8) : TeeResult (DataFile × List Effect) :=
  createFile toyCrypto none (zeroBytes 16) (zeroBytes 16) [] [] data (fun _ _ _ => zeroBytes 16) (zeroBytes 16)

def toyShrink (d : DataFile) (newLen : ℕ) : TeeResult (DataFile × List Effect) :=
  truncateFile toyCrypto d newLen (fun _ => zeroBytes 16) (zeroBytes 16)

def toyEmpty : DataFile := ((emptyFile toyCrypto none (zeroBytes 16) (zeroBytes 16)).get (by decide +kernel)).1

lemma toyEmpty_ne_zero (d : DataFile) (es : List Effect)
    (h : emptyFile toyCrypto none (zeroBytes 16) (zeroBytes 16) = .ok (d, es)) :
    toyCrypto.digest (rootInput d.fd.ht) ≠ zeroBytes 32 := by
  have heq := eq_ok_get (emptyFile toyCrypto none (zeroBytes 16) (zeroBytes 16)) (by decide +kernel)
  obtain rfl : toyEmpty = d := congrArg Prod.fst (Except.ok.inj (heq.symm.trans h))
  decide +kernel

lemma injOn_roots (hl : child false d.fd.ht.root = .nil) (hr : child true d.fd.ht.root = .nil)
    (hl' : child false d'.fd.ht.root = .nil) (hr' : child true d'.fd.ht.root = .nil) (hop : op.run C d = .ok d')
    (hne : C.digest (rootInput d.fd.ht) ≠ C.digest (rootInput d'.fd.ht)) : Set.InjOn C.digest (runInputs C d [op]) := by
  refine Set.InjOn.mono ((runInputs_single hop).trans
    (Set.union_subset_union (nodeInputs_leaf hl hr) (nodeInputs_leaf hl' hr'))) ?_
  rw [Set.singleton_union, Set.injOn_pair]
  exact fun h => absurd h hne

lemma toyShrink_run {es : List Effect} (h : toyShrink d newLen = .ok (d', es)) :
    (FileOp.truncate newLen (fun _ => zeroBytes 16) (zeroBytes 16)).run toyCrypto d = .ok d' :=
  congrArg (fun r : TeeResult (DataFile × List Effect) => r >>= fun r => pure r.1) h

theorem shrink_survives_reopening_within_block : ∃ d es d' es', toyFile [1, 2, 3] = .ok (d, es) ∧
    toyShrink d 2 = .ok (d', es') ∧ Restores toyCrypto d'.fd.file d'.hash none [1, 2] := by
  have hcreate := eq_ok_get (toyFile [1, 2, 3]) (by decide +kernel)
  have hshrink := eq_ok_get (toyShrink ((toyFile [1, 2, 3]).get (by decide +kernel)).1 2)
    (by decide +kernel)
  refine ⟨_, _, _, _, hcreate, hshrink, ?_⟩
  exact (shrink_survives_reopening toyCrypto_correct none _ _ [] [] [1, 2, 3] _ _ _ _ hcreate (by decide) [] _ rfl
    (by simp) trivial 2 (by decide +kernel) _ _ _ _ hshrink
    (injOn_roots (by decide +kernel) (by decide +kernel) (by decide +kernel) (by decide +kernel)
      (toyShrink_run hshrink) (by decide +kernel)) toyEmpty_ne_zero).mpr (Or.inl (by decide +kernel))

def fourBlocks : List UInt8 := List.replicate 16384 0

theorem shrink_four_blocks_to_two : ∃ r r', toyFile fourBlocks = .ok r ∧ toyShrink r.1 8192 = .ok r' ∧
    ¬ Restores toyCrypto r'.1.fd.file r'.1.hash none (fourBlocks.take 8192) := by
  refine ⟨_, _, eq_ok_get (toyFile fourBlocks) (by decide +kernel),
    eq_ok_get _ (by decide +kernel), ?_⟩
  rintro ⟨ht, hopen, -⟩
  exact ne_ok_of_error? (e := .corruptObject) (by decide +kernel) ht hopen

end Optee.ReeFs
