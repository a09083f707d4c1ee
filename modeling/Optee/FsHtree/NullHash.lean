import Optee.FsHtree.Integrity

/-! Integrity of a tree that is opened without a root hash: it rests on the head. -/

namespace Optee.FsHtree

open Lib.ByteStrings Lib.HeapTree Lib.Runs List TeeResult

variable {B : ℕ} {C : Crypto} {w w' : World B} {e : Event B} {h : Handle B} {ht : Htree}

structure World.Rooted (C : Crypto) (w : World B) : Prop where
  handles : ∀ h ∈ w.handles, Grounded C w.inputs h.ht
  commits : ∀ h ∈ w.commits, Grounded C w.inputs h.ht
  heads : ∀ e ∈ w.log, (∃ h ∈ w.commits, e = h.ht.sealedHead) ∨ e.aad.length = 32

lemma World.inputs_commit (w : World B) (h : Handle B) : (w.commit h).inputs = w.inputs ∪ nodeInputs h.ht := by
  ext x
  simp only [World.inputs, World.commit, World.seal, mem_cons, exists_eq_or_imp, Set.mem_ofPred_eq, Set.mem_union]
  rw [or_assoc, or_comm]

lemma World.inputs_load (w : World B) (ht : Htree) : (w.load C ht).inputs = w.inputs ∪ nodeInputs ht := by
  ext x
  simp only [World.inputs, World.load, World.add, mem_cons, exists_eq_or_imp, Set.mem_ofPred_eq, Set.mem_union]
  rw [or_assoc, @or_comm (x ∈ nodeInputs ht)]

lemma World.Rooted.put {i : ℕ} (hw : w.Rooted C) (hh : Grounded C w.inputs h.ht) : (w.put i h).Rooted C where
  handles x hx := by
    rcases World.mem_put hx with hx | rfl
    · exact hw.handles x hx
    · exact hh
  commits := hw.commits
  heads := hw.heads

lemma World.Rooted.commit (hw : w.Rooted C) (hh : Grounded C (w.inputs ∪ nodeInputs h.ht) h.ht) :
    (w.commit h).Rooted C where
  handles x hx := by
    rw [World.inputs_commit]
    exact (hw.handles x hx).mono Set.subset_union_left
  commits x hx := by
    rw [World.inputs_commit]
    rcases mem_cons.mp hx with rfl | hx
    · exact hh
    · exact (hw.commits x hx).mono Set.subset_union_left
  heads e he := by
    rcases mem_cons.mp he with rfl | he
    · exact Or.inl ⟨h, mem_cons_self, rfl⟩
    · rcases hw.heads e he with ⟨x, hx, rfl⟩ | hlen
      · exact Or.inl ⟨x, mem_cons_of_mem _ hx, rfl⟩
      · exact Or.inr hlen

lemma nodeAad_length (encFek iv : Bytes 16) : (nodeAad encFek iv).length = 32 := by simp [nodeAad]

lemma grounded_newHtree (uuid : Option Uuid) (fek : Bytes 16) (inputs : Set (List UInt8)) :
    Grounded C inputs (newHtree C uuid fek) := by
  intro j n hj hn hd
  have hshape : Shape (newHtree C uuid fek).root 1 := shape_leaf rfl
  have hle := (hshape.full j hj).mp (by simp [hn])
  obtain rfl : j = 1 := by omega
  cases hn
  cases hd

lemma Step.rooted (hC : C.Correct) (hs : Step C w e w') (hshape : w.Shaped) (hskip : e.NoSkip w) (hw : w.Rooted C) :
    w'.Rooted C := by
  have hmem : ∀ {i : ℕ} {h : Handle B}, w.handles[i]? = some h → h.ht.Wf ∧ Grounded C w.inputs h.ht :=
    fun hh => ⟨(hshape.handles _ (mem_of_getElem? hh)).1, hw.handles _ (mem_of_getElem? hh)⟩
  cases hs with
  | @create uuid fek iv h hh =>
    subst hh
    have hg := (grounded_newHtree uuid fek w.inputs).synced
      (live_newHtree hC (HostFile.empty (B := B)) uuid fek).wf iv
    have hcommit := hw.commit (h := ⟨_, fun _ => none⟩) hg
    refine ⟨fun x hx => ?_, hcommit.commits, hcommit.heads⟩
    rcases World.mem_add hx with hx | rfl
    · exact hcommit.handles x hx
    · exact hcommit.commits _ mem_cons_self
  | @load f hash uuid ht v hc =>
    have hg := hc.hashOk.grounded hc.wf
    refine ⟨fun x hx => ?_, fun x hx => ?_, hw.heads⟩
    · rw [World.inputs_load]
      rcases World.mem_add hx with hx | rfl
      · exact (hw.handles x hx).mono Set.subset_union_left
      · exact hg.mono Set.subset_union_right
    · rw [World.inputs_load]
      exact (hw.commits x hx).mono Set.subset_union_left
  | @write i num block iv h hh hlt =>
    obtain ⟨hwf, hg⟩ := hmem hh
    have hseal : (w.seal (h.ht.sealedBlock block iv)).Rooted C := by
      refine ⟨hw.handles, hw.commits, fun e he => ?_⟩
      rcases mem_cons.mp he with rfl | he
      · exact Or.inr (nodeAad_length _ _)
      · exact hw.heads e he
    exact hseal.put (hg.blockWritten hwf hlt (hskip h hh))
  | setMeta hh => exact hw.put (hmem hh).2.setMeta
  | truncate hh => exact hw.put ((hmem hh).2.shrunk (hmem hh).1 (Nat.succ_pos _))
  | @sync i iv h h' hh hd hh' =>
    subst hh'
    obtain ⟨hwf, hg⟩ := hmem hh
    have hcommit := hw.commit (h := ⟨h.ht.synced C iv, h.blocks⟩) (hg.synced hwf iv)
    exact hcommit.put (hcommit.commits _ mem_cons_self)
  | skip => exact hw

lemma World.start_rooted : (World.start : World B).Rooted C :=
  ⟨fun _ hh => absurd hh not_mem_nil, fun _ hh => absurd hh not_mem_nil, fun _ hh => absurd hh not_mem_nil⟩

lemma World.Rooted.head (hw : w.Rooted C) (hC : C.Correct) {f : HostFile B} {v : Bool} (hc : OnDisk C f v ht)
    (hproduced : Produced C w.log ht.fek ht.head.iv (headAad (rootHash ht.root) ht.head) ht.head.imeta ht.head.tag) :
    ∃ K ∈ w.commits, K.ht.fek = ht.fek ∧ ht.imeta = K.ht.imeta ∧
      (rootHash ht.root).toList.take 16 = (rootHash K.ht.root).toList.take 16 := by
  obtain ⟨-, plain, hdec, himeta⟩ := verifyRoot_ok.mp hc.verified
  obtain ⟨hmem, -⟩ := hproduced.plain hC hdec
  rcases hw.heads _ hmem with ⟨K, hK, heq⟩ | hlen
  · simp only [Htree.sealedHead, Sealed.mk.injEq, heq_eq_eq, true_and] at heq
    obtain ⟨hkey, -, haad, hplain⟩ := heq
    simp only [headAad, append_assoc] at haad
    refine ⟨K, hK, hkey.symm, ?_, (append_inj haad (by simp)).1⟩
    rw [← himeta, hplain, Imeta.ofBytes_bytes]
  · simp [headAad] at hlen

theorem open_without_hash_binds (hC : C.Correct) (es : List (Event B)) (w : World B)
    (hrun : run (World.step C) World.start es = .ok w)
    (hskip : Along (World.step C) (fun w e => e.NoSkip w) World.start es)
    (f : HostFile B) (uuid : Option Uuid) (ht : Htree) (hopen : openHtree C f none uuid = .ok ht)
    (hproduced : Produced C w.log ht.fek ht.head.iv (headAad (rootHash ht.root) ht.head) ht.head.imeta ht.head.tag)
    (hinj : Set.InjOn C.digest (w.inputs ∪ nodeInputs ht))
    (hhalf : ∀ v (image : NodeImage), f.read (.node 0 v) = some image → ∀ K ∈ w.commits,
      image.hash.toList.take 16 = (rootHash K.ht.root).toList.take 16 → image.hash = rootHash K.ht.root) :
    ∃ K ∈ w.commits, K.ht.fek = ht.fek ∧ ht.imeta = K.ht.imeta ∧ SameImages ht K.ht := by
  obtain ⟨hshape, hrooted⟩ : w.Shaped ∧ w.Rooted C := by
    refine hskip.invariant (I := fun w => w.Shaped ∧ w.Rooted C) hrun ⟨World.start_shaped, World.start_rooted⟩ ?_
    rintro s e t ⟨hs, hs'⟩ hstep_skip hstep
    have h := hs.step hC hstep
    exact ⟨h.shaped hC hs, h.rooted hC hs hstep_skip hs'⟩
  obtain ⟨-, v, -, hc⟩ := openHtree_ok_iff.mp hopen
  obtain ⟨K, hK, hkey, himeta, htake⟩ := hrooted.head hC hc.toOnDisk hproduced
  obtain ⟨hwf, hclean⟩ := hshape.commits K hK
  have hroot := hhalf v _ hc.read_root K hK (by rwa [rootImage_hash])
  rw [rootImage_hash] at hroot
  exact ⟨K, hK, hkey, himeta, (hrooted.commits K hK).same hclean hwf hc.wf hc.hashOk hinj himeta hroot⟩

def toyPresent (C : Crypto) (es : List (Event 144)) (f : HostFile 144) : TeeResult (World 144 × Htree) := do
  let w ← run (World.step C) World.start es
  let ht ← openHtree C f none none
  let aad := headAad (rootHash ht.root) ht.head
  assert (⟨16, ht.fek, ht.head.iv, aad, ht.imeta.bytes⟩ ∈ w.log)
  assert (C.authEnc ht.fek ht.head.iv aad ht.imeta.bytes = (ht.head.imeta, ht.head.tag))
  assert w.loaded.isEmpty
  let inputs := w.commits.flatMap (fun K => K.ht.inputList) ++ ht.inputList
  assert (∀ x ∈ inputs, ∀ y ∈ inputs, C.digest x = C.digest y → x = y)
  pure (w, ht)

lemma toyPresent_ok (hC : C.Correct) {es : List (Event 144)} {f : HostFile 144} {w : World 144}
    (h : toyPresent C es f = .ok (w, ht)) : run (World.step C) World.start es = .ok w ∧
      openHtree C f none none = .ok ht ∧
      Produced C w.log ht.fek ht.head.iv (headAad (rootHash ht.root) ht.head) ht.head.imeta ht.head.tag ∧
      Set.InjOn C.digest (w.inputs ∪ nodeInputs ht) := by
  simp only [toyPresent, bind_eq_ok, assert_eq_ok, pure, Except.pure] at h
  obtain ⟨w', hrun, ht', hopen, _, hmem, _, henc, _, hloaded, _, hinj, hret⟩ := h
  cases hret
  have hshape := World.shaped_of_run hC hrun
  obtain ⟨-, v, -, hc⟩ := openHtree_ok_iff.mp hopen
  refine ⟨hrun, hopen, ⟨_, hmem, henc⟩, ?_⟩
  have hall : ∀ x ∈ w.inputs ∪ nodeInputs ht, x ∈ w.commits.flatMap (fun K => K.ht.inputList) ++ ht.inputList := by
    rintro x ((⟨K, hK, hx⟩ | ⟨t, htl, -⟩) | hx)
    · exact mem_append_left _ (mem_flatMap.mpr ⟨K, hK, (hshape.commits K hK).1.mem_nodeInputs hx⟩)
    · rw [isEmpty_iff.mp hloaded] at htl
      cases htl
    · exact mem_append_right _ (hc.wf.mem_nodeInputs hx)
  exact fun x hx y hy => hinj x (hall x hx) y (hall y hy)

theorem open_without_hash_binds_two_blocks : ∃ s w ht, toyStore 2 = .ok s ∧
    toyPresent toyCrypto (toyHistory 2) s.file = .ok (w, ht) ∧
    ∃ K ∈ w.commits, K.ht.fek = ht.fek ∧ ht.imeta = K.ht.imeta ∧ SameImages ht K.ht := by
  have hcheck : (toyStore 2 >>= fun s => toyPresent toyCrypto (toyHistory 2) s.file >>= fun r =>
      assert (∀ v, ∀ image : NodeImage, s.file.read (.node 0 v) = some image → ∀ K ∈ r.1.commits,
        image.hash.toList.take 16 = (rootHash K.ht.root).toList.take 16 → image.hash = rootHash K.ht.root)).error? =
      none := by decide +kernel
  obtain ⟨s, hs, hcheck⟩ := ok_of_bind hcheck
  obtain ⟨⟨w, ht⟩, hr, hcheck⟩ := ok_of_bind hcheck
  obtain ⟨hrun, hopen, hproduced, hinj⟩ := toyPresent_ok toyCrypto_correct hr
  exact ⟨s, w, ht, hs, hr, open_without_hash_binds toyCrypto_correct (toyHistory 2) w hrun (by decide +kernel) s.file none
    ht hopen hproduced hinj (of_assert hcheck)⟩

def halfCrypto : Crypto :=
  { toyCrypto with digest := fun x => ⟨List.replicate 16 0 ++ (checksum 16 x).toList, by simp⟩ }

def forgedRoot : NodeImage :=
  let image := { NodeImage.zero with iv := toyIv 7 }
  { image with hash := calcNodeHash halfCrypto image (some ⟨0⟩) .nil .nil }

theorem forged_root_opens : ∃ s w ht, Session.create halfCrypto none (zeroBytes 16) (toyIv 1) = .ok s ∧
    toyPresent halfCrypto [.create none (zeroBytes 16) (toyIv 1)]
      (s.file.writeAll [rpcWriteNode 1 true forgedRoot]) = .ok (w, ht) ∧ ¬ ∃ K ∈ w.commits, SameImages ht K.ht := by
  have hcheck : ((Session.create halfCrypto none (zeroBytes 16) (toyIv 1)) >>= fun s =>
      toyPresent halfCrypto [.create none (zeroBytes 16) (toyIv 1)]
        (s.file.writeAll [rpcWriteNode 1 true forgedRoot]) >>= fun r =>
      assert (∀ K ∈ r.1.commits, (at? r.2.root 1).map HNode.image ≠ (at? K.ht.root 1).map HNode.image)).error? =
      none := by decide +kernel
  obtain ⟨s, hs, hcheck⟩ := ok_of_bind hcheck
  obtain ⟨⟨w, ht⟩, hr, hcheck⟩ := ok_of_bind hcheck
  refine ⟨s, w, ht, hs, hr, ?_⟩
  rintro ⟨K, hK, hsame⟩
  exact of_assert hcheck K hK (hsame 1 one_pos)

end Optee.FsHtree
