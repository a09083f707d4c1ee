import Optee.Lib.Runs
import Optee.ReeFs.CallRules
import Optee.FsHtree.ToyCrypto

/-! Calls on a handle after an operation of its hash tree has failed. -/

namespace Optee.ReeFs

open FsHtree Lib.ByteStrings Lib.Effects Lib.Runs

namespace OpenFd

variable {φ : Faults} {fd : OpenFd}

@[simp] lemma putAll_failures (fd : OpenFd) (ws : List (HostWrite blockSize)) :
    (fd.putAll ws).failures = fd.failures := by
  induction ws generalizing fd with
  | nil => rfl
  | cons w ws ih => exact ih (fd.put (.write w))

def Sane (fd : OpenFd) : Prop := fd.ht = none ↔ fd.failures ≠ []

lemma sane_closed (fd : OpenFd) (e : TeeError) : (fd.closed e).Sane := by simp [Sane, closed]

lemma Sane.of_some {ht : Htree} {fd' : OpenFd} (h : fd.Sane) (hht : fd.ht = some ht) (hht' : fd'.ht ≠ none)
    (hf : fd'.failures = fd.failures) : fd'.Sane := by
  have hfail : fd.failures = [] := by
    by_contra hne
    rw [h.mpr hne] at hht
    cases hht
  simp [Sane, hf, hfail, hht']

def Usable (Z : Prop) (fd : OpenFd) : Prop := fd.Sane ∧ (Z ∨ fd.ht ≠ none)

def Stopped (Z : Prop) (e : Stop) (fd : OpenFd) : Prop := fd.Sane ∧ (e = .panic .nullTree → Z)

variable {Z : Prop}

lemma Usable.null {e : Stop} (h : fd.Usable Z) (hht : fd.ht = none) : Stopped Z e fd :=
  ⟨h.1, fun _ => h.2.resolve_right fun hne => hne hht⟩

lemma Usable.of_some {ht : Htree} {fd' : OpenFd} (h : fd.Usable Z) (hht : fd.ht = some ht) (hht' : fd'.ht ≠ none)
    (hf : fd'.failures = fd.failures) : fd'.Usable Z :=
  ⟨h.1.of_some hht hht' hf, .inr hht'⟩

lemma ofError_ne_nullTree (e : TeeError) : Stop.ofError e ≠ .panic .nullTree := by
  cases e <;> simp [Stop.ofError]

lemma stable_usable : Stable φ (Usable Z) (Stopped Z) where
  code _ _ h := ⟨h.1, nofun⟩
  length := by
    intro fd h
    unfold OpenFd.length
    split
    · next hht => exact h.null hht
    · exact h
  setLength len := by
    intro fd h
    unfold OpenFd.setLength
    split
    · next hht => exact h.null hht
    · next hht => exact h.of_some hht (by simp) rfl
  hash _ _ h := h
  mayFail e := by
    intro fd h
    unfold OpenFd.mayFail
    split
    · exact h
    · exact ⟨h.1, nofun⟩
  treeOp op := by
    intro fd h
    unfold OpenFd.treeOp
    split
    · next hht => exact h.null hht
    next hht =>
    split
    · exact ⟨sane_closed _ _, fun he => absurd he (ofError_ne_nullTree _)⟩
    · exact h.of_some hht (by simp) (by simp [tick])
    · exact ⟨sane_closed _ _, nofun⟩
  truncateTree num := by
    intro fd h
    unfold OpenFd.truncateTree
    split
    · next hht => exact h.null hht
    · next hht =>
      split
      · exact ⟨h.1, fun he => absurd he (ofError_ne_nullTree _)⟩
      · exact h.of_some hht (by simp) rfl
  rpcTruncate len := by
    intro fd h
    unfold OpenFd.rpcTruncate
    split
    · exact h
    · split_ifs <;> exact ⟨h.1, nofun⟩

end OpenFd

namespace Calls

variable {φ : Faults} {C : Crypto} {α : Type} {E : Stop → Prop} {T T' : List OpenFile → Prop}

def OpenFile.Sane (h : OpenFile) : Prop := h.ht = none ↔ h.failures ≠ []

def AllSane (fs : List OpenFile) : Prop := ∀ h ∈ fs, OpenFile.Sane h

def Rest (T : List OpenFile → Prop) (E : Stop → Prop) (e : Stop) (w : World) : Prop := T w.files ∧ E e

abbrev Keeps (T : List OpenFile → Prop) (E : Stop → Prop) (p : Fs α) : Prop :=
  Spec (fun w => T w.files) p (fun _ w => T w.files) (Rest T E)

variable {change : OpenFd.Run Unit} {iv : Bytes 16} {Q : α → World → Prop} {p : OpenFd.Run α}
  {R : Stop → OpenFd → Prop} {P : OpenFd → Prop}

section Files

variable (hE : ∀ e, e ≠ .panic .nullTree → E e)
include hE

lemma fileRules : Rules (fun w => T w.files) (Rest T E) where
  stop e _ he hw := ⟨hw, hE e (by rintro rfl; exact he.ordinary.1 rfl)⟩
  tick _ hw := hw

lemma fileHostRules : HostRules (fun w => T w.files) (Rest T E) where
  toRules := fileRules hE
  store _ _ _ hw := hw
  inodeCount _ _ hw := hw

lemma fileDirRules : DirRules (fun w => T w.files) (Rest T E) where
  toRules := fileRules hE
  ordinary e _ he hw := ⟨hw, hE e (by rintro rfl; exact he.1 rfl)⟩
  noDirh _ _ hw := ⟨hw, hE _ nofun⟩
  record _ _ _ _ _ _ hw := hw
  dir _ _ hw := hw

lemma getDirh_files : Keeps T E (getDirh φ) := by
  refine .bind ?_ (fun _ => .bind (Q := fun _ w => T w.files)
    (.modify (fun _ hw => hw)) (fun _ => ?_))
  · refine .bind (Q := fun _ w => T w.files) (.get (fun _ hw => hw)) (fun w => ?_)
    split
    · exact .pure (fun _ => id)
    · exact (fileRules hE).mayFail.bind (fun _ => .modify (fun _ hw => hw))
  · exact (fileDirRules hE).theDirh.bind (fun _ => .pure (fun _ hw => hw.1))

lemma putDirhPrimitive_files (close : Bool) : Keeps T E (putDirhPrimitive close) := by
  intro w hw
  unfold putDirhPrimitive
  split_ifs
  · exact ⟨hw, hE _ nofun⟩
  · exact hw

lemma putDirh_files (dirh : ℕ) (close : Bool) : Keeps T E (putDirh dirh close) := by
  refine .bind (Q := fun _ w => T w.files) (.get (fun _ hw => hw)) (fun w => ?_)
  split_ifs
  · exact putDirhPrimitive_files hE close
  · exact .throw (fun _ hw => ⟨hw, hE _ nofun⟩)

lemma onError_files {P : World → Prop} {p : Fs α} {cleanup : Fs Unit} (hp : Spec P p Q (Rest T E))
    (hc : Keeps T E cleanup) :
    Spec P (onError p cleanup) Q (Rest T E) :=
  onError_spec hp (fun _ _ h => h) (fun _ =>
    hc.mono (fun _ h => h.1) (fun _ _ h => ⟨h, hE _ nofun⟩) (fun _ _ h => h))

lemma reeFsChange_files {i : ℕ} (hT : ∀ fs, T fs → T' fs)
    (hfile : Spec (fun w => T w.files) (onFile i (do change; OpenFd.sync φ C iv)) (fun _ w => T' w.files) (Rest T' E)) :
    Spec (fun w => T w.files) (reeFsChange φ C i change iv) (fun _ w => T' w.files) (Rest T' E) := by
  refine .bind (Q := fun _ w => T w.files) ?_ (fun dirh => .bind (Q := fun _ w => T' w.files) ?_ (fun _ => ?_))
  · exact (getDirh_files hE).fails (fun _ _ h => ⟨hT _ h.1, h.2⟩)
  · refine onError_files hE (hfile.bind (fun _ => ?_)) (putDirh_files hE dirh true)
    refine ((fileRules hE).theFile i).bind (fun h => ?_)
    exact ((fileDirRules hE).dirfileUpdateHash h.dfh).of_imp (fun _ hw => hw.1) |>.bind
      (fun _ => (fileDirRules hE).commitDirhWrites)
  · exact putDirh_files hE dirh false

lemma reeFsRename_files (old new : Name) (overwrite : Bool) : Keeps T E (reeFsRename φ old new overwrite) := by
  have hd := fileDirRules (T := T) hE
  refine (getDirh_files hE).bind (fun dirh => .bind ?_ (fun _ => putDirh_files hE dirh false))
  refine onError_files hE ?_ (putDirh_files hE dirh true)
  refine (hd.lookup? new).bind (fun removed => ?_)
  split_ifs
  · exact hd.throw trivial
  · refine (hd.lookup old).bind (fun dfh => (hd.dirfileRename _ new dfh).bind (fun _ => ?_))
    exact (forOld_spec (fun dfh _ => hd.dirfileRemove dfh)).bind (fun _ => hd.commitDirhWrites.bind (fun _ =>
      forOld_spec (fun dfh _ => (fileHostRules hE).rpcRemove _)))

lemma reeFsRemove_files (name : Name) : Keeps T E (reeFsRemove φ name) := by
  have hd := fileDirRules (T := T) hE
  refine (getDirh_files hE).bind (fun dirh => .bind ?_ (fun _ => putDirh_files hE dirh false))
  refine onError_files hE ?_ (putDirh_files hE dirh true)
  refine (hd.lookup name).bind (fun dfh => (hd.dirfileRemove dfh).bind (fun _ => hd.commitDirhWrites.bind (fun _ =>
    ((fileHostRules hE).rpcRemove _).bind (fun _ => (hd.lookup? name).bind (fun found => ?_)))))
  split_ifs
  · exact hd.throw (by simp [Stop.Plain])
  · exact .pure (fun _ => id)

lemma reeFsOpendir_files (uuid : Uuid) : Keeps T E (reeFsOpendir φ uuid) := by
  have hd := fileDirRules (T := T) hE
  refine (getDirh_files hE).bind (fun dirh => .bind ?_ (fun _ => .modify (fun _ hw => hw)))
  refine onError_files hE (hd.theDirh.bind (fun d => ?_)) (putDirh_files hE dirh false)
  refine ((hd.liftExcept (fun _ he => ?_)).of_imp (fun _ hw => hw.1)).bind (fun _ => .pure (fun _ hw => hw))
  rw [Dirh.getNext_error he]
  trivial

end Files

lemma onFile_spec {i : ℕ} {P : World → Prop} {R : Stop → World → Prop} (hnone : ∀ w, P w → R (.panic .noHandle) w)
    (h : ∀ w h, P w → w.files[i]? = some h →
      Ends (fun a fd => Q a (w.putFd i h fd)) (fun e fd => R e (w.putFd i h fd)) (p (w.fdOf h))) :
    Spec P (onFile i p) Q R := by
  intro w hw
  unfold onFile
  cases hf : w.files[i]? with
  | none => exact hnone w hw
  | some x => exact Spec.zoom (h w x hw hf) (fun _ _ => id) (fun _ _ => id)

variable {w : World}

lemma AllSane.putFd (hw : AllSane w.files) (i : ℕ) (h : OpenFile) {fd : OpenFd} (hfd : fd.Sane) :
    AllSane (w.putFd i h fd).files := by
  intro x hx
  rcases List.mem_or_eq_of_mem_set hx with hx | rfl
  · exact hw x hx
  · exact hfd

lemma AllSane.fdOf {i : ℕ} {h : OpenFile} (hw : AllSane w.files) (hf : w.files[i]? = some h) :
    (w.fdOf h).Sane :=
  hw h (List.mem_of_getElem? hf)

def Intact (E : Stop → Prop) (i : ℕ) (fs : List OpenFile) : Prop :=
  AllSane fs ∧ (E (.panic .nullTree) ∨ ∀ h, fs[i]? = some h → h.ht ≠ none)

lemma onFile_files {i : ℕ} (hE : ∀ e, e ≠ .panic .nullTree → E e)
    (hp : ∀ {P : OpenFd → Prop} {R : Stop → OpenFd → Prop}, OpenFd.Stable φ P R → Preserves P p R) :
    Spec (fun w => Intact E i w.files) (onFile i p) (fun _ w => AllSane w.files) (Rest AllSane E) := by
  refine onFile_spec (fun w hw => ⟨hw.1, hE _ nofun⟩) (fun w h hw hf => ?_)
  refine (hp OpenFd.stable_usable (w.fdOf h) ⟨hw.1.fdOf hf, hw.2.imp_right fun hht => hht h hf⟩).mono
    (fun _ fd hfd => hw.1.putFd i h hfd.1) (fun e fd hfd => ⟨hw.1.putFd i h hfd.1, ?_⟩)
  by_cases he : e = .panic .nullTree
  · rw [he]
    exact hfd.2 he
  · exact hE e he

lemma written_stable (pos : ℕ) (buf : List UInt8) (ivs : ℕ → ℕ → Bytes 16) (iv : Bytes 16) (h : OpenFd.Stable φ P R) :
    Preserves P (do OpenFd.writePrimitive φ C pos buf ivs; OpenFd.sync φ C iv) R :=
  (h.writePrimitive pos buf ivs).bind (fun _ => h.sync iv)

lemma truncated_stable (len : ℕ) (ivs : ℕ → Bytes 16) (iv : Bytes 16) (h : OpenFd.Stable φ P R) :
    Preserves P (do OpenFd.ftruncateInternal φ C len ivs; OpenFd.sync φ C iv) R :=
  (h.ftruncateInternal len ivs).bind (fun _ => h.sync iv)

lemma AllSane.append {fs : List OpenFile} (h : AllSane fs) {x : OpenFile} (hx : OpenFile.Sane x) : AllSane (fs ++ [x]) := by
  intro y hy
  rcases List.mem_append.mp hy with hy | hy
  · exact h y hy
  · rw [List.mem_singleton.mp hy]
    exact hx

section Handles

variable (hE : ∀ e, e ≠ .panic .nullTree → E e)
include hE

lemma createPrimitive_files (uuid : Uuid) (dfh : Fileh) (fek iv : Bytes 16) :
    Spec (fun w => AllSane w.files) (createPrimitive φ C uuid dfh fek iv) (fun i w => Intact E i w.files)
      (Rest AllSane E) := by
  have hh := fileHostRules (T := AllSane) hE
  refine .bind (Q := fun _ w => AllSane w.files) ?_ (fun r => ?_)
  · exact onError_files hE ((hh.rpcCreate _).bind (fun _ => (hh.createTree _ _ _ _).bind (fun _ => .pure (fun _ => id))))
      (hh.rpcRemove _)
  · refine .bind (Q := fun w' w => AllSane w.files ∧ w' = w) (.get (fun _ hw => ⟨hw, rfl⟩)) (fun w' => ?_)
    rintro w ⟨hw, rfl⟩
    refine ⟨hw.append (by simp [OpenFile.Sane]), .inr fun h hget => ?_⟩
    rw [List.getElem?_concat_length] at hget
    cases hget
    exact Option.some_ne_none _

lemma openPrimitive_files (uuid : Uuid) (dfh : Fileh) : Keeps AllSane E (openPrimitive φ C uuid dfh) := by
  have hr := fileRules (T := AllSane) hE
  refine .bind (Q := fun _ w => AllSane w.files) (.get (fun _ hw => hw)) (fun w => ?_)
  split
  · exact hr.throw trivial
  · refine hr.mayFail.bind (fun _ => ?_)
    split
    · exact hr.throw (Stop.plain_ofError _)
    · exact .modify (fun w hw => hw.append (by simp [OpenFile.Sane]))

omit hE in
lemma closePrimitive_files (i : ℕ) : Keeps AllSane E (closePrimitive i) :=
  .modify (fun _ hw x hx => hw x (List.mem_of_mem_eraseIdx hx))

omit hE in
lemma setDfh_files (i : ℕ) (dfh : Fileh) : Keeps AllSane E (setDfh i dfh) := by
  refine .modify (fun w hw x hx => ?_)
  obtain ⟨n, hn, rfl⟩ := List.mem_iff_getElem.mp hx
  rw [List.length_modify] at hn
  rw [List.getElem_modify]
  split_ifs
  · exact (hw w.files[n] (List.getElem_mem hn) :)
  · exact hw _ (List.getElem_mem hn)

lemma setName_files (i : ℕ) (name : Name) (overwrite : Bool) : Keeps AllSane E (setName φ i name overwrite) := by
  have hd := fileDirRules (T := AllSane) hE
  refine (hd.lookup? name).bind (fun old => ?_)
  split_ifs
  · exact hd.throw trivial
  · refine (hd.theFile i).bind (fun h => ?_)
    refine ((hd.dirfileRename false name _).of_imp (fun _ hw => hw.1)).bind (fun dfh => ?_)
    exact (setDfh_files i dfh).bind (fun _ => hd.commitDirhWrites.bind (fun _ =>
      forOld_spec (fun dfh _ => (fileHostRules hE).rpcRemove _)))

lemma reeFsCreate_files (name : Name) (overwrite : Bool) (c : Creation) :
    Keeps AllSane E (reeFsCreate φ C name overwrite c) := by
  refine (getDirh_files hE).bind (fun dirh => ?_)
  have hput := putDirh_files (T := AllSane) hE dirh true
  refine (onError_files hE (fileDirRules hE).dirfileGetTmp hput).bind (fun dfh => ?_)
  refine (onError_files hE (createPrimitive_files hE name.uuid dfh c.fek c.iv) hput).bind (fun i => ?_)
  refine onError_files hE (.bind ?_ (fun _ => setName_files hE i name overwrite)) ?_
  · refine onFile_files (φ := φ) hE (fun h => ?_)
    exact (h.writePrimitive _ _ _).bind (fun _ => (h.writePrimitive _ _ _).bind (fun _ =>
      (h.writePrimitive _ _ _).bind (fun _ => h.sync _)))
  · exact hput.bind (fun _ => (closePrimitive_files i).bind (fun _ => (fileHostRules hE).rpcRemove _))

lemma reeFsOpen_files (name : Name) : Keeps AllSane E (reeFsOpen φ C name) := by
  refine (getDirh_files hE).bind (fun dirh => onError_files hE ?_ (putDirh_files hE dirh false))
  refine ((fileDirRules hE).lookup name).bind (fun dfh => ?_)
  exact notFoundIsCorrupt_spec (openPrimitive_files hE name.uuid dfh) (fun _ _ _ h => ⟨h.1, hE _ nofun⟩)

lemma reeFsClose_files (i : ℕ) : Keeps AllSane E (reeFsClose i) := by
  refine ((fileRules hE).theFile i).bind (fun _ => ?_)
  exact ((putDirhPrimitive_files hE false).of_imp (fun _ hw => hw.1)).bind (fun _ => closePrimitive_files i)

lemma reeFsClosedir_files (j : ℕ) : Keeps AllSane E (reeFsClosedir j) := by
  refine ((fileRules hE).theStream j).bind (fun s => ?_)
  exact ((putDirh_files hE s.dirh false).of_imp (fun _ hw => hw.1)).bind (fun _ => .modify (fun _ hw => hw))

lemma reeFsReaddir_files (j : ℕ) : Keeps AllSane E (reeFsReaddir j) := by
  have hd := fileDirRules (T := AllSane) hE
  refine (hd.theStream j).bind (fun s => .bind (Q := fun _ w => AllSane w.files) (.get (fun _ hw => hw.1))
    (fun w => ?_))
  split_ifs
  · exact .throw (fun _ hw => ⟨hw, hE _ nofun⟩)
  · refine hd.theDirh.bind (fun d => ((hd.liftExcept (fun e he => ?_)).of_imp (fun _ hw => hw.1)).bind (fun r => ?_))
    · rw [Dirh.getNext_error he]
      trivial
    · exact .bind (.modify (fun _ hw => hw)) (fun _ => .pure (fun _ => id))

end Handles

lemma getDirh_cases (φ : Faults) (w : World) :
    (∃ d, w.dirh = some d ∧ getDirh φ w = .ok d.id { w with refcount := w.refcount + 1 }) ∨
    (∃ f, w.dirh = none ∧ φ w.clock = some f ∧ getDirh φ w = .error (.code f.error) w.tick) ∨
    w.dirh = none ∧ φ w.clock = none ∧
      getDirh φ w = .ok w.opened { w.tick.loadDirh with refcount := w.refcount + 1 } := by
  obtain ⟨storage, dirh, refcount, files, streams, opened, inodeCount, clock, states, trail⟩ := w
  cases dirh with
  | some d => exact .inl ⟨d, rfl, rfl⟩
  | none =>
    have hget (w : World) : (get : Fs World) w = .ok w w := rfl
    cases hf : φ clock with
    | some f =>
      simp [getDirh, ensureDirh, bind, EStateM.bind, hget, mayFail, hf]
    | none =>
      refine .inr (.inr ⟨rfl, rfl, ?_⟩)
      simp only [getDirh, ensureDirh, bind, EStateM.bind, hget, mayFail, hf]
      rfl

namespace Call

def handle? : Call → Option ℕ
  | .read i _ _ => some i
  | .write i _ _ _ _ => some i
  | .truncate i _ _ _ => some i
  | _ => none

def Safe (φ : Faults) (C : Crypto) (w : World) (c : Call) : Prop :=
  (∀ w', c.exec φ C w ≠ .error (.panic .nullTree) w') ∧
    ∀ i h, c.handle? = some i → w.files[i]? = some h → h.failures ≠ [] → ∃ e w', c.exec φ C w = .error (.code e) w'

def Spared (φ : Faults) (w : World) : Call → Prop
  | .read _ _ _ => False
  | .write _ _ buf _ _ => buf = [] ∨ w.dirh = none ∧ φ w.clock ≠ none
  | .truncate _ _ _ _ => w.dirh = none ∧ φ w.clock ≠ none
  | _ => True

def Permitted (φ : Faults) (w : World) (c : Call) : Prop :=
  ∀ i h, c.handle? = some i → w.files[i]? = some h → h.failures = [] ∨ c.Spared φ w

end Call

lemma exec_files (hE : ∀ e, e ≠ .panic .nullTree → E e) (c : Call) (hw : AllSane w.files)
    (hi : ∀ i, c.handle? = some i → Intact E i w.files) :
    Ends (fun _ w => AllSane w.files) (Rest AllSane E) (c.exec φ C w) := by
  cases c with
  | load name => exact reeFsOpen_files hE name w hw
  | create name overwrite c => exact reeFsCreate_files hE name overwrite c w hw
  | close i => exact reeFsClose_files hE i w hw
  | read i pos len =>
    exact (onFile_files hE (fun h => h.readPrimitive pos len)).bind (fun _ => .pure (fun _ => id)) w (hi i rfl)
  | write i pos buf ivs iv =>
    exact reeFsChange_files hE (fun _ h => h.1) (onFile_files hE (written_stable pos buf ivs iv)) w (hi i rfl)
  | truncate i len ivs iv =>
    exact reeFsChange_files hE (fun _ h => h.1) (onFile_files hE (truncated_stable len ivs iv)) w (hi i rfl)
  | rename old new overwrite => exact reeFsRename_files hE old new overwrite w hw
  | remove name => exact reeFsRemove_files hE name w hw
  | opendir uuid => exact reeFsOpendir_files hE uuid w hw
  | closedir j => exact reeFsClosedir_files hE j w hw
  | readdir j => exact (reeFsReaddir_files hE j).bind (fun _ => .pure (fun _ => id)) w hw
  | reboot => exact nofun

lemma step_sane {w w' : World} {c : Call} (hw : AllSane w.files) (h : World.step φ C w c = .ok w') :
    AllSane w'.files := by
  have hends := exec_files (φ := φ) (C := C) (fun _ _ => trivial) c hw (fun _ _ => ⟨hw, .inl trivial⟩)
  unfold World.step at h
  cases hx : c.exec φ C w with
  | ok u w1 =>
    rw [hx] at h hends
    cases h
    exact hends
  | error e w1 =>
    rw [hx] at h hends
    cases e with
    | code e =>
      cases h
      exact hends.1
    | panic a => cases h

section Failed

variable {i : ℕ} {h : OpenFile} {w : World}

lemma onFile_error {e : Stop} {fd : OpenFd} (hf : w.files[i]? = some h) (hp : p (w.fdOf h) = .error e fd) :
    onFile i p w = .error e (w.putFd i h fd) := by
  simp [onFile, hf, zoom, hp]

lemma length_null (fd : OpenFd) (hht : fd.ht = none) : OpenFd.length fd = .error (.panic .nullTree) fd := by
  simp [OpenFd.length, hht]

lemma putDirh_ok {dirh : ℕ} {close : Bool} (hid : w.dirh.map Dirh.id = some dirh) (hcount : w.refcount ≠ 0) :
    putDirh dirh close w = .ok () (w.putDirh close) := by
  rw [putDirh, bind_get, if_pos hid, putDirhPrimitive, if_neg hcount]

lemma reeFsChange_error {e : TeeError} (hf : w.files[i]? = some h) (hp : ∀ w' : World, w'.files = w.files → ∃ fd,
      (do change; OpenFd.sync φ C iv : OpenFd.Run Unit) (w'.fdOf h) = .error (.code e) fd) :
    ∃ e w', reeFsChange φ C i change iv w = .error (.code e) w' := by
  have hrun : ∀ dirh w', getDirh φ w = .ok dirh w' → w'.files = w.files → w'.dirh.map Dirh.id = some dirh →
      w'.refcount ≠ 0 → ∃ e w', reeFsChange φ C i change iv w = .error (.code e) w' := by
    intro dirh w' hget hfiles hid hcount
    obtain ⟨fd, hfd⟩ := hp w' hfiles
    refine ⟨e, (w'.putFd i h fd).putDirh true, ?_⟩
    have hbody := bind_of_error (f := fun _ => do
      let h ← theFile i
      dirfileUpdateHash φ h.dfh
      commitDirhWrites φ) (onFile_error (hfiles ▸ hf) hfd)
    have hput : putDirh dirh true (w'.putFd i h fd) = .ok () ((w'.putFd i h fd).putDirh true) := putDirh_ok hid hcount
    rw [reeFsChange, bind_of_ok hget, bind_of_error]
    simp [onError, hbody, hput]
  rcases getDirh_cases φ w with ⟨d, hd, hget⟩ | ⟨f, hd, hf, hget⟩ | ⟨hd, hf, hget⟩
  · exact hrun _ _ hget rfl (by simp [hd]) (by simp)
  · exact ⟨f.error, w.tick, by rw [reeFsChange, bind_of_error hget]⟩
  · exact hrun _ _ hget rfl rfl (by simp)

lemma reeFsChange_null (change : OpenFd.Run Unit) (iv : Bytes 16) (hf : w.files[i]? = some h)
    (hdir : ¬(w.dirh = none ∧ φ w.clock ≠ none))
    (hp : ∀ w' : World, change (w'.fdOf h) = .error (.panic .nullTree) (w'.fdOf h)) :
    ∃ w', reeFsChange φ C i change iv w = .error (.panic .nullTree) w' := by
  have hrun : ∀ dirh w', getDirh φ w = .ok dirh w' → w'.files = w.files →
      ∃ w', reeFsChange φ C i change iv w = .error (.panic .nullTree) w' := by
    intro dirh w' hget hfiles
    have hbody := bind_of_error (f := fun _ => do
      let h ← theFile i
      dirfileUpdateHash φ h.dfh
      commitDirhWrites φ)
      (onFile_error (hfiles ▸ hf) (bind_of_error (f := fun _ => OpenFd.sync φ C iv) (hp w')))
    refine ⟨w'.putFd i h (w'.fdOf h), ?_⟩
    rw [reeFsChange, bind_of_ok hget, bind_of_error]
    simp [onError, hbody]
  rcases getDirh_cases φ w with ⟨d, hd, hget⟩ | ⟨f, hd, hf, hget⟩ | ⟨hd, hf, hget⟩
  · exact hrun _ _ hget rfl
  · exact absurd ⟨hd, by simp [hf]⟩ hdir
  · exact hrun _ _ hget rfl

lemma reeFsChange_noDirh (hdir : w.dirh = none ∧ φ w.clock ≠ none) :
    ∃ e w', reeFsChange φ C i change iv w = .error (.code e) w' := by
  rcases getDirh_cases φ w with ⟨d, hd, -⟩ | ⟨f, -, -, hget⟩ | ⟨-, hf, -⟩
  · rw [hdir.1] at hd
    cases hd
  · exact ⟨_, _, by rw [reeFsChange, bind_of_error hget]⟩
  · exact absurd hf hdir.2

lemma writePrimitive_null (pos : ℕ) {buf : List UInt8} (ivs : ℕ → ℕ → Bytes 16) (fd : OpenFd) (hbuf : buf ≠ [])
    (hht : fd.ht = none) : OpenFd.writePrimitive φ C pos buf ivs fd = .error (.panic .nullTree) fd := by
  rw [OpenFd.writePrimitive, if_neg (by simpa using hbuf), bind_of_error (length_null _ hht)]

lemma readPrimitive_null (pos len : ℕ) (fd : OpenFd) (hht : fd.ht = none) :
    OpenFd.readPrimitive φ C pos len fd = .ok (0, []) fd ∨
      OpenFd.readPrimitive φ C pos len fd = .error (.panic .nullTree) fd := by
  by_cases hwrap : (pos + len) % 2 ^ 64 < len
  · refine .inl ?_
    have hremain : OpenFd.readRemain pos len fd = .ok 0 fd := by
      rw [OpenFd.readRemain, if_pos hwrap]
      rfl
    rw [OpenFd.readPrimitive, bind_of_ok hremain]
    rfl
  · refine .inr ?_
    have hremain : OpenFd.readRemain pos len fd = .error (.panic .nullTree) fd := by
      rw [OpenFd.readRemain, if_neg hwrap, bind_of_error (length_null _ hht)]
    rw [OpenFd.readPrimitive, bind_of_error hremain]

lemma exec_closed {c : Call} (hc : c.handle? = some i) (hf : w.files[i]? = some h) (hht : h.ht = none) :
    (∃ e w', c.exec φ C w = .error (.code e) w') ↔ c.Spared φ w := by
  have hnot : ∀ {x : EStateM.Result Stop World Unit} {w1}, x = .error (.panic .nullTree) w1 →
      ¬∃ e w', x = .error (.code e) w' := by
    rintro x w1 rfl ⟨e, w', he⟩
    cases he
  cases c with
  | read j pos len =>
    cases hc
    refine iff_of_false ?_ id
    rcases readPrimitive_null (φ := φ) (C := C) pos len (w.fdOf h) hht with hok | herr
    · rintro ⟨e, w', he⟩
      rw [Call.exec, reeFsRead, bind_of_ok (t := w.putFd i h (w.fdOf h)) (a := (0, []))
        (by simp [onFile, hf, zoom, hok])] at he
      cases he
    · exact hnot (by rw [Call.exec, reeFsRead, bind_of_error (onFile_error hf herr)])
  | write j pos buf ivs iv =>
    cases hc
    by_cases hdir : w.dirh = none ∧ φ w.clock ≠ none
    · exact iff_of_true (reeFsChange_noDirh hdir) (.inr hdir)
    by_cases hbuf : buf = []
    · refine iff_of_true (reeFsChange_error (e := .corruptObject) hf (fun w' _ => ⟨w'.fdOf h, ?_⟩)) (.inl hbuf)
      subst hbuf
      have hsync : OpenFd.sync φ C iv (w'.fdOf h) = .error (.code .corruptObject) (w'.fdOf h) := by
        simp [OpenFd.sync, World.fdOf, hht]
      exact hsync
    · refine iff_of_false ?_ (by rintro (h | h); exacts [hbuf h, hdir h])
      obtain ⟨w', hw'⟩ := reeFsChange_null _ iv hf hdir
        (fun w' => writePrimitive_null pos ivs (w'.fdOf h) hbuf hht)
      exact hnot hw'
  | truncate j len ivs iv =>
    cases hc
    by_cases hdir : w.dirh = none ∧ φ w.clock ≠ none
    · exact iff_of_true (reeFsChange_noDirh hdir) hdir
    · refine iff_of_false ?_ hdir
      obtain ⟨w', hw'⟩ := reeFsChange_null (OpenFd.ftruncateInternal φ C len ivs) iv hf hdir
        (fun w' => by rw [OpenFd.ftruncateInternal, bind_of_error (length_null (w'.fdOf h) hht)])
      exact hnot hw'
  | load _ | create _ _ _ | close _ | rename _ _ _ | remove _ | opendir _ | closedir _ | readdir _ | reboot => cases hc

end Failed

lemma safe_iff_permitted (hw : AllSane w.files) (c : Call) : c.Safe φ C w ↔ c.Permitted φ w := by
  have hclosed : ∀ {i} {h : OpenFile}, w.files[i]? = some h → h.failures ≠ [] → h.ht = none :=
    fun hf hne => (hw _ (List.mem_of_getElem? hf)).mpr hne
  constructor
  · intro hsafe i h hc hf
    by_cases hne : h.failures = []
    · exact .inl hne
    · exact .inr ((exec_closed hc hf (hclosed hf hne)).mp (hsafe.2 i h hc hf hne))
  · intro hperm
    refine ⟨fun w' hnull => ?_, fun i h hc hf hne => ?_⟩
    · by_cases hfailed : ∃ (i : ℕ) (h : OpenFile), c.handle? = some i ∧ w.files[i]? = some h ∧ h.failures ≠ []
      · obtain ⟨i, h, hc, hf, hne⟩ := hfailed
        obtain ⟨e, w1, he⟩ := (exec_closed hc hf (hclosed hf hne)).mpr ((hperm i h hc hf).resolve_left hne)
        rw [he] at hnull
        cases hnull
      · push Not at hfailed
        have hends := exec_files (φ := φ) (C := C) (fun _ => id) c hw (fun i hc =>
          ⟨hw, .inr fun h hf hht => (hw h (List.mem_of_getElem? hf)).mp hht (hfailed i h hc hf)⟩)
        rw [hnull] at hends
        exact hends.2 rfl
    · exact (exec_closed hc hf (hclosed hf hne)).mpr ((hperm i h hc hf).resolve_left hne)

def World.boot (s : HostStorage) (inodeCount : ℕ) : World := ⟨s, none, 0, [], [], 0, inodeCount, 0, [s], []⟩

theorem handle_safe_iff (φ : Faults) (C : Crypto) (s : HostStorage) (inodeCount : ℕ) (calls : List Call) :
    Along (World.step φ C) (fun w c => c.Safe φ C w) (World.boot s inodeCount) calls ↔
      Along (World.step φ C) (fun w c => c.Permitted φ w) (World.boot s inodeCount) calls := by
  have hboot : AllSane (World.boot s inodeCount).files := nofun
  constructor
  · intro h
    exact h.imp_of_invariant hboot (fun _ _ _ hw _ => step_sane hw)
      (fun w c hw => (safe_iff_permitted hw c).mp)
  · intro h
    exact h.imp_of_invariant hboot (fun _ _ _ hw _ => step_sane hw)
      (fun w c hw => (safe_iff_permitted hw c).mpr)

def panicOf : Except Panic World → Option Panic
  | .ok _ => none
  | .error a => some a

def toyStorage : HostStorage := ⟨none, fun _ => none, fun _ => HostFile.empty⟩

def toyCreation : Creation := ⟨[], [], [], zeroBytes 16, zeroBytes 16, fun _ _ _ => zeroBytes 16, zeroBytes 16⟩

def toyName : Name := ⟨zeroBytes 16, [1]⟩

def toyWrite (i : ℕ) : Call := .write i 0 [1] (fun _ _ => zeroBytes 16) (zeroBytes 16)

def noSpace : Faults := fun n => if n = 7 then some ⟨.storageNoSpace, 0⟩ else none

theorem read_after_failed_write :
    panicOf (run (World.step noSpace toyCrypto) (World.boot toyStorage 0)
      [.create toyName false toyCreation, toyWrite 0]) = none ∧
    panicOf (run (World.step noSpace toyCrypto) (World.boot toyStorage 0)
      [.create toyName false toyCreation, toyWrite 0, .read 0 0 1]) = some .nullTree := by
  decide +kernel

end Calls

end Optee.ReeFs
