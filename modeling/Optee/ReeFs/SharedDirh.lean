import Optee.ReeFs.HandleSafety

/-! The directory handle that all calls share: its count of references and the streams that point to it. -/

namespace Optee.ReeFs.Calls

open FsHtree Lib.ByteStrings Lib.Effects Lib.Runs List

variable {φ : Faults} {C : Crypto} {α : Type} {n r k : ℕ} {ss : List DirStream} {w : World}

def Calm (e : Stop) : Prop := e ≠ .panic .sharedDirh ∧ e ≠ .panic .refcount

def Ended (D : World → Prop) (e : Stop) (w : World) : Prop := Calm e ∧ ∀ c, e = .code c → D w

lemma calm_of_ordinary {e : Stop} (h : e.Ordinary) : Calm e := by
  constructor
  · rintro rfl
    exact h.2.2 rfl
  · rintro rfl
    exact h.2.1 rfl

lemma Ended.code {D : World → Prop} {c : TeeError} (h : D w) : Ended D (.code c) w :=
  ⟨⟨nofun, nofun⟩, fun _ _ => h⟩

structure Held (n r k : ℕ) (ss : List DirStream) (w : World) : Prop where
  dirh : w.dirh.map Dirh.id = some n
  refcount : w.refcount = r
  files : w.files.length = k
  streams : w.streams = ss

structure Good (k : ℕ) (ss : List DirStream) (w : World) : Prop where
  refcount : w.refcount = k + ss.length
  files : w.files.length = k
  streams : w.streams = ss
  dirh : ∀ s ∈ ss, w.dirh.map Dirh.id = some s.dirh

structure Dropped (k : ℕ) (ss : List DirStream) (w : World) : Prop where
  refcount : w.refcount = k + ss.length
  files : w.files.length = k
  streams : w.streams = ss
  dirh : w.dirh = none

lemma heldHostRules : HostRules (Held n r k ss) (Ended (Held n r k ss)) where
  stop _ _ he hw := ⟨calm_of_ordinary he.ordinary, fun _ _ => hw⟩
  tick _ hw := ⟨hw.1, hw.2, hw.3, hw.4⟩
  store _ _ _ hw := ⟨hw.1, hw.2, hw.3, hw.4⟩
  inodeCount _ _ hw := ⟨hw.1, hw.2, hw.3, hw.4⟩

lemma heldDirRules : DirRules (Held n r k ss) (Ended (Held n r k ss)) where
  toRules := heldHostRules.toRules
  ordinary _ _ he hw := ⟨calm_of_ordinary he, fun _ _ => hw⟩
  noDirh w hd hw := by
    have h := hw.dirh
    rw [hd] at h
    cases h
  record w d d' call hd hid hw := by
    have h := hw.dirh
    rw [hd] at h
    exact ⟨by rw [← h]; exact congrArg some hid, hw.2, hw.3, hw.4⟩
  dir _ _ hw := ⟨hw.1, hw.2, hw.3, hw.4⟩

lemma getDirh_held :
    Spec (Good k ss) (getDirh φ) (fun n w => Held n (k + ss.length + 1) k ss w ∧ ∀ s ∈ ss, s.dirh = n)
      (Ended (fun w => Good k ss w ∧ Dropped k ss w)) := by
  intro w hw
  rcases getDirh_cases φ w with ⟨d, hd, hget⟩ | ⟨f, hd, -, hget⟩ | ⟨hd, -, hget⟩
  · rw [hget]
    refine ⟨⟨by simp [hd], by simp [hw.refcount], hw.files, hw.streams⟩, fun s hs => ?_⟩
    have h := hw.dirh s hs
    rw [hd] at h
    exact (Option.some.inj h).symm
  · rw [hget]
    have hgood : Good k ss w.tick := ⟨hw.1, hw.2, hw.3, hw.4⟩
    have hdropped : Dropped k ss w.tick := ⟨hgood.1, hgood.2, hgood.3, hd⟩
    exact Ended.code (D := fun w => Good k ss w ∧ Dropped k ss w) ⟨hgood, hdropped⟩
  · rw [hget]
    refine ⟨⟨rfl, by simp [hw.refcount], hw.files, hw.streams⟩, fun s hs => ?_⟩
    have h := hw.dirh s hs
    rw [hd] at h
    cases h

lemma World.putDirh_dirh (h : 1 < w.refcount) : (w.putDirh false).dirh = w.dirh := by
  have hne : ¬(w.refcount - 1 = 0 ∨ false = true) := by
    simp only [Bool.false_eq_true, or_false]
    omega
  exact if_neg hne

variable {R : Stop → World → Prop} {Q : α → World → Prop} {P : World → Prop}

lemma putDirh_keep (hss : ∀ s ∈ ss, s.dirh = n) :
    Spec (Held n (k + ss.length + 1) k ss) (putDirh n false) (fun _ => Good k ss) R := by
  intro w hw
  rw [putDirh_ok hw.dirh (by rw [hw.refcount]; omega)]
  refine ⟨by simp [World.putDirh, hw.refcount], hw.files, hw.streams, fun s hs => ?_⟩
  have hpos : 0 < ss.length := length_pos_of_mem hs
  rw [World.putDirh_dirh (by rw [hw.refcount]; omega), hw.dirh, hss s hs]

lemma putDirh_close : Spec (Held n (r + 1) k ss) (putDirh n true)
      (fun _ w => w.refcount = r ∧ w.files.length = k ∧ w.streams = ss ∧ w.dirh = none) R := by
  intro w hw
  rw [putDirh_ok hw.dirh (by rw [hw.refcount]; omega)]
  exact ⟨by simp [World.putDirh, hw.refcount], hw.files, hw.streams, by simp [World.putDirh]⟩

lemma onError_close {p : Fs α} (hp : Spec P p Q (Ended (Held n (k + ss.length + 1) k ss))) :
    Spec P (onError p (putDirh n true)) Q (Ended (Dropped k ss)) := by
  refine onError_spec hp (fun a w h => ⟨h.1, nofun⟩) (fun e => ?_)
  refine putDirh_close.mono (fun w h => h.2 e rfl) (fun _ w h => ?_) (fun _ _ => id)
  exact Ended.code ⟨h.1, h.2.1, h.2.2.1, h.2.2.2⟩

lemma onError_keep {p : Fs α} (hss : ∀ s ∈ ss, s.dirh = n) (hp : Spec P p Q (Ended (Held n (k + ss.length + 1) k ss))) :
    Spec P (onError p (putDirh n false)) Q (Ended (Good k ss)) := by
  refine onError_spec hp (fun a w h => ⟨h.1, nofun⟩) (fun e => ?_)
  exact (putDirh_keep hss).mono (fun w h => h.2 e rfl) (fun _ w h => Ended.code h) (fun _ _ => id)

lemma stable_calm : OpenFd.Stable φ (fun _ => True) (fun e _ => Calm e) :=
  OpenFd.stable_stops (fun _ he => calm_of_ordinary he.ordinary) ⟨nofun, nofun⟩

lemma onFile_held {i : ℕ} {p : OpenFd.Run α}
    (hp : ∀ {P : OpenFd → Prop} {R : Stop → OpenFd → Prop}, OpenFd.Stable φ P R → Preserves P p R) :
    Preserves (Held n r k ss) (onFile i p) (Ended (Held n r k ss)) := by
  have hput : ∀ w h fd, Held n r k ss w → Held n r k ss (w.putFd i h fd) := fun w h fd hw =>
    ⟨hw.1, hw.2, by rw [← hw.3]; exact length_set, hw.4⟩
  refine onFile_spec (fun w hw => ⟨⟨nofun, nofun⟩, nofun⟩) (fun w h hw _ => ?_)
  exact (hp stable_calm (w.fdOf h) trivial).mono (fun _ fd _ => hput w h fd hw) (fun _ fd he => ⟨he, fun _ _ => hput w h fd hw⟩)

lemma closingCall {body : Fs Unit}
    (hbody : ∀ n, Preserves (Held n (k + ss.length + 1) k ss) body
      (Ended (Held n (k + ss.length + 1) k ss))) :
    Preserves (Good k ss) (do
      let dirh ← getDirh φ
      onError body (putDirh dirh true)
      putDirh dirh false) (Ended (Dropped k ss)) := by
  refine .bind (getDirh_held.fails (fun _ _ h => ⟨h.1, fun c hc => (h.2 c hc).2⟩))
    (fun n w hw => ?_)
  exact Spec.bind (onError_close (hbody n)) (fun _ => putDirh_keep hw.2) w hw.1

lemma reeFsChange_good {i : ℕ} {change : OpenFd.Run Unit} {iv : Bytes 16}
    (hp : ∀ {P : OpenFd → Prop} {R : Stop → OpenFd → Prop}, OpenFd.Stable φ P R →
      Preserves P (do change; OpenFd.sync φ C iv) R) :
    Preserves (Good k ss) (reeFsChange φ C i change iv) (Ended (Dropped k ss)) := by
  refine closingCall (fun n => (onFile_held hp).bind (fun _ => (heldDirRules.theFile i).bind (fun h => ?_)))
  exact ((heldDirRules.dirfileUpdateHash h.dfh).of_imp (fun _ hw => hw.1)).bind (fun _ => heldDirRules.commitDirhWrites)

lemma reeFsRename_good (old new : Name) (overwrite : Bool) :
    Preserves (Good k ss) (reeFsRename φ old new overwrite) (Ended (Dropped k ss)) := by
  refine closingCall (fun n => ?_)
  have hd : DirRules (Held n (k + ss.length + 1) k ss) _ := heldDirRules
  refine (hd.lookup? new).bind (fun removed => ?_)
  split_ifs
  · exact hd.throw trivial
  · refine (hd.lookup old).bind (fun dfh => (hd.dirfileRename _ new dfh).bind (fun _ => ?_))
    exact (forOld_spec (fun dfh _ => hd.dirfileRemove dfh)).bind (fun _ => hd.commitDirhWrites.bind (fun _ =>
      forOld_spec (fun dfh _ => heldHostRules.rpcRemove _)))

lemma reeFsRemove_good (name : Name) :
    Preserves (Good k ss) (reeFsRemove φ name) (Ended (Dropped k ss)) := by
  refine closingCall (fun n => ?_)
  have hd : DirRules (Held n (k + ss.length + 1) k ss) _ := heldDirRules
  refine (hd.lookup name).bind (fun dfh => (hd.dirfileRemove dfh).bind (fun _ => hd.commitDirhWrites.bind (fun _ =>
    (heldHostRules.rpcRemove _).bind (fun _ => (hd.lookup? name).bind (fun found => ?_)))))
  split_ifs
  · exact hd.throw (by simp [Stop.Plain])
  · exact .pure (fun _ => id)

lemma createPrimitive_held (uuid : Uuid) (dfh : Fileh) (fek iv : Bytes 16) :
    Spec (Held n r k ss) (createPrimitive φ C uuid dfh fek iv) (fun i w => i = k ∧ Held n r (k + 1) ss w)
      (Ended (Held n r k ss)) := by
  have hh : HostRules (Held n r k ss) _ := heldHostRules
  refine .bind (Q := fun _ => Held n r k ss) ?_ (fun x => ?_)
  · refine onError_spec ((hh.rpcCreate _).bind (fun _ => (hh.createTree _ _ _ _).bind (fun _ => .pure (fun _ => id))))
      (fun a w h => h) (fun e => ?_)
    exact (hh.rpcRemove _).mono (fun w h => h.2 e rfl) (fun _ w h => Ended.code h) (fun _ _ => id)
  · refine .bind (Q := fun w' w => Held n r k ss w ∧ w' = w) (.get (fun _ hw => ⟨hw, rfl⟩)) (fun w' => ?_)
    rintro w ⟨hw, rfl⟩
    exact ⟨hw.files, hw.1, hw.2, by simp [hw.files], hw.4⟩

lemma setName_held (i : ℕ) (name : Name) (overwrite : Bool) :
    Preserves (Held n r k ss) (setName φ i name overwrite) (Ended (Held n r k ss)) := by
  have hd : DirRules (Held n r k ss) _ := heldDirRules
  refine (hd.lookup? name).bind (fun old => ?_)
  split_ifs
  · exact hd.throw trivial
  · refine (hd.theFile i).bind (fun h => ((hd.dirfileRename false name _).of_imp (fun _ hw => hw.1)).bind (fun dfh => ?_))
    refine .bind (.modify (fun w hw => ?_)) (fun _ => hd.commitDirhWrites.bind (fun _ =>
      forOld_spec (fun dfh _ => heldHostRules.rpcRemove _)))
    exact ⟨hw.1, hw.2, by simp [hw.files], hw.4⟩

lemma Held.good (h : Held n (k + ss.length) k ss w) (hss : ∀ s ∈ ss, s.dirh = n) : Good k ss w :=
  ⟨h.refcount, h.files, h.streams, fun s hs => by rw [h.dirh, hss s hs]⟩

lemma droppedHostRules : HostRules (Dropped k ss) (Ended (Dropped k ss)) where
  stop _ _ he hw := ⟨calm_of_ordinary he.ordinary, fun _ _ => hw⟩
  tick _ hw := ⟨hw.1, hw.2, hw.3, hw.4⟩
  store _ _ _ hw := ⟨hw.1, hw.2, hw.3, hw.4⟩
  inodeCount _ _ hw := ⟨hw.1, hw.2, hw.3, hw.4⟩

lemma createCleanup_dropped (fileNumber : ℕ) :
    Spec (Held n (k + ss.length + 1) (k + 1) ss) (do
      putDirh n true
      closePrimitive k
      rpcRemove φ fileNumber) (fun _ => Dropped k ss) (Ended (Dropped k ss)) := by
  refine putDirh_close.bind (fun _ => .bind (.modify ?_) (fun _ =>
    droppedHostRules.rpcRemove fileNumber))
  rintro w ⟨hcount, hfiles, hstreams, hdirh⟩
  refine ⟨hcount, ?_, hstreams, hdirh⟩
  rw [length_eraseIdx_of_lt (by omega), hfiles, Nat.add_sub_cancel]

lemma reeFsCreate_good (name : Name) (overwrite : Bool) (c : Creation) :
    Spec (Good k ss) (reeFsCreate φ C name overwrite c) (fun _ => Good (k + 1) ss) (Ended (Dropped k ss)) := by
  refine .bind (getDirh_held.fails (fun _ _ h => ⟨h.1, fun c hc => (h.2 c hc).2⟩))
    (fun n w hw => ?_)
  refine Spec.bind (onError_close heldDirRules.dirfileGetTmp) (fun dfh => ?_) w hw.1
  refine Spec.bind (onError_close (createPrimitive_held name.uuid dfh c.fek c.iv)) (fun i w' hi => ?_)
  obtain ⟨rfl, hheld⟩ := hi
  refine onError_spec (T := Ended (Held n (i + ss.length + 1) (i + 1) ss)) ?_ (fun a w h => ⟨h.1, nofun⟩) (fun e => ?_)
    w' hheld
  · refine .bind (onFile_held (φ := φ) (fun h => ?_)) (fun _ =>
      (setName_held i name overwrite).post (fun _ _ h => Held.good (by rwa [Nat.add_right_comm]) hw.2))
    exact (h.writePrimitive _ _ _).bind (fun _ => (h.writePrimitive _ _ _).bind (fun _ =>
      (h.writePrimitive _ _ _).bind (fun _ => h.sync _)))
  · exact (createCleanup_dropped dfh.fileNumber).mono (fun _ h => h.2 e rfl) (fun _ _ h => Ended.code h) (fun _ _ => id)

lemma openPrimitive_held (uuid : Uuid) (dfh : Fileh) :
    Spec (Held n r k ss) (openPrimitive φ C uuid dfh) (fun _ => Held n r (k + 1) ss) (Ended (Held n r k ss)) := by
  have hr : Rules (Held n r k ss) _ := heldHostRules.toRules
  refine .bind (.get (fun _ hw => hw)) (fun w => ?_)
  split
  · exact hr.throw trivial
  · refine hr.mayFail.bind (fun _ => ?_)
    split
    · exact hr.throw (Stop.plain_ofError _)
    · exact .modify (fun w hw => ⟨hw.1, hw.2, by simp [hw.files], hw.4⟩)

lemma reeFsOpen_good (name : Name) :
    Spec (Good k ss) (reeFsOpen φ C name) (fun _ => Good (k + 1) ss) (Ended (Good k ss)) := by
  refine .bind (getDirh_held.fails (fun _ _ h => ⟨h.1, fun c hc => (h.2 c hc).1⟩))
    (fun n w hw => ?_)
  refine onError_keep hw.2 (.bind (heldDirRules.lookup name) (fun dfh => ?_)) w hw.1
  refine notFoundIsCorrupt_spec ((openPrimitive_held name.uuid dfh).post (fun _ _ h => ?_)) (fun c _ _ h => Ended.code (h.2 c rfl))
  exact Held.good (by rwa [Nat.add_right_comm] at h) hw.2

lemma reeFsClose_good (i : ℕ) :
    Spec (Good k ss) (reeFsClose i) (fun _ => Good (k - 1) ss) (Ended (fun _ => False)) := by
  intro w hw
  cases hf : w.files[i]? with
  | none =>
    rw [reeFsClose, bind_of_error (e := .panic .noHandle) (t := w) (by simp only [theFile, hf])]
    exact ⟨⟨nofun, nofun⟩, nofun⟩
  | some h =>
    have hlt : i < w.files.length := (List.getElem?_eq_some_iff.mp hf).1
    have hpos : w.refcount ≠ 0 := by
      rw [hw.refcount]
      have := hw.files
      omega
    rw [reeFsClose, bind_of_ok (a := h) (t := w) (by simp only [theFile, hf]),
      bind_of_ok (by rw [putDirhPrimitive, if_neg hpos])]
    have hk : 1 ≤ k := by
      have := hw.files
      omega
    have hcount := hw.refcount
    refine ⟨by change w.refcount - 1 = _; omega, ?_, hw.streams, fun s hs => ?_⟩
    · change (w.files.eraseIdx i).length = _
      rw [length_eraseIdx_of_lt hlt, hw.files]
    · have hpos : 0 < ss.length := length_pos_of_mem hs
      rw [World.putDirh_dirh (by omega)]
      exact hw.dirh s hs

lemma reeFsOpendir_good (uuid : Uuid) :
    Spec (Good k ss) (reeFsOpendir φ uuid) (fun _ w => ∃ ss', Good k ss' w) (Ended (Good k ss)) := by
  refine .bind (getDirh_held.fails (fun _ _ h => ⟨h.1, fun c hc => (h.2 c hc).1⟩))
    (fun n w hw => ?_)
  have hd : DirRules (Held n (k + ss.length + 1) k ss) _ := heldDirRules
  refine Spec.bind (Q := fun _ => Held n (k + ss.length + 1) k ss) (onError_keep hw.2 (hd.theDirh.bind (fun d => ?_)))
    (fun _ => .modify (fun w' hw' => ?_)) w hw.1
  · refine ((hd.liftExcept (fun _ he => ?_)).of_imp (fun _ hw => hw.1)).bind (fun _ => Spec.pure (fun _ hw => hw))
    rw [Dirh.getNext_error he]
    trivial
  · refine ⟨ss ++ [⟨n, uuid, none⟩], by simp [hw'.refcount]; omega, hw'.files, by simp [hw'.streams], fun s hs => ?_⟩
    rw [hw'.dirh]
    rcases mem_append.mp hs with hs | hs
    · rw [hw.2 s hs]
    · rw [mem_singleton.mp hs]

lemma theStream_cases (w : World) (j : ℕ) :
    (∃ s, w.streams[j]? = some s ∧ theStream j w = .ok s w) ∨ theStream j w = .error (.panic .noHandle) w := by
  unfold theStream
  cases hs : w.streams[j]? with
  | none => exact .inr rfl
  | some s => exact .inl ⟨s, rfl, rfl⟩

lemma reeFsClosedir_good (j : ℕ) :
    Spec (Good k ss) (reeFsClosedir j) (fun _ w => ∃ ss', Good k ss' w) (Ended (fun _ => False)) := by
  intro w hw
  rcases theStream_cases w j with ⟨s, hs, hok⟩ | herr
  · rw [hw.streams] at hs
    obtain ⟨hlt, -⟩ := List.getElem?_eq_some_iff.mp hs
    have hcount := hw.refcount
    rw [reeFsClosedir, bind_of_ok hok, bind_of_ok (putDirh_ok (hw.dirh s (mem_of_getElem? hs)) (by omega))]
    have hlen := length_eraseIdx_of_lt hlt
    refine ⟨ss.eraseIdx j, by change w.refcount - 1 = _; omega, hw.files, congrArg (·.eraseIdx j) hw.streams, fun x hx => ?_⟩
    have hpos : 0 < (ss.eraseIdx j).length := length_pos_of_mem hx
    rw [World.putDirh_dirh (by omega)]
    exact hw.dirh x (mem_of_mem_eraseIdx hx)
  · rw [reeFsClosedir, bind_of_error herr]
    exact ⟨⟨nofun, nofun⟩, nofun⟩

lemma reeFsReaddir_good (j : ℕ) :
    Spec (Good k ss) (reeFsReaddir j) (fun _ w => ∃ ss', Good k ss' w) (Ended (Good k ss)) := by
  intro w hw
  rcases theStream_cases w j with ⟨s, hs, hok⟩ | herr
  · have hid : w.dirh.map Dirh.id = some s.dirh := by
      rw [hw.streams] at hs
      exact hw.dirh s (mem_of_getElem? hs)
    obtain ⟨d, hd, -⟩ := Option.map_eq_some_iff.mp hid
    rw [reeFsReaddir, bind_of_ok hok, bind_get, if_neg (not_not_intro hid),
      bind_of_ok (a := d) (t := w) (by simp only [theDirh, hd])]
    cases hnext : d.getNext s.uuid s.idx with
    | error e =>
      rw [Dirh.getNext_error hnext]
      exact Ended.code hw
    | ok r =>
      refine ⟨ss.modify j (fun s => { s with idx := some r.1 }), ?_, hw.files, ?_, ?_⟩
      · rw [length_modify]
        exact hw.refcount
      · exact congrArg (List.modify · j (fun s => { s with idx := some r.1 })) hw.streams
      · intro x hx
        obtain ⟨m, hm, rfl⟩ := mem_iff_getElem.mp hx
        rw [length_modify] at hm
        rw [getElem_modify]
        split_ifs
        · exact hw.dirh ss[m] (getElem_mem hm)
        · exact hw.dirh _ (getElem_mem hm)
  · rw [reeFsReaddir, bind_of_error herr]
    exact ⟨⟨nofun, nofun⟩, nofun⟩

lemma reeFsRead_good (i pos len : ℕ) :
    Preserves (Good k ss) (reeFsRead φ C i pos len) (Ended (Good k ss)) := by
  have hput : ∀ w h fd, Good k ss w → Good k ss (w.putFd i h fd) := fun w h fd hw =>
    ⟨hw.1, by rw [← hw.2]; exact length_set, hw.3, hw.4⟩
  refine onFile_spec (fun w hw => ⟨⟨nofun, nofun⟩, nofun⟩) (fun w h hw _ => ?_)
  exact (stable_calm.readPrimitive pos len (w.fdOf h) trivial).mono (fun _ fd _ => hput w h fd hw)
    (fun _ fd he => ⟨he, fun _ _ => hput w h fd hw⟩)

structure World.Valid (w : World) : Prop where
  refcount : w.refcount = w.files.length + w.streams.length
  streams : ∀ s ∈ w.streams, w.dirh.map Dirh.id = some s.dirh

lemma World.Valid.good (h : w.Valid) : Good w.files.length w.streams w := ⟨h.refcount, rfl, rfl, h.streams⟩

lemma Good.valid (h : Good k ss w) : w.Valid :=
  ⟨by rw [h.refcount, h.files, h.streams], by rw [h.streams]; exact h.dirh⟩

def Call.closing : Call → Bool
  | .create _ _ _ => true
  | .write _ _ _ _ _ => true
  | .truncate _ _ _ _ => true
  | .rename _ _ _ => true
  | .remove _ => true
  | _ => false

def Call.Left (c : Call) (ss : List DirStream) (w : World) : Prop :=
  if c.closing then w.refcount = w.files.length + w.streams.length ∧ w.streams = ss ∧ w.dirh = none else w.Valid

lemma exec_valid (c : Call) (hw : w.Valid) :
    Ends (fun _ w' => w'.Valid) (Ended (c.Left w.streams)) (c.exec φ C w) := by
  have hopen : ∀ {p : Fs Unit} {Q : Unit → World → Prop} {D : World → Prop}, Ends Q (Ended D) (p w) →
      (∀ u w', Q u w' → w'.Valid) → (∀ w', D w' → c.Left w.streams w') →
      Ends (fun _ w' => w'.Valid) (Ended (c.Left w.streams)) (p w) :=
    fun h hQ hD => h.mono hQ (fun _ w' he => ⟨he.1, fun x hx => hD w' (he.2 x hx)⟩)
  have hdropped : ∀ w', Dropped w.files.length w.streams w' →
      w'.refcount = w'.files.length + w'.streams.length ∧ w'.streams = w.streams ∧ w'.dirh = none :=
    fun w' h => ⟨by rw [h.refcount, h.files, h.streams], h.streams, h.dirh⟩
  cases c with
  | load name => exact hopen (reeFsOpen_good name w hw.good) (fun _ _ h => h.valid) (fun _ h => h.valid)
  | create name overwrite c => exact hopen (reeFsCreate_good name overwrite c w hw.good) (fun _ _ h => h.valid) hdropped
  | close i => exact hopen (reeFsClose_good i w hw.good) (fun _ _ h => h.valid) nofun
  | read i pos len =>
    have hread : Preserves (Good w.files.length w.streams) (Call.exec φ C (.read i pos len)) (Ended (Good w.files.length w.streams)) :=
      (reeFsRead_good i pos len).bind (fun _ => .pure (fun _ h => h))
    exact hopen (hread w hw.good) (fun _ _ h => h.valid) (fun _ h => h.valid)
  | write i pos buf ivs iv =>
    exact hopen (reeFsChange_good (written_stable pos buf ivs iv) w hw.good) (fun _ _ h => h.valid) hdropped
  | truncate i len ivs iv =>
    exact hopen (reeFsChange_good (truncated_stable len ivs iv) w hw.good) (fun _ _ h => h.valid) hdropped
  | rename old new overwrite =>
    exact hopen (reeFsRename_good old new overwrite w hw.good) (fun _ _ h => h.valid) hdropped
  | remove name => exact hopen (reeFsRemove_good name w hw.good) (fun _ _ h => h.valid) hdropped
  | opendir uuid =>
    exact hopen (reeFsOpendir_good uuid w hw.good) (fun _ _ ⟨_, h⟩ => h.valid) (fun _ h => h.valid)
  | closedir j => exact hopen (reeFsClosedir_good j w hw.good) (fun _ _ ⟨_, h⟩ => h.valid) nofun
  | readdir j =>
    exact hopen (Q := fun _ w' => ∃ ss', Good w.files.length ss' w')
      ((reeFsReaddir_good j).bind (fun _ => .pure (fun _ h => h)) w hw.good) (fun _ _ ⟨_, h⟩ => h.valid)
      (fun _ h => h.valid)
  | reboot => exact ⟨rfl, nofun⟩

/-- The call leaves a valid world, and neither of the assertions on the shared handle fails in it. -/
def Call.Sound (φ : Faults) (C : Crypto) (w : World) (c : Call) : Prop :=
  (∀ a w', c.exec φ C w = .error (.panic a) w' → a ≠ .sharedDirh ∧ a ≠ .refcount) ∧
    ∀ w', World.step φ C w c = .ok w' → w'.Valid

def Call.Lenient (φ : Faults) (C : Crypto) (w : World) (c : Call) : Prop :=
  w.streams = [] ∨ c.closing = false ∨ ∀ e w', c.exec φ C w ≠ .error (.code e) w'

lemma sound_iff_lenient (hw : w.Valid) (c : Call) : c.Sound φ C w ↔ c.Lenient φ C w := by
  have hends := exec_valid (φ := φ) (C := C) c hw
  unfold Call.Sound Call.Lenient World.step
  cases hx : c.exec φ C w with
  | ok u w1 =>
    rw [hx] at hends
    refine iff_of_true ⟨nofun, ?_⟩ (.inr (.inr nofun))
    rintro w' ⟨⟩
    exact hends
  | error e w1 =>
    rw [hx] at hends
    obtain ⟨hcalm, hleft⟩ := hends
    cases e with
    | panic a =>
      refine iff_of_true ⟨?_, nofun⟩ (.inr (.inr nofun))
      rintro b w' ⟨⟩
      exact ⟨fun h => hcalm.1 (congrArg Stop.panic h), fun h => hcalm.2 (congrArg Stop.panic h)⟩
    | code e =>
      replace hleft := hleft e rfl
      unfold Call.Left at hleft
      constructor
      · rintro ⟨-, hvalid⟩
        by_cases hc : c.closing = true
        · rw [if_pos hc] at hleft
          refine .inl (eq_nil_iff_forall_not_mem.mpr (fun s hs => ?_))
          have hid := (hvalid w1 rfl).streams s (by rwa [hleft.2.1])
          rw [hleft.2.2] at hid
          cases hid
        · exact .inr (.inl (by simpa using hc))
      · intro hlenient
        refine ⟨nofun, ?_⟩
        rintro w' ⟨⟩
        rcases hlenient with hnil | hc | hnot
        · split_ifs at hleft with hc
          · exact ⟨hleft.1, by rw [hleft.2.1, hnil]; nofun⟩
          · exact hleft
        · rw [if_neg (by simp [hc])] at hleft
          exact hleft
        · exact absurd rfl (hnot e w1)

theorem shared_dirh_valid_iff (φ : Faults) (C : Crypto) (s : HostStorage) (inodeCount : ℕ) (calls : List Call) :
    Along (World.step φ C) (fun w c => w.Valid ∧ c.Sound φ C w) (World.boot s inodeCount) calls ↔
      Along (World.step φ C) (fun w c => c.Lenient φ C w) (World.boot s inodeCount) calls := by
  have hboot : (World.boot s inodeCount).Valid := ⟨rfl, nofun⟩
  constructor
  · intro h
    exact h.mono (fun w c hw => (sound_iff_lenient hw.1 c).mp hw.2)
  · intro h
    exact h.imp_of_invariant hboot
      (fun w c w' hw hc => ((sound_iff_lenient hw c).mpr hc).2 w')
      (fun w c hw hc => ⟨hw, (sound_iff_lenient hw c).mpr hc⟩)

def conflictUnderStream : List Call :=
  [.create toyName false toyCreation, .opendir (zeroBytes 16), .create toyName false toyCreation]

theorem stream_outlives_dirh :
    panicOf (run (World.step (fun _ => none) toyCrypto) (World.boot toyStorage 0) conflictUnderStream) = none ∧
    panicOf (run (World.step (fun _ => none) toyCrypto) (World.boot toyStorage 0)
      (conflictUnderStream ++ [.readdir 0])) = some .sharedDirh ∧
    panicOf (run (World.step (fun _ => none) toyCrypto) (World.boot toyStorage 0)
      (conflictUnderStream ++ [.closedir 0])) = some .sharedDirh := by
  decide +kernel

end Optee.ReeFs.Calls
