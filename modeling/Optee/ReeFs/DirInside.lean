import Optee.ReeFs.DirSound
import Optee.ReeFs.SharedDirh

/-! Rules for the calls on the directory: `D` holds of the open handle, `S` of the committed entries, `F` of the
open files, and the calls stop only with `G`. -/

namespace Optee.ReeFs

open List

open FsHtree

variable {d : Dirh} {e : Stop} {oid : List UInt8}

lemma Dirh.Sound.find_tame (h : d.Sound) {uuid : Uuid} (hf : d.find uuid oid = .error e) : e.Tame := by
  by_cases hoid : oid = []
  · subst hoid
    obtain ⟨dfh, n, hok, -⟩ := d.find_free uuid
    rw [hok] at hf
    cases hf
  · rcases Dirh.find_error hoid hf with ⟨rfl, -⟩ | ⟨rfl, hlost⟩
    · simp
    · exact absurd hlost h.toNumbered.not_lostBit

lemma Dirh.Sound.rename_tame (h : d.Sound) {uuid : Uuid} {dfh : Fileh} (hf : d.rename uuid dfh oid = .error e) :
    e.Tame := by
  rcases Dirh.rename_error hf with rfl | ⟨rfl, hlost⟩
  · simp
  · exact absurd hlost h.toNumbered.not_lostBit

namespace Calls

open Lib.Effects

variable {φ : Faults} {C : Crypto} {α : Type} {D D' : Dirh → Prop} {S T : List Dirent → Prop}
  {F : List (ℕ × Option ℕ) → Prop} {G : Stop → Prop} {w : World} {R : Stop → World → Prop}

structure Recorded (call : DirCall) (d : Dirh) : Prop where
  numbered : d.Numbered
  names : call ≠ .rename true → NamesDistinct d.dents
  fresh : ∀ n creating, call = .getTmp n creating → n ∉ creating ∧ d.Reserved n

structure World.Kept (w : World) : Prop where
  trail : ∀ r ∈ w.trail, Recorded r.1 r.2
  storage : ∀ es, w.storage.dir = some es → Distinct es
  states : ∀ s ∈ w.states, ∀ es, s.dir = some es → Distinct es

variable {call : DirCall} {i : ℕ}

lemma World.Kept.record (h : w.Kept) (hr : Recorded call d) : (w.record call d).Kept where
  trail r hmem := by
    rcases mem_append.mp hmem with hmem | hmem
    · exact h.trail r hmem
    · rw [mem_singleton.mp hmem]
      exact hr
  storage := h.storage
  states := h.states

lemma World.Kept.store (h : w.Kept) {s : HostStorage} (hs : ∀ es, s.dir = some es → Distinct es) : (w.store s).Kept where
  trail := h.trail
  storage := hs
  states t ht := by
    rcases mem_append.mp ht with ht | ht
    · exact h.states t ht
    · rw [mem_singleton.mp ht]
      exact hs

def World.committed (w : World) : List Dirent := w.storage.dir.getD []

lemma World.Kept.distinct (h : w.Kept) : Distinct w.committed := by
  unfold World.committed
  cases hdir : w.storage.dir with
  | none => exact ⟨fun h => (by cases h.1), fun h => (by cases h.1)⟩
  | some es => exact h.storage es hdir

lemma World.Kept.loadDirh (h : w.Kept) : w.loadDirh.Kept := by
  have hload := Dirh.load_sound w.opened h.distinct.names
  have hk : ({ w with opened := w.opened + 1 } : World).Kept := ⟨h.trail, h.storage, h.states⟩
  refine World.Kept.record (hk.store ?_) ⟨hload.toNumbered, fun _ => hload.names, nofun⟩
  rintro es ⟨⟩
  exact h.distinct

def OpenFile.ident (h : OpenFile) : ℕ × Option ℕ := (h.dfh.fileNumber, h.dfh.idx)

def World.idents (w : World) : List (ℕ × Option ℕ) := w.files.map OpenFile.ident

structure Inside (D : Dirh → Prop) (S : List Dirent → Prop) (F : List (ℕ × Option ℕ) → Prop) (w : World) : Prop where
  kept : w.Kept
  dirh : ∀ d, w.dirh = some d → D d
  dir : S w.committed
  files : F w.idents

structure Broken (G : Stop → Prop) (S : List Dirent → Prop) (F : List (ℕ × Option ℕ) → Prop) (e : Stop) (w : World) :
    Prop where
  stop : G e
  kept : w.Kept
  code : ∀ c, e = .code c → S w.committed ∧ F w.idents

structure Failed (G : Stop → Prop) (I : World → Prop) (e : Stop) (w : World) : Prop where
  stop : G e
  kept : w.Kept
  code : ∀ c, e = .code c → I w

lemma Inside.mono {F' : List (ℕ × Option ℕ) → Prop} (h : Inside D S F w) (hD : ∀ d, D d → D' d)
    (hF : ∀ fs, F fs → F' fs) : Inside D' S F' w := ⟨h.kept, fun d hd => hD d (h.dirh d hd), h.dir, hF _ h.files⟩

lemma Inside.and_dirh {A : Dirh → Prop} (h : Inside D S F w) (hd : w.dirh = some d) (hA : A d) :
    Inside (fun d => D d ∧ A d) S F w := by
  refine ⟨h.kept, fun d' hd' => ?_, h.dir, h.files⟩
  rw [hd] at hd'
  cases hd'
  exact ⟨h.dirh d hd, hA⟩

lemma Inside.broken (h : Inside D S F w) (he : G e) : Broken G S F e w :=
  ⟨he, h.kept, fun _ _ => ⟨h.dir, h.files⟩⟩

lemma Inside.failed (h : Inside D S F w) (he : G e) : Failed G (Inside D S F) e w := ⟨he, h.kept, fun _ _ => h⟩

lemma Inside.tick (h : Inside D S F w) : Inside D S F w.tick := ⟨⟨h.kept.1, h.kept.2, h.kept.3⟩, h.dirh, h.dir, h.files⟩

lemma ident_putFd {h : OpenFile} (hf : w.files[i]? = some h) (fd : OpenFd) : (w.putFd i h fd).idents = w.idents := by
  obtain ⟨hlt, -⟩ := List.getElem?_eq_some_iff.mp hf
  refine ext_getElem? (fun m => ?_)
  change ((w.files.set i _).map OpenFile.ident)[m]? = (w.files.map OpenFile.ident)[m]?
  rw [getElem?_map, getElem?_map, getElem?_set]
  by_cases hm : i = m
  · subst hm
    rw [if_pos rfl, if_pos hlt, hf]
    rfl
  · rw [if_neg hm]

lemma Inside.putFd {h : OpenFile} (hw : Inside D S F w) (hf : w.files[i]? = some h) (fd : OpenFd) :
    Inside D S F (w.putFd i h fd) where
  kept :=
    { trail := hw.kept.trail
      storage := hw.kept.storage
      states := by
        intro s hs
        rcases mem_append.mp hs with hs | hs
        · exact hw.kept.states s hs
        · obtain ⟨f, -, rfl⟩ := mem_map.mp hs
          exact hw.kept.storage }
  dirh := hw.dirh
  dir := hw.dir
  files := by
    rw [ident_putFd hf]
    exact hw.files

lemma recorded_of_sound (h : d.Sound) (hcall : ∀ n creating, call ≠ .getTmp n creating) :
    Recorded call d := ⟨h.toNumbered, fun _ => h.names, fun n creating heq => absurd heq (hcall n creating)⟩

section Tame

variable (hG : ∀ e : Stop, e.Tame → G e) (hR : ∀ e w, G e → Inside D S F w → R e w)
include hG hR

lemma insideHost : HostRules (Inside D S F) R where
  stop e w he := hR e w (hG e he.tame)
  tick _ h := h.tick
  store _ _ hs h := by
    refine ⟨h.kept.store (fun es hes => h.kept.storage es (hs ▸ hes)), h.dirh, ?_, h.files⟩
    unfold World.committed
    rw [World.store, hs]
    exact h.dir
  inodeCount _ _ h := ⟨⟨h.kept.1, h.kept.2, h.kept.3⟩, h.dirh, h.dir, h.files⟩

lemma theDirh_inside : Spec (Inside D S F) theDirh (fun d w => Inside D S F w ∧ w.dirh = some d) R :=
  theDirh_spec (fun _ _ hw hd => ⟨hw, hd⟩) (fun w hw _ => hR _ w (hG _ (by simp)) hw)

lemma changeDirh_inside {A : α → Prop} {E : α → Dirh → Prop} {f : Dirh → Except Stop (Dirh × α)}
    (herr : ∀ d e, D d → f d = .error e → G e)
    (hf : ∀ d d' a, D d → f d = .ok (d', a) → A a ∧ E a d' ∧ Recorded call d') :
    Spec (Inside D S F) (changeDirh φ call f) (fun a w => A a ∧ Inside (E a) S F w) R := by
  refine changeDirh_spec (fun w hw _ => hR _ w (hG _ (by simp)) hw)
    (fun w d e hw hd he => hR e w (herr d e (hw.dirh d hd) he) hw)
    (fun w _ _ hw _ => hR _ _ (hG _ (tame_code _)) hw.tick) ?_
  intro w d d' a hw hd hok
  obtain ⟨hA, hD, hrec⟩ := hf d d' a (hw.dirh d hd) hok
  exact ⟨hA, hw.tick.kept.record hrec, fun d1 h1 => (Option.some.inj h1) ▸ hD, hw.dir, hw.files⟩

lemma onFile_inside {p : OpenFd.Run α} (hp : ∀ fd fd' e, p fd = .error e fd' → G e) :
    Preserves (Inside D S F) (onFile i p) R := by
  refine onFile_spec (fun w hw => hR _ w (hG _ (by simp)) hw) (fun w h hw hf => ?_)
  cases hx : p (w.fdOf h) with
  | ok a fd => exact hw.putFd hf fd
  | error e fd => exact hR e _ (hp _ _ _ hx) (hw.putFd hf fd)

lemma getDirh_inside (hload : ∀ n es, Distinct es → S es → D (Dirh.load n es)) :
    Preserves (Inside D S F) (getDirh φ) R := by
  intro w hw
  rcases getDirh_cases φ w with ⟨d, -, hget⟩ | ⟨f, -, -, hget⟩ | ⟨-, -, hget⟩
  · rw [hget]
    exact ⟨⟨hw.kept.1, hw.kept.2, hw.kept.3⟩, hw.dirh, hw.dir, hw.files⟩
  · rw [hget]
    exact hR _ _ (hG _ (tame_code _)) hw.tick
  · rw [hget]
    have hk : w.tick.loadDirh.Kept := World.Kept.loadDirh hw.tick.kept
    exact ⟨⟨hk.1, hk.2, hk.3⟩, fun d hd => (Option.some.inj hd) ▸ hload _ _ hw.kept.distinct hw.dir, hw.dir, hw.files⟩

lemma commitDirhWrites_inside (hsound : ∀ d, D d → d.Sound) (hT : ∀ d, D d → T d.dents) :
    Spec (Inside D S F) (commitDirhWrites φ)
      (fun _ w => ∃ es, T es ∧ Inside (fun d => d.Sound ∧ d.dents = es) (· = es) F w) R := by
  refine (theDirh_inside hG hR).bind (fun d => ?_)
  refine .bind (Q := fun _ w => Inside D S F w ∧ w.dirh = some d) (mayFail_spec ?_ ?_) (fun _ => .modify ?_)
  · rintro w ⟨hw, hd⟩
    exact ⟨hw.tick, hd⟩
  · rintro e w ⟨hw, -⟩
    exact hR _ _ (hG _ (tame_code _)) hw.tick
  · rintro w ⟨hw, hd⟩
    have hD := hw.dirh d hd
    have hrec : Recorded .commit d := recorded_of_sound (hsound d hD) fun _ _ h => by cases h
    refine ⟨d.dents, hT d hD, World.Kept.record (hw.kept.store ?_) hrec, ?_, rfl, hw.files⟩
    · rintro es ⟨⟩
      exact ⟨(hsound d hD).names, (hsound d hD).distinct⟩
    · rintro d' ⟨⟩
      exact ⟨hsound d hD, rfl⟩

lemma mapDirh_inside {f : Dirh → Except Stop Dirh} (hcall : ∀ n creating, call ≠ .getTmp n creating)
    (herr : ∀ d e, D d → f d = .error e → G e) (hD : ∀ d d', D d → f d = .ok d' → D' d' ∧ d'.Sound) :
    Spec (Inside D S F) (changeDirh φ call (fun d => (f d).map (·, ()))) (fun _ => Inside D' S F) R := by
  refine (changeDirh_inside (A := fun _ => True) hG hR (fun d e hd he => herr d e hd (map_unit_error he))
    (fun d d' a hd hf => ?_)).post (fun _ _ h => h.2)
  obtain ⟨hD', hsound⟩ := hD d d' hd (map_unit_ok hf)
  exact ⟨trivial, hD', recorded_of_sound hsound hcall⟩

lemma lookup_inside (name : Name) (herr : ∀ d e, D d → d.find name.uuid name.oid = .error e → G e) :
    Spec (Inside D S F) (lookup name)
      (fun dfh w => Inside D S F w ∧ ∃ d, w.dirh = some d ∧ D d ∧ d.find name.uuid name.oid = .ok dfh) R :=
  (theDirh_inside hG hR).bind (fun d => liftExcept_spec (fun _ w hw hf => ⟨hw.1, d, hw.2, hw.1.dirh d hw.2, hf⟩)
    (fun e w hw hf => hR e w (herr d e (hw.1.dirh d hw.2) hf) hw.1))

end Tame

def Found (name : Name) (r : Option Fileh) (d : Dirh) : Prop :=
  (∀ dfh, r = some dfh → d.find name.uuid name.oid = .ok dfh) ∧
    (r = none → ∃ c, d.find name.uuid name.oid = .error (.code c))

lemma lookup?_inside (hG : ∀ e : Stop, e.Tame → G e) (hR : ∀ a w, G (.panic a) → Inside D S F w → R (.panic a) w)
    (name : Name) (herr : ∀ d e, D d → d.find name.uuid name.oid = .error e → G e) :
    Spec (Inside D S F) (lookup? name) (fun r => Inside (fun d => D d ∧ Found name r d) S F) R := by
  refine .bind (Q := fun d w => Inside D S F w ∧ w.dirh = some d)
    (theDirh_spec (fun _ _ hw hd => ⟨hw, hd⟩) (fun w hw _ => hR _ w (hG _ (by simp)) hw)) (fun d => ?_)
  split
  · next hf => exact .pure (fun w hw => hw.1.and_dirh hw.2 ⟨by rintro _ ⟨⟩; exact hf, fun h => by cases h⟩)
  · next c hf => exact .pure (fun w hw => hw.1.and_dirh hw.2 ⟨(fun _ h => by cases h), fun _ => ⟨c, hf⟩⟩)
  next e hne hf =>
  refine .throw (fun w hw => ?_)
  have he := herr d e (hw.1.dirh d hw.2) hf
  cases e with
  | code c => exact absurd rfl (hne c)
  | panic a => exact hR a w he hw.1

section Ends

variable {I : World → Prop} (hG : ∀ e : Stop, e.Tame → G e)
include hG

lemma putDirhPrimitive_inside (close : Bool) :
    Preserves (Inside D S F) (putDirhPrimitive close) (Failed G I) := by
  intro w hw
  unfold putDirhPrimitive
  split_ifs
  · exact ⟨hG _ (by simp), hw.kept, nofun⟩
  · refine ⟨⟨hw.kept.1, hw.kept.2, hw.kept.3⟩, fun d hd => hw.dirh d ?_, hw.dir, hw.files⟩
    unfold World.putDirh at hd
    split_ifs at hd
    exact hd

lemma putDirh_inside (n : ℕ) (close : Bool) :
    Preserves (Inside D S F) (putDirh n close) (Failed G I) := by
  refine .bind (.get (fun _ hw => hw)) (fun w => ?_)
  split_ifs
  · exact putDirhPrimitive_inside hG close
  · exact .throw (fun _ hw => ⟨hG _ (by simp), hw.kept, nofun⟩)

lemma putDirh_closed (n : ℕ) (e : TeeError) :
    Spec (Broken G S F (.code e)) (putDirh n true) (fun _ => Inside D S F) (Failed G I) := by
  refine .bind (.get (fun _ hw => hw)) (fun w => ?_)
  split_ifs
  · intro w hw
    unfold putDirhPrimitive
    split_ifs
    · exact ⟨hG _ (by simp), hw.kept, fun _ h => by cases h⟩
    · obtain ⟨hdir, hfiles⟩ := hw.code e rfl
      refine ⟨⟨hw.kept.1, hw.kept.2, hw.kept.3⟩, fun d hd => ?_, hdir, hfiles⟩
      simp [World.putDirh] at hd
  · exact .throw (fun _ hw => ⟨hG _ (by simp), hw.kept, fun _ h => by cases h⟩)

lemma onError_closed {P : World → Prop} {p : Fs α} {Q : α → World → Prop} (n : ℕ) (hp : Spec P p Q (Broken G S F)) :
    Spec P (onError p (putDirh n true)) Q (Failed G (Inside D S F)) :=
  onError_spec hp (fun _ _ h => ⟨h.stop, h.kept, nofun⟩)
    (fun _ => (putDirh_closed hG n _).post (fun _ _ h => h.failed (hG _ (tame_code _))))

end Ends

end Calls

end Optee.ReeFs
