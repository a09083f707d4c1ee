import Optee.ReeFs.Calls

/-! Rules for the parts the calls are made of. -/

namespace Optee.ReeFs.Calls

open FsHtree Lib.ByteStrings Lib.Effects

variable {α : Type} {φ : Faults} {C : Crypto} {P : World → Prop} {p : Fs α} {Q : α → World → Prop}
  {R : Stop → World → Prop} {T : Stop → World → Prop} {x : Except Stop Dirh} {f : Dirh → Except Stop (Dirh × α)}

lemma onError_spec {cleanup : Fs Unit} (hp : Spec P p Q T) (hpanic : ∀ a w, T (.panic a) w → R (.panic a) w)
    (hc : ∀ e, Spec (T (.code e)) cleanup (fun _ w => R (.code e) w) R) : Spec P (onError p cleanup) Q R := by
  intro w hw
  have h := hp w hw
  unfold onError
  cases hx : p w with
  | ok a w' =>
    rw [hx] at h
    exact h
  | error e w' =>
    rw [hx] at h
    cases e with
    | panic a => exact hpanic a w' h
    | code e =>
      have h' := hc e w' h
      dsimp only
      cases hy : cleanup w' with
      | ok u w'' | error e' w'' =>
        rw [hy] at h'
        exact h'

lemma liftExcept_spec {x : Except Stop α} (hok : ∀ a w, P w → x = .ok a → Q a w)
    (herr : ∀ e w, P w → x = .error e → R e w) : Spec P (liftExcept x) Q R := by
  intro w hw
  cases hx : x with
  | ok a => exact hok a w hw hx
  | error e => exact herr e w hw hx

lemma mayFail_spec {Q : Unit → World → Prop} (hok : ∀ w, P w → Q () w.tick) (herr : ∀ e w, P w → R (.code e) w.tick) :
    Spec P (mayFail φ) Q R := by
  intro w hw
  unfold mayFail
  cases φ w.clock with
  | none => exact hok w hw
  | some f => exact herr f.error w hw

lemma theDirh_spec {Q : Dirh → World → Prop} (hok : ∀ d w, P w → w.dirh = some d → Q d w)
    (herr : ∀ w, P w → w.dirh = none → R (.panic .sharedDirh) w) : Spec P theDirh Q R := by
  intro w hw
  unfold theDirh
  cases hd : w.dirh with
  | none => exact herr w hw hd
  | some d => exact hok d w hw hd

lemma map_unit_ok {d : Dirh} {a : Unit} (h : x.map (·, ()) = .ok (d, a)) : x = .ok d := by
  cases x with
  | error e => cases h
  | ok d' =>
    cases h
    rfl

lemma map_unit_error {e : Stop} (h : x.map (·, ()) = .error e) : x = .error e := by
  cases x with
  | ok d => cases h
  | error e' =>
    cases h
    rfl

structure Rules (P : World → Prop) (R : Stop → World → Prop) : Prop where
  stop : ∀ e w, e.Plain → P w → R e w
  tick : ∀ w, P w → P w.tick

structure HostRules (P : World → Prop) (R : Stop → World → Prop) : Prop extends Rules P R where
  store : ∀ w s, s.dir = w.storage.dir → P w → P (w.store s)
  inodeCount : ∀ w n, P w → P { w with inodeCount := n }

namespace Rules

variable (h : Rules P R)
include h

lemma mayFail : Preserves P (mayFail φ) R :=
  mayFail_spec h.tick (fun _ w hw => h.stop _ _ trivial (h.tick w hw))

lemma liftExcept {x : Except Stop α} (hx : ∀ e, x = .error e → e.Plain) : Preserves P (liftExcept x) R :=
  liftExcept_spec (fun _ _ hw _ => hw) (fun e w hw he => h.stop e w (hx e he) hw)

lemma throw {e : Stop} (he : e.Plain) : Spec P (throw e : Fs α) Q R := Spec.throw (fun w => h.stop e w he)

lemma theFile (i : ℕ) : Spec P (theFile i) (fun h w => P w ∧ w.files[i]? = some h) R := by
  intro w hw
  unfold Calls.theFile
  cases hf : w.files[i]? with
  | none => exact h.stop _ _ (by simp [Stop.Plain]) hw
  | some x => exact ⟨hw, hf⟩

lemma theStream (j : ℕ) : Spec P (theStream j) (fun s w => P w ∧ w.streams[j]? = some s) R := by
  intro w hw
  unfold Calls.theStream
  cases hf : w.streams[j]? with
  | none => exact h.stop _ _ (by simp [Stop.Plain]) hw
  | some x => exact ⟨hw, hf⟩

end Rules

lemma notFoundIsCorrupt_spec (hp : Spec P p Q R) (hcode : ∀ c c' w, R (.code c) w → R (.code c') w) :
    Spec P (notFoundIsCorrupt p) Q R := by
  intro w hw
  have h := hp w hw
  unfold Calls.notFoundIsCorrupt
  split
  · next hx =>
    rw [hx] at h
    exact hcode _ _ _ h
  · exact h

lemma forOld_spec {old : Option Fileh} {f : Fileh → Fs Unit} (hf : ∀ dfh, old = some dfh → Preserves P (f dfh) R) :
    Preserves P (forOld old f) R := by
  cases old with
  | none => exact .pure (fun _ => id)
  | some dfh => exact hf dfh rfl

namespace HostRules

variable (h : HostRules P R)
include h

lemma rpcRemove (n : ℕ) : Preserves P (rpcRemove φ n) T := by
  intro w hw
  unfold Calls.rpcRemove
  cases φ w.clock with
  | none => exact h.store w.tick _ rfl (h.tick w hw)
  | some f => exact h.tick w hw

lemma writeInode (inode : ℕ) (ws : List (HostWrite blockSize)) : Preserves P (writeInode inode ws) R := by
  refine .modify (fun w hw => ?_)
  induction ws generalizing w with
  | nil => exact hw
  | cons x ws ih => exact ih _ (h.store w _ rfl hw)

lemma rpcCreate (n : ℕ) : Preserves P (rpcCreate φ n) R := by
  refine h.mayFail.bind (fun _ => .bind (Q := fun _ => P) (.get (fun _ => id)) (fun _ =>
    .bind (Q := fun _ => P) (.modify (fun w hw => ?_)) (fun _ => .pure (fun _ => id))))
  refine h.store _ _ ?_ (h.inodeCount w _ hw)
  rfl

lemma createTree (uuid : Uuid) (inode : ℕ) (fek iv : Bytes 16) :
    Preserves P (createTree φ C uuid inode fek iv) R := by
  unfold Calls.createTree
  split
  · exact h.throw (Stop.plain_ofError _)
  · refine .bind (Q := fun _ => P) (.get (fun _ => id)) (fun w => ?_)
    split
    · exact (Spec.modify h.tick).bind (fun _ => (h.writeInode _ _).bind (fun _ => h.throw trivial))
    · exact (Spec.modify h.tick).bind (fun _ => (h.writeInode _ _).bind (fun _ => Spec.pure (fun _ => id)))

end HostRules

lemma changeDirh_spec {call : DirCall} (hnone : ∀ w, P w → w.dirh = none → R (.panic .sharedDirh) w)
    (herr : ∀ w d e, P w → w.dirh = some d → f d = .error e → R e w)
    (hfault : ∀ w d e, P w → w.dirh = some d → R (.code e) w.tick)
    (hok : ∀ w d d' a, P w → w.dirh = some d → f d = .ok (d', a) → Q a (w.tick.record call d')) :
    Spec P (changeDirh φ call f) Q R := by
  refine .bind (theDirh_spec (Q := fun d w => P w ∧ w.dirh = some d) (fun _ _ hw hd => ⟨hw, hd⟩) hnone) (fun d => ?_)
  refine .bind (Q := fun r w => (P w ∧ w.dirh = some d) ∧ f d = .ok r)
    (liftExcept_spec (fun r w hw hf => ⟨hw, hf⟩) (fun e w hw hf => herr w d e hw.1 hw.2 hf)) (fun r => ?_)
  refine .bind (mayFail_spec ?_ ?_) (fun _ =>
    .bind (.modify (fun _ hw => hw)) (fun _ => .pure (fun _ => id)))
  · rintro w ⟨⟨hw, hd⟩, hf⟩
    exact hok w d r.1 r.2 hw hd hf
  · rintro e w ⟨⟨hw, hd⟩, -⟩
    exact hfault w d e hw hd

structure LookRules (P : World → Prop) (R : Stop → World → Prop) : Prop extends Rules P R where
  ordinary : ∀ e w, e.Ordinary → P w → R e w
  noDirh : ∀ w, w.dirh = none → P w → R (.panic .sharedDirh) w

structure DirRules (P : World → Prop) (R : Stop → World → Prop) : Prop extends LookRules P R where
  record : ∀ w d d' call, w.dirh = some d → d'.id = d.id → P w → P (w.record call d')
  dir : ∀ w dir, P w → P (w.store { w.storage with dir })

namespace LookRules

variable (h : LookRules P R)
include h

lemma theDirh : Spec P theDirh (fun d w => P w ∧ w.dirh = some d) R :=
  theDirh_spec (fun _ _ hw hd => ⟨hw, hd⟩) (fun w hw hd => h.noDirh w hd hw)

lemma lookup_find (name : Name) :
    Spec P (lookup name) (fun dfh w => P w ∧ ∃ d, w.dirh = some d ∧ d.find name.uuid name.oid = .ok dfh) R :=
  h.theDirh.bind (fun d => liftExcept_spec (fun _ _ hw hf => ⟨hw.1, d, hw.2, hf⟩)
    (fun e w hw hf => h.ordinary e w (Dirh.find_ordinary hf) hw.1))

lemma lookup?_find (name : Name) :
    Spec P (lookup? name) (fun r w => P w ∧ ∃ d, w.dirh = some d ∧
      (∀ dfh, r = some dfh → d.find name.uuid name.oid = .ok dfh) ∧
      (r = none → ∃ c, d.find name.uuid name.oid = .error (.code c))) R := by
  refine h.theDirh.bind (fun d => ?_)
  split
  · next hf => exact .pure (fun w hw => ⟨hw.1, d, hw.2, by rintro _ ⟨⟩; exact hf, nofun⟩)
  · next c hf => exact .pure (fun w hw => ⟨hw.1, d, hw.2, nofun, fun _ => ⟨c, hf⟩⟩)
  · next e _ hf => exact .throw (fun w hw => h.ordinary e w (Dirh.find_ordinary hf) hw.1)

lemma lookup (name : Name) : Preserves P (lookup name) R := (h.lookup_find name).post (fun _ _ hw => hw.1)

lemma lookup? (name : Name) : Preserves P (lookup? name) R := (h.lookup?_find name).post (fun _ _ hw => hw.1)

end LookRules

namespace DirRules

variable (h : DirRules P R)
include h

lemma changeDirh {call : DirCall} (hid : ∀ d d' a, f d = .ok (d', a) → d'.id = d.id)
    (herr : ∀ d e, f d = .error e → e.Ordinary) : Preserves P (changeDirh φ call f) R :=
  changeDirh_spec (fun w hw hd => h.noDirh w hd hw) (fun w d e hw _ hf => h.ordinary e w (herr d e hf) hw)
    (fun w _ _ hw _ => h.stop _ _ trivial (h.tick w hw))
    (fun w d d' a hw hd hf => h.record w.tick d d' call hd (hid d d' a hf) (h.tick w hw))

lemma dirfileGetTmp : Preserves P (dirfileGetTmp φ) R := by
  refine h.theDirh.bind (fun d => ?_)
  refine .bind (Q := fun _ w => P w ∧ w.dirh = some d) ?_ (fun _ => ?_)
  · unfold maybeGrowFiles
    split_ifs
    · exact .pure (fun _ => id)
    · exact mayFail_spec (fun w hw => ⟨h.tick w hw.1, hw.2⟩)
        (fun _ w hw => h.stop _ _ trivial (h.tick w hw.1))
  · refine .bind (Q := fun _ => P) (.modify (fun w hw => ?_)) (fun _ => .pure (fun _ => id))
    exact h.record w d d.getTmp _ hw.2 rfl hw.1

lemma dirfileRename (pending : Bool) (name : Name) (dfh : Fileh) :
    Preserves P (dirfileRename φ pending name dfh) R := by
  refine h.changeDirh (fun d d' a hf => ?_) (fun d e hf => ?_)
  · obtain ⟨-, n, rfl, -⟩ := Dirh.rename_ok hf
    rfl
  · rcases Dirh.rename_error hf with rfl | ⟨rfl, -⟩
    · trivial
    · simp [Stop.Ordinary]

lemma dirfileRemove (dfh : Fileh) : Preserves P (dirfileRemove φ dfh) R := by
  refine h.changeDirh (fun d d' a hf => ?_) (fun d e hf => ?_)
  · obtain ⟨n, x, -, ⟨-, rfl⟩ | ⟨-, rfl⟩⟩ := Dirh.remove_ok (map_unit_ok hf)
    · rfl
    · rfl
  · rcases Dirh.remove_error (map_unit_error hf) with ⟨rfl, -⟩ | ⟨n, x, -, -, ⟨rfl, -⟩ | ⟨rfl, -⟩⟩
    · trivial
    · simp [Stop.Ordinary]
    · simp [Stop.Ordinary]

lemma dirfileUpdateHash (dfh : Fileh) : Preserves P (dirfileUpdateHash φ dfh) R := by
  refine h.changeDirh (fun d d' a hf => ?_) (fun d e hf => ?_)
  · obtain ⟨n, x, -, -, rfl⟩ := Dirh.updateHash_ok (map_unit_ok hf)
    rfl
  · rcases Dirh.updateHash_error (map_unit_error hf) with ⟨rfl, -⟩ | ⟨n, x, -, ⟨rfl, -⟩ | ⟨rfl, -⟩⟩
    · trivial
    · simp [Stop.Ordinary]
    · simp [Stop.Ordinary]

lemma commitDirhWrites : Preserves P (commitDirhWrites φ) R := by
  refine h.theDirh.bind (fun d => ?_)
  refine .bind (Q := fun _ w => P w ∧ w.dirh = some d) (mayFail_spec ?_ ?_) (fun _ => .modify ?_)
  · rintro w ⟨hw, hd⟩
    exact ⟨h.tick w hw, hd⟩
  · rintro f w ⟨hw, -⟩
    exact h.stop _ _ trivial (h.tick w hw)
  · rintro w ⟨hw, hd⟩
    exact h.record _ d d .commit hd rfl (h.dir w _ hw)

end DirRules

end Optee.ReeFs.Calls
