import Optee.ReeFs.DirEffects

/-! What holds of the directory file after every call on it. -/

namespace Optee.ReeFs.Calls

open FsHtree Lib.ByteStrings Lib.Effects Lib.Runs List

variable {φ : Faults} {C : Crypto} {α : Type} {w : World} {es : List Dirent} {fs : List (ℕ × Option ℕ)}

def Idle (w : World) : Prop := ∃ es fs, Complete fs ∧ Steady es fs w

def Call.Named : Call → Prop
  | .rename old _ _ => old.oid ≠ []
  | _ => True

variable {f : ℕ × Option ℕ}

lemma Complete.append (h : Complete fs) (hf : f.2 ≠ none) : Complete (fs ++ [f]) := by
  intro f' hf'
  rcases mem_append.mp hf' with hf' | hf'
  · exact h f' hf'
  · rw [mem_singleton.mp hf']
    exact hf

lemma Opened.idx_ne {name : Name} (h : Opened es name f) : f.2 ≠ none := by
  rcases h with ⟨-, hf⟩ | ⟨k, x, -, rfl⟩
  · exact hf
  · exact Option.some_ne_none k

lemma exec_idle {c : Call} (hc : c.Named) : Preserves Idle (c.exec φ C) (Failed (fun _ => True) Idle) := by
  have hG : ∀ e : Stop, e.Tame → True := fun _ _ => trivial
  refine Spec.exists (fun es => Spec.exists (fun fs => .and_left (fun hfs => ?_)))
  have hfailed : ∀ e w, Failed (fun _ => True) (Steady es fs) e w → Failed (fun _ => True) Idle e w :=
    fun e w h => ⟨h.stop, h.kept, fun c hc => ⟨es, fs, hfs, h.code c hc⟩⟩
  have hsame : ∀ {p : Fs Unit}, Preserves (Steady es fs) p (Failed (fun _ => True) (Steady es fs)) →
      Spec (Steady es fs) p (fun _ => Idle) (Failed (fun _ => True) Idle) :=
    fun hp => hp.ends (fun _ w h => ⟨es, fs, hfs, h⟩) hfailed
  have hfiles : ∀ {p : Fs Unit} {T : List Dirent → Prop}, Spec (Steady es fs) p (fun _ w => ∃ es', T es' ∧ Steady es' fs w)
      (Failed (fun _ => True) (Steady es fs)) → Spec (Steady es fs) p (fun _ => Idle) (Failed (fun _ => True) Idle) :=
    fun hp => hp.ends (fun _ w ⟨es', _, h⟩ => ⟨es', fs, hfs, h⟩) hfailed
  cases c with
  | load name =>
    exact (reeFsOpen_steady hG name).ends (fun _ w ⟨f, hf, h⟩ => ⟨es, _, hfs.append hf.idx_ne, h⟩) hfailed
  | create name overwrite c =>
    exact (reeFsCreate_steady hG hfs name overwrite c).ends
      (fun _ w ⟨es', n, k, _, h⟩ => ⟨es', _, hfs.append (Option.some_ne_none k), h⟩) hfailed
  | close i =>
    exact (reeFsClose_steady hG i).ends
      (fun _ w h => ⟨es, _, fun f hf => hfs f (mem_of_mem_eraseIdx hf), h⟩) hfailed
  | read i pos len => exact hsame ((reeFsRead_steady hG i pos len).bind (fun _ => .pure (fun _ => id)))
  | write i pos buf ivs iv =>
    exact hfiles (reeFsChange_steady hG (written_stable pos buf ivs iv) (.inl (fun _ => trivial)))
  | truncate i len ivs iv =>
    exact hfiles (reeFsChange_steady hG (truncated_stable len ivs iv) (.inl (fun _ => trivial)))
  | rename old new overwrite => exact hfiles (reeFsRename_steady hG hc new overwrite)
  | remove name => exact hfiles (reeFsRemove_steady hG name)
  | opendir uuid => exact hsame (reeFsOpendir_steady hG uuid)
  | closedir j => exact hsame (reeFsClosedir_steady hG j)
  | readdir j => exact hsame ((reeFsReaddir_steady hG j).bind (fun _ => .pure (fun _ => id)))
  | reboot =>
    exact .modify (fun w hw => ⟨es, [], nofun, ⟨hw.kept.1, hw.kept.2, hw.kept.3⟩, nofun, hw.dir, rfl⟩)

def finalWorld : EStateM.Result Stop World α → World
  | .ok _ w => w
  | .error _ w => w

lemma kept_of_ends {r : EStateM.Result Stop World Unit} (h : Ends (fun _ => Idle) (Failed (fun _ => True) Idle) r) :
    (finalWorld r).Kept := by
  cases r with
  | ok a w =>
    obtain ⟨es, fs, -, hw⟩ := h
    exact hw.kept
  | error e w => exact h.kept

lemma step_idle {w' : World} {c : Call} (hw : Idle w) (hc : c.Named) (h : World.step φ C w c = .ok w') : Idle w' := by
  have hends := exec_idle (φ := φ) (C := C) hc w hw
  unfold World.step at h
  cases hx : c.exec φ C w with
  | ok u w1 =>
    rw [hx] at h hends
    cases h
    exact hends
  | error e w1 =>
    rw [hx] at h hends
    cases e with
    | code e =>
      cases h
      exact hends.code e rfl
    | panic a => cases h

theorem directory_invariant (φ : Faults) (C : Crypto) (s : HostStorage) (inodeCount : ℕ)
    (hs : ∀ es, s.dir = some es → Distinct es) (calls : List Call) (hcalls : ∀ c ∈ calls, c.Named) :
    Along (World.step φ C) (fun w c => (∀ d, w.dirh = some d → d.Sound) ∧ (finalWorld (c.exec φ C w)).Kept)
      (World.boot s inodeCount) calls := by
  have hboot : Idle (World.boot s inodeCount) :=
    ⟨_, [], nofun, ⟨nofun, hs, by simpa [World.boot] using hs⟩, nofun, rfl, rfl⟩
  have halong : Along (World.step φ C) (fun _ c => c.Named) (World.boot s inodeCount) calls :=
    Along.of_mem (fun c hc _ => hcalls c hc)
  refine halong.imp_of_invariant hboot (fun w c w' hw hc => step_idle hw hc)
    (fun w c hw hc => ?_)
  refine ⟨fun d hd => ?_, kept_of_ends (exec_idle hc w hw)⟩
  obtain ⟨es, fs, -, hsteady⟩ := hw
  exact (hsteady.dirh d hd).1

def otherName : Name := ⟨zeroBytes 16, [2]⟩

def renameOver : List Call :=
  [.create toyName false toyCreation, .create otherName false toyCreation, .rename toyName otherName true]

theorem directory_invariant_rename :
    Along (World.step (fun _ => none) toyCrypto)
      (fun w c => (∀ d, w.dirh = some d → d.Sound) ∧ (finalWorld (c.exec (fun _ => none) toyCrypto w)).Kept)
      (World.boot toyStorage 0) renameOver :=
  directory_invariant (fun _ => none) toyCrypto toyStorage 0 nofun renameOver (by simp [renameOver, Call.Named, toyName])

def trailOf : Except Panic World → List (List Dirent)
  | .ok w => w.trail.map (fun r => r.2.dents)
  | .error _ => []

theorem rename_over_duplicate :
    ∃ es ∈ trailOf (run (World.step (fun _ => none) toyCrypto) (World.boot toyStorage 0) renameOver), ¬NamesDistinct es := by
  have hnames : [(zeroBytes 16, [2]), (zeroBytes 16, [2])] ∈
      (trailOf (run (World.step (fun _ => none) toyCrypto) (World.boot toyStorage 0) renameOver)).map
        (List.map (fun x => (x.uuid, x.oid))) := by
    decide +kernel
  obtain ⟨es, hmem, hes⟩ := mem_map.mp hnames
  refine ⟨es, hmem, fun hdistinct => ?_⟩
  obtain ⟨x, es', rfl, hx, hes'⟩ := map_eq_cons_iff.mp hes
  obtain ⟨y, rfl, hy⟩ := map_eq_singleton_iff.mp hes'
  obtain ⟨hxu, hxo⟩ := Prod.mk.inj hx
  obtain ⟨hyu, hyo⟩ := Prod.mk.inj hy
  have h01 : 0 = 1 := hdistinct ⟨rfl, by rw [hxo]; exact cons_ne_nil _ _⟩
    ⟨rfl, by rw [hyo]; exact cons_ne_nil _ _⟩ (hxu.trans hyu.symm) (hxo.trans hyo.symm)
  cases h01

end Optee.ReeFs.Calls
