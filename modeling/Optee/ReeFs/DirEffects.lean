import Optee.ReeFs.DirInside

/-! What each call leaves of the committed entries and of the open files. -/

namespace Optee.ReeFs

open FsHtree Lib.ByteStrings Option List

variable {es es' : List Dirent} {fs : List (ℕ × Option ℕ)} {d d' : Dirh} {dfh dfh' : Fileh}

def Wrote (es : List Dirent) (k : ℕ) (z : Dirent) (es' : List Dirent) : Prop :=
  ∀ m, es'[m]? = if m = k then some z else es[m]?

lemma Dirh.wrote_writeDent {k : ℕ} (hk : k ≤ d.dents.length) (z : Dirent) : Wrote d.dents k z (d.writeDent k z).dents :=
  fun m => Dirh.getElem?_writeDent hk z m

namespace Calls

structure EntryAt (es : List Dirent) (k : ℕ) (name : Name) (x : Dirent) : Prop where
  entry : es[k]? = some x
  uuid : x.uuid = name.uuid
  oid : x.oid = name.oid

variable {name : Name}

lemma EntryAt.name_eq {k : ℕ} {x y : Dirent} {name' : Name} (hx : EntryAt es k name x) (hy : EntryAt es k name' y) :
    name = name' := by
  obtain rfl : x = y := Option.some.inj (hx.entry.symm.trans hy.entry)
  cases name
  obtain ⟨-, hxu, hxo⟩ := hx
  obtain ⟨-, hyu, hyo⟩ := hy
  dsimp only at hxu hxo hyu hyo
  rw [← hxu, ← hxo, hyu, hyo]

def Unnamed (es : List Dirent) (name : Name) : Prop := ∀ k x, ¬EntryAt es k name x

def Hashed (es : List Dirent) (fs : List (ℕ × Option ℕ)) (i : ℕ) (es' : List Dirent) : Prop :=
  ∃ k x hash, fs[i]? = some (x.fileNumber, some k) ∧ es[k]? = some x ∧ Wrote es k { x with hash } es'

def Removed (es : List Dirent) (name : Name) (es' : List Dirent) : Prop :=
  name.oid = [] ∧ es' = es ∨ ∃ k x, EntryAt es k name x ∧ Wrote es k Dirent.zero es'

def RenamedTo (es : List Dirent) (old new : Name) (overwrite : Bool) (es' : List Dirent) : Prop :=
  ∃ o x es₁, new.oid ≠ [] ∧ EntryAt es o old x ∧ Wrote es o ⟨new.uuid, new.oid, x.hash, x.fileNumber⟩ es₁ ∧
    (Unnamed es new ∧ es' = es₁ ∨ overwrite = true ∧ ∃ r y, EntryAt es r new y ∧ Wrote es₁ r Dirent.zero es')

structure Created (es : List Dirent) (name : Name) (overwrite : Bool) (n k : ℕ) (es' : List Dirent) : Prop where
  oid : name.oid ≠ []
  wrote : ∃ hash, Wrote es k ⟨name.uuid, name.oid, hash, n⟩ es'
  fresh : ∀ m x, LiveAt es m x → x.fileNumber ≠ n
  place : overwrite = true ∧ (∃ x, EntryAt es k name x) ∨ (∀ x, ¬LiveAt es k x) ∧ Unnamed es name

def Opened (es : List Dirent) (name : Name) (f : ℕ × Option ℕ) : Prop :=
  name.oid = [] ∧ f.2 ≠ none ∨ ∃ k x, EntryAt es k name x ∧ f = (x.fileNumber, some k)

def Owned (es : List Dirent) (fs : List (ℕ × Option ℕ)) (i : ℕ) : Prop :=
  ∀ f, fs[i]? = some f → ∃ k x, f = (x.fileNumber, some k) ∧ LiveAt es k x

lemma Found.entryAt {r : Fileh} (h : Found name (some r) d) (hoid : name.oid ≠ []) :
    ∃ k x, EntryAt d.dents k name x ∧ r = ⟨x.fileNumber, x.hash, some k⟩ := by
  obtain ⟨k, x, hx, hu, ho, -, hr⟩ := Dirh.find_ok hoid (h.1 r rfl)
  exact ⟨k, x, ⟨hx, hu, ho⟩, hr⟩

lemma Found.unnamed (h : Found name none d) (hoid : name.oid ≠ []) : Unnamed d.dents name := by
  obtain ⟨c, hc⟩ := h.2 rfl
  rcases Dirh.find_error hoid hc with ⟨-, hnew⟩ | ⟨he, -⟩
  · exact fun k x hx => hnew k ⟨x, hx.entry, hx.uuid, hx.oid⟩
  · cases he

lemma remove_tame {e : Stop} (hfind : d.find name.uuid name.oid = .ok dfh) (he : d.remove dfh = .error e) : e.Tame := by
  rcases Dirh.remove_error he with ⟨rfl, -⟩ | ⟨n, x, hx, hlive, herr⟩
  · simp
  have hoid : name.oid ≠ [] := by
    intro hoid
    rw [hoid] at hfind
    obtain ⟨dfh', m, hok, hidx, -, hfree⟩ := d.find_free name.uuid
    rw [hok] at hfind
    cases hfind
    rw [hx.1] at hidx
    cases hidx
    exact hlive (hfree x hx.2)
  obtain ⟨m, y, hy, -, -, hbit, rfl⟩ := Dirh.find_ok hoid hfind
  obtain ⟨hm, hxy⟩ := hx
  cases hm
  rw [hy] at hxy
  cases hxy
  rcases herr with ⟨-, hne⟩ | ⟨-, hclear⟩
  · exact absurd rfl hne
  · rw [hbit] at hclear
    cases hclear

lemma removed_of_remove (hfind : d.find name.uuid name.oid = .ok dfh) (hr : d.remove dfh = .ok d') :
    Removed d.dents name d'.dents := by
  obtain ⟨n, x, ⟨hidx, hx⟩, hcases⟩ := Dirh.remove_ok hr
  by_cases hoid : name.oid = []
  · rw [hoid] at hfind
    obtain ⟨dfh', m, hok, hm, -, hfree⟩ := d.find_free name.uuid
    rw [hok] at hfind
    cases hfind
    rw [hidx] at hm
    cases hm
    rcases hcases with ⟨-, rfl⟩ | ⟨hlive, -⟩
    · exact .inl ⟨hoid, rfl⟩
    · exact absurd (hfree x hx) hlive
  · obtain ⟨m, y, hy, hyu, hyo, -, rfl⟩ := Dirh.find_ok hoid hfind
    cases hidx
    rw [hy] at hx
    cases hx
    rcases hcases with ⟨hfree, -⟩ | ⟨-, rfl⟩
    · exact absurd (hyo.symm.trans hfree) hoid
    · exact .inr ⟨n, x, ⟨hy, hyu, hyo⟩, Dirh.wrote_writeDent (List.getElem?_eq_some_iff.mp hy).1.le _⟩

structure Moved (es : List Dirent) (old new : Name) (removed : Option Fileh) (d : Dirh) : Prop where
  oid : new.oid ≠ []
  source : ∃ o x, EntryAt es o old x ∧ Wrote es o ⟨new.uuid, new.oid, x.hash, x.fileNumber⟩ d.dents
  sound : removed = none → d.Sound ∧ Unnamed es new
  tame : ∀ r e, removed = some r → d.remove r = .error e → e.Tame
  cleared : ∀ r d', removed = some r → d.remove r = .ok d' →
    d'.Sound ∧ ∃ k y, EntryAt es k new y ∧ Wrote d.dents k Dirent.zero d'.dents

section Moved

variable {old new : Name} {o k : ℕ} {x y : Dirent} (h : d.Sound) (hnew : new.oid ≠ [])
  (hx : EntryAt d.dents o old x)
include h hnew hx

lemma getElem?_moved (hy : EntryAt d.dents k new y) :
    ∃ z, (d.writeDent o ⟨new.uuid, new.oid, x.hash, x.fileNumber⟩).dents[k]? = some z ∧ z.oid ≠ [] ∧
      z.fileNumber = y.fileNumber ∧ d.testFile y.fileNumber = true := by
  have hlen : o ≤ d.dents.length := (List.getElem?_eq_some_iff.mp hx.entry).1.le
  have hbit := h.bits ⟨hy.entry, by rw [hy.oid]; exact hnew⟩
  by_cases hk : k = o
  · subst hk
    obtain rfl : x = y := Option.some.inj (hx.entry.symm.trans hy.entry)
    exact ⟨⟨new.uuid, new.oid, x.hash, x.fileNumber⟩, by rw [Dirh.getElem?_writeDent hlen, if_pos rfl], hnew, rfl, hbit⟩
  · exact ⟨y, by rw [Dirh.getElem?_writeDent hlen, if_neg hk, hy.entry], by rw [hy.oid]; exact hnew, rfl, hbit⟩

lemma moved_tame {e : Stop} (hy : EntryAt d.dents k new y)
    (he : (d.writeDent o ⟨new.uuid, new.oid, x.hash, x.fileNumber⟩).remove ⟨y.fileNumber, y.hash, some k⟩ = .error e) :
    e.Tame := by
  obtain ⟨z, hz, -, hnum, hbit⟩ := getElem?_moved h hnew hx hy
  rcases Dirh.remove_error he with ⟨rfl, -⟩ | ⟨n, v, ⟨hn, hv⟩, -, herr⟩
  · simp
  cases hn
  rw [hz] at hv
  cases hv
  rcases herr with ⟨-, hne⟩ | ⟨-, hclear⟩
  · exact absurd hnum hne
  · rw [hnum] at hclear
    exact absurd (hbit.symm.trans hclear) (by decide)

lemma moved_cleared (hold : old.oid ≠ []) (hy : EntryAt d.dents k new y)
    (hr : (d.writeDent o ⟨new.uuid, new.oid, x.hash, x.fileNumber⟩).remove ⟨y.fileNumber, y.hash, some k⟩ = .ok d') :
    d'.Sound ∧ Wrote (d.writeDent o ⟨new.uuid, new.oid, x.hash, x.fileNumber⟩).dents k Dirent.zero d'.dents := by
  obtain ⟨z, hz, hzo, -⟩ := getElem?_moved h hnew hx hy
  obtain ⟨n, v, ⟨hn, hv⟩, hcases⟩ := Dirh.remove_ok hr
  cases hn
  rw [hz] at hv
  cases hv
  rcases hcases with ⟨hfree, -⟩ | ⟨-, rfl⟩
  · exact absurd hfree hzo
  · refine ⟨h.rename_remove (z := ⟨new.uuid, new.oid, x.hash, x.fileNumber⟩) ⟨hx.entry, by rw [hx.oid]; exact hold⟩ rfl hnew
      ⟨y, hy.entry, hy.uuid, hy.oid⟩ ⟨hz, hzo⟩, ?_⟩
    exact Dirh.wrote_writeDent (List.getElem?_eq_some_iff.mp hz).1.le _

end Moved

lemma moved_of_rename {old new : Name} {removed : Option Fileh} (h : d.Sound) (hold : old.oid ≠ [])
    (hfound : Found new removed d) (hfind : d.find old.uuid old.oid = .ok dfh)
    (hren : d.rename new.uuid dfh new.oid = .ok (d', dfh')) :
    Moved d.dents old new removed d' ∧ Recorded (.rename removed.isSome) d' := by
  obtain ⟨o, x, hxd, hxu, hxo, -, rfl⟩ := Dirh.find_ok hold hfind
  have hx : EntryAt d.dents o old x := ⟨hxd, hxu, hxo⟩
  have hlive : LiveAt d.dents o x := ⟨hxd, by rw [hxo]; exact hold⟩
  obtain ⟨hnew, n, rfl, -, hn⟩ := Dirh.rename_ok hren
  obtain rfl : o = n := by
    rcases hn with hn | ⟨hn, -⟩
    · exact Option.some.inj hn
    · cases hn
  have hlen : o ≤ d.dents.length := (List.getElem?_eq_some_iff.mp hxd).1.le
  cases removed with
  | none =>
    have hunnamed := hfound.unnamed hnew
    have hsound := h.rename (z := ⟨new.uuid, new.oid, x.hash, x.fileNumber⟩) hlive rfl
      (fun m _ ⟨y, hy, hyu, hyo⟩ => hunnamed m y ⟨hy, hyu, hyo⟩)
    exact ⟨⟨hnew, ⟨o, x, hx, Dirh.wrote_writeDent hlen _⟩, fun _ => ⟨hsound, hunnamed⟩, nofun, nofun⟩,
      recorded_of_sound hsound nofun⟩
  | some r =>
    have hnum := h.numbered_rename (z := ⟨new.uuid, new.oid, x.hash, x.fileNumber⟩) hlive rfl
    obtain ⟨k, y, hy, rfl⟩ := hfound.entryAt hnew
    refine ⟨⟨hnew, ⟨o, x, hx, Dirh.wrote_writeDent hlen _⟩, nofun, ?_, ?_⟩, hnum, fun hc => absurd rfl hc, nofun⟩
    · rintro _ e ⟨⟩ he
      exact moved_tame h hnew hx hy he
    · rintro _ d' ⟨⟩ hr
      obtain ⟨hsound, hwrote⟩ := moved_cleared h hnew hx hold hy hr
      exact ⟨hsound, k, y, hy, hwrote⟩

lemma created_of_rename {old : Option Fileh} {overwrite : Bool} (h : d.Sound) (hres : d.Reserved dfh.fileNumber)
    (hfound : Found name old d) (hold : ¬(!overwrite && old.isSome) = true)
    (hren : d.rename name.uuid { dfh with idx := old.bind Fileh.idx } name.oid = .ok (d', dfh')) :
    d'.Sound ∧ ∃ k, dfh'.idx = some k ∧ dfh'.fileNumber = dfh.fileNumber ∧
      Created d.dents name overwrite dfh.fileNumber k d'.dents := by
  obtain ⟨hoid, k, rfl, rfl, hk⟩ := Dirh.rename_ok hren
  have hplace : d.Placed k name.uuid name.oid ∧ (overwrite = true ∧ (∃ x, EntryAt d.dents k name x) ∨
      (∀ x, ¬LiveAt d.dents k x) ∧ Unnamed d.dents name) := by
    cases old with
    | none =>
      rcases hk with hk | ⟨-, hk⟩
      · cases hk
      have hunnamed := hfound.unnamed hoid
      refine ⟨hk, .inr ⟨fun x hx => ?_, hunnamed⟩⟩
      rcases hk with ⟨y, hy, hyu, hyo⟩ | ⟨⟨-, hfree⟩, -⟩
      · exact hunnamed k y ⟨hy, hyu, hyo⟩
      · exact hx.2 (hfree x hx.1)
    | some r =>
      obtain ⟨m, x, hx, rfl⟩ := hfound.entryAt hoid
      rcases hk with hk | ⟨hk, -⟩
      · cases hk
        exact ⟨.over ⟨x, hx.entry, hx.uuid, hx.oid⟩, .inl ⟨by simpa using hold, x, hx⟩⟩
      · cases hk
  have hlen : k ≤ d.dents.length := by
    rcases hplace.1 with ⟨x, hx, -⟩ | ⟨hfree, -⟩
    · exact (List.getElem?_eq_some_iff.mp hx).1.le
    · exact hfree.1
  refine ⟨h.name hres hplace.1 hoid, k, rfl, rfl, hoid, ?_, ?_, hplace.2⟩
  · exact ⟨dfh.hash, Dirh.wrote_writeDent hlen _⟩
  · exact fun m x hx => hres.unused hx

def Complete (fs : List (ℕ × Option ℕ)) : Prop := ∀ f ∈ fs, f.2 ≠ none

lemma creating_eq_nil {w : World} (h : Complete w.idents) : w.creating = [] := by
  unfold World.creating
  rw [map_eq_nil_iff, filter_eq_nil_iff]
  intro x hx
  have hidx := h (OpenFile.ident x) (mem_map_of_mem hx)
  simpa [isNone_iff_eq_none, OpenFile.ident] using hidx

lemma modify_concat_length {β : Type} (l : List β) (a : β) (f : β → β) : (l ++ [a]).modify l.length f = l ++ [f a] := by
  induction l with
  | nil => rfl
  | cons x l ih => simp [ih]

open Lib.Effects

variable {φ : Faults} {C : Crypto} {G : Stop → Prop} {α : Type}

abbrev Steady (es : List Dirent) (fs : List (ℕ × Option ℕ)) : World → Prop :=
  Inside (fun d => d.Sound ∧ d.dents = es) (· = es) (· = fs)

lemma load_steady (n : ℕ) (es' : List Dirent) (h : Distinct es') (heq : es' = es) :
    (Dirh.load n es').Sound ∧ (Dirh.load n es').dents = es :=
  ⟨Dirh.load_sound n h.names, (Dirh.openDents_dents h.numbers fun _ => rfl).trans heq⟩

section Calls

variable (hG : ∀ e : Stop, e.Tame → G e)
include hG

lemma closingCall_steady {body : Fs Unit} {T : List Dirent → Prop}
    (hbody : Spec (Steady es fs) body (fun _ w => ∃ es', T es' ∧ Steady es' fs w) (Broken G (· = es) (· = fs))) :
    Spec (Steady es fs) (do
      let dirh ← getDirh φ
      onError body (putDirh dirh true)
      putDirh dirh false) (fun _ w => ∃ es', T es' ∧ Steady es' fs w) (Failed G (Steady es fs)) := by
  refine (getDirh_inside hG (fun e w he h => h.failed he) load_steady).bind (fun n => ?_)
  refine (onError_closed hG n hbody).bind (fun _ => Spec.exists (fun es' => .and_left (fun hT => ?_)))
  exact (putDirh_inside hG n false).post (fun _ w h => ⟨es', hT, h⟩)

lemma tame_of_stable {p : OpenFd.Run α}
    (hp : ∀ {P : OpenFd → Prop} {R : Stop → OpenFd → Prop}, OpenFd.Stable φ P R → Preserves P p R)
    (fd fd' : OpenFd) (e : Stop) (h : p fd = .error e fd') : G e := by
  have hends := hp (OpenFd.stable_stops (fun _ he => he.tame) (by simp)) fd trivial
  rw [h] at hends
  exact hG e hends

variable {i : ℕ} {R : Stop → World → Prop} {S : List Dirent → Prop} {D : Dirh → Prop}

omit hG in
lemma breaks (e : Stop) (w : World) (he : G e) (h : Inside D (· = es) (· = fs) w) : Broken G (· = es) (· = fs) e w := h.broken he

lemma reeFsChange_steady {change : OpenFd.Run Unit} {iv : Bytes 16}
    (hp : ∀ {P : OpenFd → Prop} {R : Stop → OpenFd → Prop}, OpenFd.Stable φ P R →
      Preserves P (do change; OpenFd.sync φ C iv) R) (hi : (∀ e, G e) ∨ Owned es fs i) :
    Spec (Steady es fs) (reeFsChange φ C i change iv) (fun _ w => ∃ es', Hashed es fs i es' ∧ Steady es' fs w)
      (Failed G (Steady es fs)) := by
  refine closingCall_steady hG ((onFile_inside hG breaks (tame_of_stable hG hp)).bind (fun _ =>
    ((insideHost hG breaks).theFile i).bind (fun h => ?_)))
  intro w hw
  have hfi : fs[i]? = some h.ident := by
    rw [← hw.1.files, World.idents, getElem?_map, hw.2]
    rfl
  refine Spec.bind (Q := fun _ => Inside (fun d => d.Sound ∧ Hashed es fs i d.dents) (· = es) (· = fs))
    (mapDirh_inside hG breaks (by nofun) (fun d e hd he => ?_) (fun d d' hd hok => ?_))
    (fun _ => commitDirhWrites_inside hG breaks (fun d hd => hd.1) (fun d hd => hd.2)) w hw.1
  · rcases hi with hall | hown
    · exact hall e
    · obtain ⟨k, x, hident, hx⟩ := hown _ hfi
      rcases Dirh.updateHash_error he with ⟨rfl, -⟩ | ⟨n, y, ⟨hidx, hy⟩, herr⟩
      · exact hG _ (tame_code _)
      obtain ⟨hnum, hk⟩ := Prod.mk.inj hident
      rw [hidx] at hk
      cases hk
      rw [hd.2, hx.1] at hy
      cases hy
      rcases herr with ⟨-, hne⟩ | ⟨-, hclear⟩
      · exact absurd hnum.symm hne
      · rw [hd.1.bits (hd.2 ▸ hx)] at hclear
        cases hclear
  · have hsound := hd.1.of_updateHash hok
    obtain ⟨n, x, ⟨hidx, hx⟩, hnum, rfl⟩ := Dirh.updateHash_ok hok
    refine ⟨⟨hsound, n, x, h.dfh.hash, ?_, hd.2 ▸ hx, ?_⟩, hsound⟩
    · rw [hfi, OpenFile.ident, hidx, hnum]
    · rw [← hd.2]
      exact Dirh.wrote_writeDent (List.getElem?_eq_some_iff.mp hx).1.le _

lemma reeFsRemove_steady (name : Name) :
    Spec (Steady es fs) (reeFsRemove φ name) (fun _ w => ∃ es', Removed es name es' ∧ Steady es' fs w)
      (Failed G (Steady es fs)) := by
  refine closingCall_steady hG (.bind (Q := fun dfh => Inside (fun d => (d.Sound ∧ d.dents = es) ∧
    d.find name.uuid name.oid = .ok dfh) (· = es) (· = fs)) ?_ (fun dfh => ?_))
  · refine (lookup_inside hG breaks name (fun d e hd he => hG e (hd.1.find_tame he))).post (fun dfh w hw => ?_)
    obtain ⟨d, hd, -, hfind⟩ := hw.2
    exact hw.1.and_dirh hd hfind
  · refine .bind (Q := fun _ => Inside (fun d => d.Sound ∧ Removed es name d.dents) (· = es) (· = fs))
      (mapDirh_inside hG breaks (by nofun) (fun d e hd he => hG e (remove_tame hd.2 he)) (fun d d' hd hr => ?_)) (fun _ => ?_)
    · have hsound := hd.1.1.of_remove hr
      exact ⟨⟨hsound, hd.1.2 ▸ removed_of_remove hd.2 hr⟩, hsound⟩
    · refine (commitDirhWrites_inside hG breaks (fun d hd => hd.1) (fun d hd => hd.2)).bind (fun _ =>
        Spec.exists (fun es' => .and_left (fun hT => ?_)))
      have breaks' : ∀ {D : Dirh → Prop} a w, G (.panic a) → Inside D (· = es') (· = fs) w →
          Broken G (· = es) (· = fs) (.panic a) w := fun a w he h => ⟨he, h.kept, nofun⟩
      refine ((insideHost hG (fun _ _ _ _ => trivial)).rpcRemove _).bind (fun _ =>
        (lookup?_inside hG breaks' name (fun d e hd he => hG e (hd.1.find_tame he))).bind (fun found => ?_))
      split_ifs
      · exact .throw (fun w hw => breaks' _ w (hG _ (by simp)) hw)
      · exact .pure (fun w hw => ⟨es', hT, hw.mono (fun _ hd => hd.1) (fun _ => id)⟩)

lemma reeFsRename_steady {old : Name} (hold : old.oid ≠ []) (new : Name) (overwrite : Bool) :
    Spec (Steady es fs) (reeFsRename φ old new overwrite)
      (fun _ w => ∃ es', RenamedTo es old new overwrite es' ∧ Steady es' fs w) (Failed G (Steady es fs)) := by
  refine closingCall_steady hG ((lookup?_inside hG (fun a => breaks _) new (fun d e hd he => hG e (hd.1.find_tame he))).bind
    (fun removed => ?_))
  split_ifs with hconflict
  · exact .throw (fun w hw => breaks _ w (hG _ (tame_code _)) hw)
  refine (lookup_inside hG breaks old (fun d e hd he => hG e (hd.1.1.find_tame he))).bind (fun dfh w hw => ?_)
  obtain ⟨hin, d, hd, -, hfind⟩ := hw
  refine Spec.bind (Q := fun _ => Inside (Moved es old new removed) (· = es) (· = fs)) ?_ (fun _ => ?_) w
    (hin.and_dirh (A := fun d => d.find old.uuid old.oid = .ok dfh) hd hfind)
  · refine (changeDirh_inside (A := fun _ => True) hG breaks (fun d e hd he => hG e (hd.1.1.1.rename_tame he))
      (fun d d' dfh' hd hren => ?_)).post (fun _ _ h => h.2)
    obtain ⟨hmoved, hrec⟩ := moved_of_rename hd.1.1.1 hold hd.1.2 hd.2 hren
    exact ⟨trivial, hd.1.1.2 ▸ hmoved, hrec⟩
  · refine .bind (Q := fun _ => Inside (fun d => d.Sound ∧ RenamedTo es old new overwrite d.dents) (· = es) (· = fs)) ?_
      (fun _ => ?_)
    · cases removed with
      | none =>
        refine .pure (fun w hw => hw.mono (fun d hd => ?_) (fun _ => id))
        obtain ⟨o, x, hx, hwrote⟩ := hd.source
        obtain ⟨hsound, hunnamed⟩ := hd.sound rfl
        exact ⟨hsound, o, x, d.dents, hd.oid, hx, hwrote, .inl ⟨hunnamed, rfl⟩⟩
      | some r =>
        refine mapDirh_inside hG breaks (by nofun) (fun d e hd he => hG e (hd.tame r e rfl he)) (fun d d' hd hr => ?_)
        obtain ⟨o, x, hx, hwrote⟩ := hd.source
        obtain ⟨hsound, k, y, hy, hclear⟩ := hd.cleared r d' rfl hr
        exact ⟨⟨hsound, o, x, d.dents, hd.oid, hx, hwrote, .inr ⟨by simpa using hconflict, k, y, hy, hclear⟩⟩, hsound⟩
    · refine (commitDirhWrites_inside hG breaks (fun d hd => hd.1) (fun d hd => hd.2)).bind (fun _ =>
        Spec.exists (fun es' => .and_left (fun hT => ?_)))
      exact (forOld_spec (fun dfh _ => (insideHost hG (fun _ _ _ _ => trivial)).rpcRemove _)).post
        (fun _ w hw => ⟨es', hT, hw⟩)

lemma dirfileGetTmp_steady (hc : Complete fs) (hR : ∀ e w, G e → Steady es fs w → R e w) :
    Spec (Steady es fs) (dirfileGetTmp φ) (fun dfh w => dfh.idx = none ∧
      Inside (fun d => (d.Sound ∧ d.dents = es) ∧ d.Reserved dfh.fileNumber) (· = es) (· = fs) w) R := by
  refine (theDirh_inside hG hR).bind (fun d => ?_)
  refine .bind (Q := fun _ w => Steady es fs w ∧ w.dirh = some d) ?_ (fun _ => ?_)
  · unfold maybeGrowFiles
    split_ifs
    · exact .pure (fun _ => id)
    · exact mayFail_spec (fun w hw => ⟨hw.1.tick, hw.2⟩) (fun _ w hw => hR _ _ (hG _ (tame_code _)) hw.1.tick)
  · refine .bind
      (.modify ?_) (fun _ => .pure (fun _ hw => ⟨rfl, hw⟩))
    rintro w ⟨hw, hd⟩
    obtain ⟨hsound, hdents⟩ := hw.dirh d hd
    have hres := hsound.toNumbered.reserved_getTmp
    have hnum := hsound.toNumbered.getTmp
    refine ⟨hw.kept.record ⟨hnum, fun _ => hsound.names, ?_⟩, ?_, hw.dir, hw.files⟩
    · rintro n creating ⟨⟩
      exact ⟨by rw [creating_eq_nil (hw.files ▸ hc)]; exact not_mem_nil, hres⟩
    · rintro d' ⟨⟩
      exact ⟨⟨⟨hnum, hsound.names⟩, hdents⟩, hres⟩

lemma createPrimitive_steady {uuid : Uuid} (hdfh : dfh.idx = none) (fek iv : Bytes 16) :
    Spec (Inside D S (· = fs)) (createPrimitive φ C uuid dfh fek iv)
      (fun i w => i = fs.length ∧ Inside D S (· = fs ++ [(dfh.fileNumber, none)]) w) (Broken G S (· = fs)) := by
  have hR : ∀ e w, G e → Inside D S (· = fs) w → Broken G S (· = fs) e w := fun e w he h => h.broken he
  have hh := insideHost hG hR
  refine .bind (Q := fun _ => Inside D S (· = fs)) ?_ (fun r => ?_)
  · refine onError_spec (T := fun e w => G e ∧ Inside D S (· = fs) w) ?_ (fun a w h => hR _ w h.1 h.2) (fun e => ?_)
    · have hh' := insideHost (R := fun e w => G e ∧ Inside D S (· = fs) w) hG (fun _ _ he h => ⟨he, h⟩)
      exact (hh'.rpcCreate _).bind (fun _ => (hh'.createTree _ _ _ _).bind (fun _ => .pure (fun _ => id)))
    · exact (hh.rpcRemove _).mono (fun _ h => h.2) (fun _ w h => hR _ w (hG _ (tame_code _)) h) (fun _ _ => id)
  · refine .bind (Q := fun w' w => Inside D S (· = fs) w ∧ w' = w) (.get (fun _ hw => ⟨hw, rfl⟩)) (fun w' => ?_)
    rintro w ⟨hw, rfl⟩
    refine ⟨by rw [← hw.files, World.idents, length_map], ⟨hw.kept.1, hw.kept.2, hw.kept.3⟩, hw.dirh, hw.dir, ?_⟩
    rw [← hw.files]
    simp [World.idents, OpenFile.ident, hdfh]

omit hG in
lemma setDfh_steady {n k : ℕ} (hi : i = fs.length) (hnum : dfh.fileNumber = n) (hidx : dfh.idx = some k) :
    Spec (Inside D S (· = fs ++ [(n, none)])) (setDfh i dfh) (fun _ => Inside D S (· = fs ++ [(n, some k)])) R := by
  refine .modify (fun w hw => ⟨⟨hw.kept.1, hw.kept.2, hw.kept.3⟩, hw.dirh, hw.dir, ?_⟩)
  have hfiles := hw.files
  unfold World.idents at hfiles ⊢
  obtain ⟨l1, l2, hl, rfl, h2⟩ := map_eq_append_iff.mp hfiles
  obtain ⟨x, rfl, -⟩ := map_eq_singleton_iff.mp h2
  rw [length_map] at hi
  subst hi
  rw [hl, modify_concat_length, map_append, ← hnum, ← hidx]
  rfl

lemma setName_steady (n : ℕ) (name : Name) (overwrite : Bool) (hi : i = fs.length) :
    Spec (Inside (fun d => (d.Sound ∧ d.dents = es) ∧ d.Reserved n) (· = es) (· = fs ++ [(n, none)]))
      (setName φ i name overwrite)
      (fun _ w => ∃ es' k, Created es name overwrite n k es' ∧ Steady es' (fs ++ [(n, some k)]) w)
      (Broken G (· = es) (fun l => ∃ f, l = fs ++ [f])) := by
  have hR : ∀ {D : Dirh → Prop} {f} e w, G e → Inside D (· = es) (· = fs ++ [f]) w →
      Broken G (· = es) (fun l => ∃ f, l = fs ++ [f]) e w := fun e w he h => ⟨he, h.kept, fun _ _ => ⟨h.dir, _, h.files⟩⟩
  refine (lookup?_inside hG (fun a => hR _) name (fun d e hd he => hG e (hd.1.1.find_tame he))).bind (fun old => ?_)
  split_ifs with hold
  · exact .throw (fun w hw => hR _ w (hG _ (tame_code _)) hw)
  refine ((insideHost hG hR).theFile i).bind (fun h w hw => ?_)
  have hnum : h.dfh.fileNumber = n := by
    have hident := congrArg (·[fs.length]?) hw.1.files
    simp only [World.idents, getElem?_map, ← hi, hw.2, map_some] at hident
    rw [hi] at hident
    simpa [OpenFile.ident] using congrArg (Option.map Prod.fst) hident
  refine Spec.bind (Q := fun dfh w => ∃ k, (dfh.fileNumber = n ∧ dfh.idx = some k) ∧
    Inside (fun d => d.Sound ∧ Created es name overwrite n k d.dents) (· = es) (· = fs ++ [(n, none)]) w) ?_
    (fun dfh => Spec.exists (fun k => Spec.and_left (fun hdfh => ?_))) w hw.1
  · refine (changeDirh_inside (A := fun dfh : Fileh => ∃ k, dfh.fileNumber = n ∧ dfh.idx = some k)
      (E := fun dfh d => d.Sound ∧ ∀ k, dfh.idx = some k → Created es name overwrite n k d.dents) hG hR
      (fun d e hd he => hG e (hd.1.1.1.rename_tame he)) (fun d d' dfh hd hren => ?_)).post (fun dfh w hw => ?_)
    · obtain ⟨hsound, k, hidx, hn, hcreated⟩ := created_of_rename hd.1.1.1 (hnum ▸ hd.1.2) hd.2 hold hren
      rw [hd.1.1.2, hnum] at hcreated
      refine ⟨⟨k, hn.trans hnum, hidx⟩, ⟨hsound, fun k' hk' => ?_⟩, recorded_of_sound hsound fun _ _ h => by cases h⟩
      rw [hidx] at hk'
      cases hk'
      exact hcreated
    · obtain ⟨⟨k, hn, hidx⟩, hw⟩ := hw
      exact ⟨k, ⟨hn, hidx⟩, hw.mono (fun d hd => ⟨hd.1, hd.2 k hidx⟩) (fun _ => id)⟩
  · refine (setDfh_steady hi hdfh.1 hdfh.2).bind (fun _ =>
      (commitDirhWrites_inside hG hR (fun d hd => hd.1) (fun d hd => hd.2)).bind (fun _ =>
        Spec.exists (fun es' => .and_left (fun hT => ?_))))
    exact (forOld_spec (fun dfh _ => (insideHost hG (fun _ _ _ _ => trivial)).rpcRemove _)).post
      (fun _ w hw => ⟨es', k, hT, hw⟩)

omit hG in
lemma closePrimitive_steady (i : ℕ) :
    Spec (Inside D S (· = fs)) (closePrimitive i) (fun _ => Inside D S (· = fs.eraseIdx i)) R := by
  refine .modify (fun w hw => ⟨⟨hw.kept.1, hw.kept.2, hw.kept.3⟩, hw.dirh, hw.dir, ?_⟩)
  rw [← hw.files]
  exact (eraseIdx_map OpenFile.ident w.files i).symm

lemma reeFsCreate_steady (hc : Complete fs) (name : Name) (overwrite : Bool) (c : Creation) :
    Spec (Steady es fs) (reeFsCreate φ C name overwrite c)
      (fun _ w => ∃ es' n k, Created es name overwrite n k es' ∧ Steady es' (fs ++ [(n, some k)]) w)
      (Failed G (Steady es fs)) := by
  refine (getDirh_inside hG (fun e w he h => h.failed he) load_steady).bind (fun dirh => ?_)
  refine (onError_closed hG dirh (dirfileGetTmp_steady hG hc (fun e w he h => h.broken he))).bind (fun dfh =>
    .and_left (fun hdfh => ?_))
  refine (onError_closed hG dirh (createPrimitive_steady hG hdfh c.fek c.iv)).bind (fun i => .and_left (fun hi => ?_))
  refine onError_spec (T := Broken G (· = es) (fun l => ∃ f, l = fs ++ [f])) ?_ (fun a w h => ⟨h.stop, h.kept, nofun⟩)
    (fun e => ?_)
  · refine .bind (onFile_inside hG (fun e w he h => ⟨he, h.kept, fun _ _ => ⟨h.dir, _, h.files⟩⟩)
      (tame_of_stable (φ := φ) hG (fun h => ?_))) (fun _ => (setName_steady hG dfh.fileNumber name overwrite hi).post (fun _ w hw => ?_))
    · exact (h.writePrimitive _ _ _).bind (fun _ => (h.writePrimitive _ _ _).bind (fun _ =>
        (h.writePrimitive _ _ _).bind (fun _ => h.sync _)))
    · obtain ⟨es', k, hw⟩ := hw
      exact ⟨es', dfh.fileNumber, k, hw⟩
  · refine (putDirh_closed (D := fun d => d.Sound ∧ d.dents = es) hG dirh e).bind (fun _ => ?_)
    refine .bind (fun w hw => ?_) (fun _ =>
      ((insideHost hG (fun _ _ _ _ => trivial)).rpcRemove _).post
        (fun _ w h => h.failed (hG _ (tame_code _))))
    obtain ⟨f, hf⟩ := hw.files
    have hlast : Steady es (fs ++ [f]) w := ⟨hw.kept, hw.dirh, hw.dir, hf⟩
    refine (closePrimitive_steady i).post (fun _ w h => ?_) w hlast
    rw [hi, eraseIdx_append_of_length_le le_rfl, Nat.sub_self, eraseIdx_zero, tail_cons, append_nil] at h
    exact h

lemma reeFsOpen_steady (name : Name) :
    Spec (Steady es fs) (reeFsOpen φ C name) (fun _ w => ∃ f, Opened es name f ∧ Steady es (fs ++ [f]) w)
      (Failed G (Steady es fs)) := by
  have hR : ∀ e w, G e → Steady es fs w → G e ∧ Steady es fs w := fun _ _ he h => ⟨he, h⟩
  refine (getDirh_inside hG (fun e w he h => h.failed he) load_steady).bind (fun dirh => ?_)
  refine onError_spec (T := fun e w => G e ∧ Steady es fs w) ?_ (fun _ w h => h.2.failed h.1) (fun e =>
    (putDirh_inside hG dirh false).mono (fun _ h => h.2) (fun _ _ h => h.failed (hG _ (tame_code _))) (fun _ _ => id))
  refine .bind (Q := fun dfh w => Opened es name (dfh.fileNumber, dfh.idx) ∧ Steady es fs w) ?_ (fun dfh =>
    .and_left (fun hopened => notFoundIsCorrupt_spec ?_ (fun _ _ _ h => ⟨hG _ (tame_code _), h.2⟩)))
  · refine (lookup_inside hG hR name (fun d e hd he => hG e (hd.1.find_tame he))).post (fun dfh w hw => ⟨?_, hw.1⟩)
    obtain ⟨-, d, -, hd, hfind⟩ := hw
    by_cases hoid : name.oid = []
    · obtain ⟨dfh', n, hok, hidx, -⟩ := d.find_free name.uuid
      rw [hoid, hok] at hfind
      cases hfind
      exact .inl ⟨hoid, by rw [hidx]; exact some_ne_none n⟩
    · obtain ⟨k, x, hx, hu, ho, -, rfl⟩ := Dirh.find_ok hoid hfind
      exact .inr ⟨k, x, ⟨hd.2 ▸ hx, hu, ho⟩, rfl⟩
  · refine .bind (.get (fun _ hw => hw)) (fun w0 => ?_)
    split
    · exact .throw (fun w hw => hR _ w (hG _ (tame_code _)) hw)
    refine (insideHost hG hR).mayFail.bind (fun _ => ?_)
    split
    · exact (insideHost hG hR).throw (Stop.plain_ofError _)
    · refine .modify (fun w hw => ⟨_, hopened, ⟨hw.kept.1, hw.kept.2, hw.kept.3⟩, hw.dirh, hw.dir, ?_⟩)
      rw [← hw.files]
      simp [World.idents, OpenFile.ident]

lemma reeFsClose_steady {I : World → Prop} (i : ℕ) :
    Spec (Steady es fs) (reeFsClose i) (fun _ => Steady es (fs.eraseIdx i)) (Failed G I) := by
  refine .bind (fun w hw => ?_) (fun _ =>
    (putDirhPrimitive_inside hG false).bind (fun _ => closePrimitive_steady i))
  unfold theFile
  split
  · exact ⟨hG _ (by simp), hw.kept, nofun⟩
  · exact hw

lemma reeFsRead_steady (i pos len : ℕ) :
    Preserves (Steady es fs) (reeFsRead φ C i pos len) (Failed G (Steady es fs)) :=
  onFile_inside hG (fun _ _ he h => h.failed he) (tame_of_stable hG (fun h => h.readPrimitive pos len))

lemma reeFsOpendir_steady (uuid : Uuid) :
    Preserves (Steady es fs) (reeFsOpendir φ uuid) (Failed G (Steady es fs)) := by
  have hR : ∀ e w, G e → Steady es fs w → G e ∧ Steady es fs w := fun _ _ he h => ⟨he, h⟩
  refine (getDirh_inside hG (fun e w he h => h.failed he) load_steady).bind (fun dirh =>
    .bind (Q := fun _ => Steady es fs) ?_ (fun _ => ?_))
  · refine onError_spec (T := fun e w => G e ∧ Steady es fs w) ?_ (fun _ w h => h.2.failed h.1) (fun e =>
      (putDirh_inside hG dirh false).mono (fun _ h => h.2) (fun _ _ h => h.failed (hG _ (tame_code _))) (fun _ _ => id))
    refine (theDirh_inside hG hR).bind (fun d => .bind ?_ (fun _ => .pure (fun _ => id)))
    refine liftExcept_spec (fun _ _ hw _ => hw.1) (fun e w hw he => ⟨hG e ?_, hw.1⟩)
    rw [Dirh.getNext_error he]
    simp
  · exact .modify (fun w hw => ⟨⟨hw.kept.1, hw.kept.2, hw.kept.3⟩, hw.dirh, hw.dir, hw.files⟩)

lemma reeFsClosedir_steady (j : ℕ) :
    Preserves (Steady es fs) (reeFsClosedir j) (Failed G (Steady es fs)) := by
  refine ((insideHost hG (fun e w he h => h.failed he)).theStream j).bind (fun s => ?_)
  refine ((putDirh_inside hG s.dirh false).of_imp (fun _ hw => hw.1)).bind (fun _ => .modify (fun w hw => ?_))
  exact ⟨⟨hw.kept.1, hw.kept.2, hw.kept.3⟩, hw.dirh, hw.dir, hw.files⟩

lemma reeFsReaddir_steady (j : ℕ) :
    Preserves (Steady es fs) (reeFsReaddir j) (Failed G (Steady es fs)) := by
  have hR : ∀ e w, G e → Steady es fs w → Failed G (Steady es fs) e w := fun _ _ he h => h.failed he
  refine ((insideHost hG hR).theStream j).bind (fun s => .bind (.get (fun _ hw => hw.1))
    (fun w => ?_))
  split_ifs
  · exact .throw (fun w hw => hR _ w (hG _ (by simp)) hw)
  refine (theDirh_inside hG hR).bind (fun d => .bind
    (liftExcept_spec (fun _ _ hw _ => hw.1) (fun e w hw he => hR e w ?_ hw.1)) (fun r => ?_))
  · rw [Dirh.getNext_error he]
    exact hG _ (tame_code _)
  · refine .bind (.modify (fun w hw => ?_)) (fun _ => .pure (fun _ => id))
    exact ⟨⟨hw.kept.1, hw.kept.2, hw.kept.3⟩, hw.dirh, hw.dir, hw.files⟩

end Calls

end Calls

end Optee.ReeFs
