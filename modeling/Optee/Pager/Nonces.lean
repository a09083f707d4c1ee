import Optee.Lib.Runs
import Optee.Lib.Threads
import Optee.Pager.Fobj

/-! A nonce is made of the low half of the address of the page's state and of the counter kept there. -/

namespace Optee.Pager

open Lib.Runs Lib.Threads List TeeResult

variable {Page Cipher Tag : Type} (cfg : Config Page Cipher Tag)

lemma gcmIv_injective {state : ℕ} {iv iv' : UInt64} (h : gcmIv state iv = gcmIv state iv') : iv = iv' := by
  simp only [gcmIv, Prod.mk.injEq, true_and] at h
  obtain ⟨hhi, hlo⟩ := h
  apply UInt64.toNat_inj.mp
  have hhi := congrArg UInt32.toNat hhi
  have hlo := congrArg UInt32.toNat hlo
  have := iv.toNat_lt
  have := iv'.toNat_lt
  simp [Nat.shiftRight_eq_div_pow] at hhi hlo
  omega

def low (state : ℕ) : UInt32 := UInt32.ofNat state

def Live (w : World Cipher Tag) (i : ℕ) (f : Fobj) : Prop := w.fobjs[i]? = some (some f)

structure Sound (w : World Cipher Tag) : Prop where
  nodup : w.nonces.Nodup
  /-- The nonces already made of a state in use have counters up to the one kept there. -/
  passed : ∀ i f, Live w i f → ∀ page < f.numPages, ∀ n ∈ w.nonces, n.1 = low (f.stateAt cfg page) →
    ∃ iv ≤ (w.states (f.stateAt cfg page)).iv, n = gcmIv (f.stateAt cfg page) iv
  apart : ∀ i f, Live w i f → ∀ page < f.numPages, ∀ j g, Live w j g → ∀ page' < g.numPages,
    low (f.stateAt cfg page) = low (g.stateAt cfg page') → i = j ∧ page = page'

/-- The states of the new fobj are where no page was saved and no other state is, as far as nonces can tell. -/
def FreshStates (w : World Cipher Tag) (f : Fobj) : Prop :=
  ∀ page < f.numPages,
    (∀ n ∈ w.nonces, n.1 ≠ low (f.stateAt cfg page)) ∧
    (∀ g ∈ w.fobjs, ∀ g' ∈ g, ∀ page' < g'.numPages, low (f.stateAt cfg page) ≠ low (g'.stateAt cfg page')) ∧
    ∀ page' < f.numPages, low (f.stateAt cfg page) = low (f.stateAt cfg page') → page = page'

instance (w : World Cipher Tag) (f : Fobj) : Decidable (FreshStates cfg w f) := by
  haveI hstate (page : ℕ) : Decidable (∀ n ∈ w.nonces, n.1 ≠ low (f.stateAt cfg page)) := List.decidableBAll _ _
  haveI hother (page : ℕ) : Decidable (∀ g ∈ w.fobjs, ∀ g' ∈ g, ∀ page' < g'.numPages,
      low (f.stateAt cfg page) ≠ low (g'.stateAt cfg page')) := List.decidableBAll _ _
  haveI hsame (page : ℕ) : Decidable (∀ page' < f.numPages,
      low (f.stateAt cfg page) = low (f.stateAt cfg page') → page = page') := Nat.decidableBallLT _ _
  exact Nat.decidableBallLT _ _

def newFobj (numPages : ℕ) (mem : Memory) : Fobj :=
  if cfg.pageTagAndIv then ⟨.paged mem.idx, numPages, 1⟩ else ⟨.unpaged mem.store mem.state, numPages, 1⟩

def Allowed (w : World Cipher Tag) : Event Page → Prop
  | .alloc numPages mem => FreshStates cfg w (newFobj cfg numPages mem)
  | .use _ _ => True

instance (w : World Cipher Tag) : ∀ e : Event Page, Decidable (Allowed cfg w e)
  | .alloc numPages mem => inferInstanceAs (Decidable (FreshStates cfg w (newFobj cfg numPages mem)))
  | .use _ _ => isTrue trivial

section Steps

variable {cfg} {w w' : World Cipher Tag} {f : Fobj} {i : ℕ} {g : Fobj} {va : Page}

lemma Live.unique (hf : Live w i f) (hg : Live w i g) : f = g := by
  rw [Live, hf] at hg
  exact Option.some.inj (Option.some.inj hg)

lemma Live.mem (h : Live w i f) : some f ∈ w.fobjs := mem_of_getElem? h

lemma stateAt_congr (h : f.iv = g.iv) : f.stateAt cfg = g.stateAt cfg := by
  funext page
  rw [Fobj.stateAt, Fobj.stateAt, h]

lemma Sound.of_live (h : Sound cfg w) (hstates : w'.states = w.states) (hnonces : w'.nonces = w.nonces)
    (hlive : ∀ i f, Live w' i f → ∃ g, Live w i g ∧ g.iv = f.iv ∧ g.numPages = f.numPages) : Sound cfg w' := by
  refine ⟨hnonces ▸ h.nodup, ?_, ?_⟩
  · intro i f hf page hp n hn
    obtain ⟨g, hg, hiv, hnum⟩ := hlive i f hf
    rw [hstates, ← stateAt_congr hiv]
    exact h.passed i g hg page (hnum ▸ hp) n (hnonces ▸ hn)
  · intro i f hf page hp j f' hf' page' hp'
    obtain ⟨g, hg, hiv, hnum⟩ := hlive i f hf
    obtain ⟨g', hg', hiv', hnum'⟩ := hlive j f' hf'
    rw [← stateAt_congr hiv, ← stateAt_congr hiv']
    exact h.apart i g hg page (hnum ▸ hp) j g' hg' page' (hnum' ▸ hp')

lemma Sound.setFobj (h : Sound cfg w) (hf : Live w i f) {o : Option Fobj}
    (ho : ∀ g ∈ o, g.iv = f.iv ∧ g.numPages = f.numPages) : Sound cfg (setFobj w i o) := by
  refine h.of_live rfl rfl fun j g hg => ?_
  obtain ⟨rfl, ho'⟩ | ⟨-, hg'⟩ := set_cases hf hg
  · obtain ⟨hiv, hnum⟩ := ho g (ho' ▸ rfl)
    exact ⟨f, hf, hiv.symm, hnum.symm⟩
  · exact ⟨g, hg', rfl, rfl⟩

lemma live_addFobj (h : Live (addFobj cfg w f) i g) : Live w i g ∨ i = w.fobjs.length ∧ g = f := by
  have h : (w.fobjs ++ [some f])[i]? = some (some g) := h
  by_cases hi : i = w.fobjs.length
  · subst hi
    rw [getElem?_append_right le_rfl, Nat.sub_self] at h
    exact .inr ⟨rfl, (Option.some.inj (Option.some.inj h)).symm⟩
  · rw [append_other hi] at h
    exact .inl h

lemma Sound.addFobj (h : Sound cfg w) (hf : FreshStates cfg w f) : Sound cfg (addFobj cfg w f) := by
  have hother : ∀ i g, Live w i g → ∀ page < f.numPages, ∀ page' < g.numPages,
      low (f.stateAt cfg page) ≠ low (g.stateAt cfg page') :=
    fun i g hg page hp => (hf page hp).2.1 _ hg.mem g rfl
  refine ⟨h.nodup, ?_, ?_⟩
  · intro i g hg page hp n hn hlow
    obtain hg | ⟨-, rfl⟩ := live_addFobj hg
    · have hkept : ¬ ∃ page' < f.numPages, g.stateAt cfg page = f.stateAt cfg page' := by
        rintro ⟨page', hp', he⟩
        exact hother i g hg page' hp' page hp (congrArg low he.symm)
      simp only [Pager.addFobj, if_neg hkept]
      exact h.passed i g hg page hp n hn hlow
    · exact absurd hlow ((hf page hp).1 n hn)
  · intro i g hg page hp j g' hg' page' hp' hlow
    obtain hold | ⟨rfl, rfl⟩ := live_addFobj hg
    · obtain hold' | ⟨-, rfl⟩ := live_addFobj hg'
      · exact h.apart i g hold page hp j g' hold' page' hp' hlow
      · exact absurd hlow.symm (hother i g hold page' hp' page hp)
    · obtain hold' | ⟨rfl, rfl⟩ := live_addFobj hg'
      · exact absurd hlow (hother j g' hold' page hp page' hp')
      · exact ⟨rfl, (hf page hp).2.2 page' hp' hlow⟩

lemma rwpSavePage_eq_ok {state dst : ℕ} (h : rwpSavePage cfg w va state dst = .ok w') :
    (w.states state).iv < (w.states state).iv + 1 ∧ w'.fobjs = w.fobjs ∧
      (w'.states state).iv = (w.states state).iv + 1 ∧ (∀ a ≠ state, w'.states a = w.states a) ∧
      w'.nonces = gcmIv state ((w.states state).iv + 1) :: w.nonces := by
  obtain ⟨u, hlt, h⟩ := bind_eq_ok.mp h
  cases h
  refine ⟨assert_eq_ok.mp hlt, rfl, by simp, fun a ha => if_neg ha, rfl⟩

lemma Sound.save (h : Sound cfg w) (hf : Live w i f) {page : ℕ} (hp : page < f.numPages) {dst : ℕ}
    (hsave : rwpSavePage cfg w va (f.stateAt cfg page) dst = .ok w') : Sound cfg w' := by
  obtain ⟨hlt, hfobjs, hself, hother, hnonces⟩ := rwpSavePage_eq_ok hsave
  have hlive : ∀ {j g}, Live w' j g → Live w j g := fun hg => by rwa [Live, hfobjs] at hg
  refine ⟨?_, ?_, ?_⟩
  · rw [hnonces]
    refine nodup_cons.mpr ⟨fun hmem => ?_, h.nodup⟩
    obtain ⟨iv, hle, he⟩ := h.passed i f hf page hp _ hmem rfl
    exact absurd hle (UInt64.not_le.mpr (gcmIv_injective he ▸ hlt))
  · intro j g hg page' hp' n hn hlow
    have hg := hlive hg
    obtain rfl | hn := mem_cons.mp (hnonces ▸ hn)
    · obtain ⟨rfl, rfl⟩ := h.apart i f hf page hp j g hg page' hp' hlow
      obtain rfl := hf.unique hg
      exact ⟨_, hself.symm ▸ UInt64.le_refl _, rfl⟩
    obtain ⟨iv, hle, he⟩ := h.passed j g hg page' hp' n hn hlow
    refine ⟨iv, ?_, he⟩
    by_cases ha : g.stateAt cfg page' = f.stateAt cfg page
    · rw [ha, hself]
      rw [ha] at hle
      exact UInt64.le_trans hle (UInt64.le_of_lt hlt)
    · rwa [hother _ ha]
  · intro j g hg page' hp' k g' hg' page'' hp''
    exact h.apart j g (hlive hg) page' hp' k g' (hlive hg') page'' hp''

lemma Sound.savePage (h : Sound cfg w) (hf : Live w i f) {page : ℕ} (hsave : savePage cfg w f page va = .ok w') :
    Sound cfg w' := by
  obtain ⟨_, hp, hsave⟩ := bind_eq_ok.mp hsave
  split at hsave
  · cases hsave
    exact h
  · exact h.save hf (assert_eq_ok.mp hp) hsave

lemma Sound.useFobj (h : Sound cfg w) (hf : Live w i f) {op : Op Page} (huse : useFobj cfg w i f op = .ok w') :
    Sound cfg w' := by
  cases op with
  | get | put =>
    obtain ⟨g, hg, he⟩ := bind_eq_ok.mp huse
    obtain ⟨_, -, hg⟩ := bind_eq_ok.mp hg
    cases hg
    cases he
    exact h.setFobj hf fun g hg => by cases hg; exact ⟨rfl, rfl⟩
  | free =>
    obtain ⟨_, -, he⟩ := bind_eq_ok.mp huse
    cases he
    exact h.setFobj hf fun g hg => by cases hg
  | load page =>
    rw [Pager.useFobj] at huse
    split at huse
    · cases huse
    · cases huse
      exact h
  | save page va => exact h.savePage hf huse

lemma fobjRwPagedAlloc_eq_ok {numPages : ℕ} {mem : Memory} (h : fobjRwPagedAlloc cfg w numPages mem = .ok w') :
    w' = Pager.addFobj cfg w (newFobj cfg numPages mem) := by
  obtain ⟨_, -, he⟩ := bind_eq_ok.mp h
  cases he
  rw [newFobj]
  split <;> rfl

lemma Sound.step (h : Sound cfg w) {e : Event Page} (hallowed : Allowed cfg w e) (hstep : step cfg w e = .ok w') :
    Sound cfg w' := by
  cases e with
  | alloc numPages mem =>
    rw [fobjRwPagedAlloc_eq_ok hstep]
    exact h.addFobj hallowed
  | use i op =>
    rw [Pager.step] at hstep
    split at hstep
    · exact h.useFobj ‹_› hstep
    · cases hstep
      exact h

end Steps

def bootFobj (numFobjPages : ℕ) (mem : Memory) : Fobj := ⟨.unpaged mem.store mem.state, numFobjPages, 1⟩

lemma sound_rwpInit {w : World Cipher Tag} (hfobjs : w.fobjs = []) (hnonces : w.nonces = []) {numFobjPages : ℕ}
    {mem : Memory} (hboot : FreshStates cfg w (bootFobj numFobjPages mem)) :
    Sound cfg (rwpInit cfg w numFobjPages mem) := by
  have hstart : Sound cfg w := by
    refine ⟨hnonces ▸ nodup_nil, ?_, ?_⟩ <;> intro i f hf <;> simp [Live, hfobjs] at hf
  rw [rwpInit]
  split
  · exact hstart.addFobj hboot
  · exact hstart

theorem nonces_nodup (w₀ : World Cipher Tag) (hfobjs : w₀.fobjs = []) (hnonces : w₀.nonces = []) (numFobjPages : ℕ)
    (mem : Memory) (hboot : FreshStates cfg w₀ (bootFobj numFobjPages mem)) (es : List (Event Page))
    (hes : Along (step cfg) (Allowed cfg) (rwpInit cfg w₀ numFobjPages mem) es) (w : World Cipher Tag)
    (hrun : run (step cfg) (rwpInit cfg w₀ numFobjPages mem) es = .ok w) : w.nonces.Nodup :=
  (hes.invariant hrun (sound_rwpInit cfg hfobjs hnonces hboot) fun _ _ _ h ha hs => h.step ha hs).nodup

def toyConfig (pageTagAndIv : Bool) : Config Unit Unit Unit where
  pageTagAndIv := pageTagAndIv
  rwpStateBase := 0x40000000
  rwpStoreBase := 0x50000000
  gcm := ⟨fun _ _ => ((), ()), fun _ _ _ => some ()⟩
  zeroPage := ()
  zeroTag := ()

def toyWorld : World Unit Unit := ⟨fun _ => ⟨0, ()⟩, fun _ => (), [], []⟩

def toyBoot (pageTagAndIv : Bool) : World Unit Unit :=
  rwpInit (toyConfig pageTagAndIv) toyWorld 1 ⟨0, 0x50000000, 0x1000⟩

theorem nonces_nodup_two_saves :
    ∃ w, run (step (toyConfig true)) (toyBoot true)
        [.alloc 2 ⟨3, 0x50003000, 0x2000⟩, .use 1 (.save 0 ()), .use 1 (.save 0 ()), .use 1 (.save 1 ())] = .ok w ∧
      w.nonces.length = 3 ∧ w.nonces.Nodup :=
  ⟨_, rfl, rfl, nonces_nodup (toyConfig true) toyWorld rfl rfl 1 ⟨0, 0x50000000, 0x1000⟩
    (by decide)
    [.alloc 2 ⟨3, 0x50003000, 0x2000⟩, .use 1 (.save 0 ()), .use 1 (.save 0 ()), .use 1 (.save 1 ())]
    (by decide) _ rfl⟩

def saveFreeSave (first : ℕ) : List (Event Unit) :=
  [.alloc 1 ⟨1, 0x50001000, 0x2000⟩, .use first (.save 0 ()), .use first .put, .use first .free,
    .alloc 1 ⟨1, 0x50001000, 0x2000⟩, .use (first + 1) (.save 0 ())]

theorem nonce_reused_after_free :
    (∃ w n, run (step (toyConfig false)) (toyBoot false) (saveFreeSave 0) = .ok w ∧ w.nonces = [n, n]) ∧
      ∃ w n, run (step (toyConfig true)) (toyBoot true) (saveFreeSave 1) = .ok w ∧ w.nonces = [n, n] :=
  ⟨⟨_, _, rfl, rfl⟩, _, _, rfl, rfl⟩

end Optee.Pager
