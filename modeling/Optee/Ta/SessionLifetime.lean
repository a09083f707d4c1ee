import Mathlib.Data.List.Nodup
import Optee.Lib.Runs
import Optee.Lib.Threads
import Optee.Ta.SessionList

/-! No session is used after it was freed. -/

namespace Optee.Ta.SessionList

open Lib Function Runs List Option Threads

variable {n t : ℕ} {sess sess' : TaSession} {listed : Prop} {pcs : List Pc} {pc pc' : Pc}

def Pc.holds (n : ℕ) : Pc → Prop
  | .initializing s | .opened s | .waiting s _ | .got s _ | .unlinking s _ | .removed s _ => s = n
  | _ => False

instance (n : ℕ) (pc : Pc) : Decidable (pc.holds n) := by
  cases pc <;> unfold Pc.holds <;> infer_instance

def Pc.refs (n : ℕ) (pc : Pc) : ℕ := if pc.holds n then 1 else 0

def Purpose.isClose : Purpose → Prop
  | .close _ _ => True
  | _ => False

instance (p : Purpose) : Decidable p.isClose := by
  cases p <;> unfold Purpose.isClose <;> infer_instance

def Pc.owns (n : ℕ) : Pc → Prop
  | .initializing s | .opened s | .entered s _ | .returning s | .found s | .getting _ s _ | .origin s => s = n
  | .waiting s p | .got s p | .unlinking s p | .removed s p => s = n ∧ p.isClose
  | .idle => False

instance (n : ℕ) (pc : Pc) : Decidable (pc.owns n) := by
  cases pc <;> unfold Pc.owns <;> infer_instance

def Pc.exclusive (n : ℕ) : Pc → Prop
  | .got s p => s = n ∧ p ≠ .cancel
  | .unlinking s _ | .removed s _ => s = n
  | _ => False

def Pc.unlinks (n : ℕ) : Pc → Prop
  | .unlinking s _ | .removed s _ => s = n
  | _ => False

def Pc.alone (n : ℕ) : Pc → Prop
  | .initializing s | .removed s _ => s = n
  | _ => False

lemma Pc.hand_of_holds (h : pc.holds n) : pc.hand = some n := by
  cases pc <;> simp_all [Pc.holds, Pc.hand]

lemma Pc.hand_of_owns (h : pc.owns n) : pc.hand = some n := by
  cases pc <;> simp_all [Pc.owns, Pc.hand]

lemma Pc.hand_of_exclusive (h : pc.exclusive n) : pc.hand = some n := by
  cases pc <;> simp_all [Pc.exclusive, Pc.hand]

lemma Pc.hand_of_unlinks (h : pc.unlinks n) : pc.hand = some n := by
  cases pc <;> simp_all [Pc.unlinks, Pc.hand]

lemma Pc.hand_of_alone (h : pc.alone n) : pc.hand = some n := by
  cases pc <;> simp_all [Pc.alone, Pc.hand]

lemma Pc.owns_of_alone (h : pc.alone n) (hclose : ∀ s p, pc = .removed s p → p.isClose) : pc.owns n := by
  cases pc <;> simp_all [Pc.alone, Pc.owns]

lemma Pc.holds_or_owns (h : pc.hand = some n) : pc.holds n ∨ pc.owns n := by
  cases pc <;> simp_all [Pc.holds, Pc.owns, Pc.hand]

lemma Pc.refs_eq_zero (h : pc.hand ≠ some n) : pc.refs n = 0 := if_neg fun hh => h (Pc.hand_of_holds hh)

def Purpose.Fits (s : ℕ) : Purpose → Prop
  | .close csess origin => csess = s ∧ origin = false
  | _ => True

def Pc.Fits (sess : TaSession) (listed : Prop) : Pc → Prop
  | .idle => True
  | .entered _ res => listed ∧ res ≠ .failed
  | .getting id _ goesOn => listed ∧ id = sess.id ∧ goesOn = false
  | .waiting s p => listed ∧ p.Fits s ∧ p ≠ .cancel
  | .got s p => listed ∧ p.Fits s
  | .unlinking s p => listed ∧ p = .close s false
  | .removed s p => ¬ listed ∧ p = .close s false
  | .origin _ => False
  | _ => listed

structure Tended (n : ℕ) (sess : TaSession) (listed : Prop) (pcs : List Pc) : Prop where
  hand : ∀ pc ∈ pcs, pc.hand = some n → sess.freed = false ∧ pc.Fits sess listed
  owner : ∀ (t t' : ℕ) (pc pc' : Pc), pcs[t]? = some pc → pcs[t']? = some pc' → pc.owns n → pc'.owns n → t = t'
  refs : (pcs.map (Pc.refs n)).sum ≤ sess.refCount
  lock : sess.freed = false → ∀ t, sess.lockThread = some t ↔ ∃ pc, pcs[t]? = some pc ∧ pc.exclusive n
  unlink : sess.freed = false → sess.unlink = true → ∃ pc ∈ pcs, pc.unlinks n
  alone : ∀ (t t' : ℕ) (pc pc' : Pc), pcs[t]? = some pc → pcs[t']? = some pc' → pc.alone n → pc'.hand = some n → t = t'

namespace Tended

structure Moves (n t : ℕ) (sess sess' : TaSession) (listed : Prop) (pcs : List Pc) (pc pc' : Pc) : Prop where
  id : sess'.id = sess.id
  freed : sess'.freed = sess.freed
  fits : pc'.hand = some n → sess.freed = false ∧ pc'.Fits sess' listed
  owns : pc'.owns n → pc.owns n ∨ ∀ pc ∈ pcs, ¬ pc.owns n
  refs : pc'.refs n + sess.refCount ≤ sess'.refCount + pc.refs n
  lock : sess.freed = false → (sess'.lockThread = sess.lockThread ∧ (pc'.exclusive n ↔ pc.exclusive n)) ∨
    (sess.lockThread = none ∧ sess'.lockThread = some t ∧ pc'.exclusive n) ∨
    (pc.exclusive n ∧ sess'.lockThread = none ∧ ¬ pc'.exclusive n)
  unlink : sess'.unlink = true → pc'.unlinks n ∨ (sess.unlink = true ∧ ¬ pc.unlinks n)
  hand : pc'.hand = some n → pc.hand = some n ∨ ∀ pc ∈ pcs, ¬ pc.alone n
  alone : pc'.alone n → pc.alone n

lemma Fits_congr (h : pc.Fits sess listed) (hid : sess'.id = sess.id) : pc.Fits sess' listed := by
  cases pc <;> simp_all [Pc.Fits]

lemma move (h : Tended n sess listed pcs) (ht : pcs[t]? = some pc) (hm : Moves n t sess sess' listed pcs pc pc') :
    Tended n sess' listed (pcs.set t pc') := by
  refine ⟨fun pc1 hpc1 hhand => ?_, fun t1 t2 pc1 pc2 h1 h2 ho1 ho2 => ?_, ?_, fun hf t' => ?_,
    fun hf hu => ?_, fun t1 t2 pc1 pc2 h1 h2 ha1 hh2 => ?_⟩
  · rw [hm.freed]
    obtain hpc1 | rfl := mem_or_eq_of_mem_set hpc1
    · exact ⟨(h.hand pc1 hpc1 hhand).1, Fits_congr (h.hand pc1 hpc1 hhand).2 hm.id⟩
    · exact hm.fits hhand
  · exact eq_of_set h.owner ht hm.owns h1 h2 ho1 ho2
  · have hsum := sum_set (Pc.refs n) ht pc'
    have hle := h.refs
    have hrefs := hm.refs
    omega
  · have hf : sess.freed = false := hm.freed ▸ hf
    have hlock := h.lock hf
    by_cases htt : t = t'
    · subst htt
      rw [set_self ht]
      obtain ⟨hl, he⟩ | ⟨-, hl, he⟩ | ⟨-, hl, he⟩ := hm.lock hf
      · simp [hl, hlock, ht, he]
      · simp [hl, he]
      · simp [hl, he]
    · rw [set_other htt]
      obtain ⟨hl, -⟩ | ⟨hnone, hl, -⟩ | ⟨he, hl, -⟩ := hm.lock hf
      · rw [hl, hlock]
      · rw [hl, ← hlock, hnone]
        simp [htt]
      · rw [hl, ← hlock, (hlock t).mpr ⟨pc, ht, he⟩]
        simp [htt]
  · obtain hu | ⟨hu, hnot⟩ := hm.unlink hu
    · exact ⟨pc', mem_of_getElem? (set_self ht), hu⟩
    · obtain ⟨pc0, hpc0, hu0⟩ := h.unlink (hm.freed ▸ hf) hu
      exact ⟨pc0, mem_set_of_ne ht hpc0 (fun he => hnot (he ▸ hu0)), hu0⟩
  · obtain ⟨rfl, rfl⟩ | ⟨hne1, g1⟩ := set_cases ht h1
    · obtain ⟨rfl, -⟩ | ⟨hne2, g2⟩ := set_cases ht h2
      · rfl
      · exact h.alone _ _ _ _ ht g2 (hm.alone ha1) hh2
    · obtain ⟨rfl, rfl⟩ | ⟨hne2, g2⟩ := set_cases ht h2
      · obtain hold | hnone := hm.hand hh2
        · exact h.alone _ _ _ _ g1 ht ha1 hold
        · exact (hnone pc1 (mem_of_getElem? g1) ha1).elim
      · exact h.alone _ _ _ _ g1 g2 ha1 hh2

lemma other (h : Tended n sess listed pcs) (ht : pcs[t]? = some pc) (hpc : pc.hand ≠ some n) (hpc' : pc'.hand ≠ some n) :
    Tended n sess listed (pcs.set t pc') :=
  h.move ht
    { id := rfl
      freed := rfl
      fits := fun hh => absurd hh hpc'
      owns := fun ho => absurd (Pc.hand_of_owns ho) hpc'
      refs := by rw [Pc.refs_eq_zero hpc']; omega
      lock := fun _ => .inl ⟨rfl, iff_of_false (fun he => hpc' (Pc.hand_of_exclusive he)) fun he => hpc (Pc.hand_of_exclusive he)⟩
      unlink := fun hu => .inr ⟨hu, fun he => hpc (Pc.hand_of_unlinks he)⟩
      hand := fun hh => absurd hh hpc'
      alone := fun ha => absurd (Pc.hand_of_alone ha) hpc' }

lemma solo {listed' : Prop} (ht : pcs[t]? = some pc)
    (hsolo : ∀ (t' : ℕ) (pc1 : Pc), t' ≠ t → pcs[t']? = some pc1 → pc1.hand ≠ some n)
    (hfits : pc'.hand = some n → sess'.freed = false ∧ pc'.Fits sess' listed') (hrefs : pc'.refs n ≤ sess'.refCount)
    (hlock : sess'.freed = false → ∀ t', sess'.lockThread = some t' ↔ t' = t ∧ pc'.exclusive n)
    (hunlink : sess'.freed = false → sess'.unlink = true → pc'.unlinks n) : Tended n sess' listed' (pcs.set t pc') := by
  -- Whoever has the session in hand is `t`.
  have hself : ∀ (t1 : ℕ) (pc1 : Pc), (pcs.set t pc')[t1]? = some pc1 → pc1.hand = some n → t1 = t ∧ pc1 = pc' := by
    intro t1 pc1 h1 hh
    obtain he | ⟨hne, g1⟩ := set_cases ht h1
    · exact he
    · exact absurd hh (hsolo t1 pc1 hne g1)
  refine ⟨fun pc1 hpc1 hhand => ?_, fun t1 t2 pc1 pc2 h1 h2 ho1 ho2 => ?_, ?_, fun hf t1 => ?_, fun hf hu => ?_,
    fun t1 t2 pc1 pc2 h1 h2 ha1 hh2 => ?_⟩
  · obtain ⟨t1, h1⟩ := mem_iff_getElem?.mp hpc1
    obtain ⟨-, rfl⟩ := hself t1 pc1 h1 hhand
    exact hfits hhand
  · exact (hself _ _ h1 (Pc.hand_of_owns ho1)).1.trans (hself _ _ h2 (Pc.hand_of_owns ho2)).1.symm
  · have hzero : ((pcs.set t .idle).map (Pc.refs n)).sum = 0 := by
      refine sum_eq_zero fun x hx => ?_
      obtain ⟨pc1, hpc1, rfl⟩ := mem_map.mp hx
      obtain ⟨t1, h1⟩ := mem_iff_getElem?.mp hpc1
      obtain ⟨-, rfl⟩ | ⟨hne, g1⟩ := set_cases ht h1
      · rfl
      · exact Pc.refs_eq_zero (hsolo t1 pc1 hne g1)
    have hidle := sum_set (Pc.refs n) ht .idle
    have hset := sum_set (Pc.refs n) ht pc'
    omega
  · rw [hlock hf]
    constructor
    · rintro ⟨rfl, he⟩
      exact ⟨pc', set_self ht, he⟩
    · rintro ⟨pc1, h1, he⟩
      obtain ⟨rfl, rfl⟩ := hself _ _ h1 (Pc.hand_of_exclusive he)
      exact ⟨rfl, he⟩
  · exact ⟨pc', mem_of_getElem? (set_self ht), hunlink hf hu⟩
  · exact (hself _ _ h1 (Pc.hand_of_alone ha1)).1.trans (hself _ _ h2 hh2).1.symm

lemma hand_ne_of_refCount (h : Tended n sess listed pcs) (ht : pcs[t]? = some pc) (hholds : pc.holds n) (howns : pc.owns n)
    (hcount : sess.refCount ≤ 1) (t' : ℕ) (pc1 : Pc) (hne : t' ≠ t) (h1 : pcs[t']? = some pc1) : pc1.hand ≠ some n := by
  intro hhand
  obtain hh | ho := Pc.holds_or_owns hhand
  · have hidle := sum_set (Pc.refs n) ht .idle
    have hle := le_sum (Pc.refs n) (mem_of_getElem? ((set_other hne.symm).trans h1) : pc1 ∈ pcs.set t .idle)
    have hsum := h.refs
    have hrefs0 : Pc.refs n .idle = 0 := rfl
    rw [Pc.refs, if_pos hholds] at hidle
    rw [Pc.refs, if_pos hh] at hle
    omega
  · exact hne (h.owner _ _ _ _ h1 ht ho howns)

end Tended

lemma Tended.refCount_pos (h : Tended n sess listed pcs) (ht : pcs[t]? = some pc) (hholds : pc.holds n) :
    0 < sess.refCount := by
  have hle := le_sum (Pc.refs n) (mem_of_getElem? ht)
  have hsum := h.refs
  rw [Pc.refs, if_pos hholds] at hle
  omega

namespace Sessions

variable {st : Sessions} {list : List ℕ}

structure Sound (st : Sessions) : Prop where
  tended : ∀ n, Tended n (st.heap n) (n ∈ st.openSessions) st.pcs
  ids : (st.openSessions.map fun n => (st.heap n).id).Nodup
  valid : ∀ n ∈ st.openSessions, n < st.allocated ∧ (st.heap n).freed = false ∧ (st.heap n).id ≠ 0
  fresh : ∀ pc ∈ st.pcs, ∀ n, pc.hand = some n → n < st.allocated

lemma init_sound (threads : ℕ) : (init threads).Sound := by
  have hidle : ∀ pc ∈ (init threads).pcs, pc = .idle := fun pc hpc => (mem_replicate.mp hpc).2
  refine ⟨fun n => ?_, nodup_nil, by simp [init], fun pc hpc n hn => ?_⟩
  · refine ⟨fun pc hpc hn => ?_, fun t t' pc pc' hpc hpc' ho => ?_, ?_, fun _ t => ?_, fun _ hu => ?_,
      fun t t' pc pc' hpc hpc' ha => ?_⟩
    · rw [hidle pc hpc] at hn
      cases hn
    · rw [hidle pc (mem_of_getElem? hpc)] at ho
      cases ho
    · simp [init, Pc.refs, Pc.holds]
    · refine iff_of_false (by simp [init]) ?_
      rintro ⟨pc, hpc, he⟩
      rw [hidle pc (mem_of_getElem? hpc)] at he
      cases he
    · cases hu
    · rw [hidle pc (mem_of_getElem? hpc)] at ha
      cases ha
  · rw [hidle pc hpc] at hn
    cases hn

section

variable (h : st.Sound) (ht : st.pcs[t]? = some pc) (hpc : ∀ k, pc.hand = some k → k = n)
  (hpc' : ∀ k, pc'.hand = some k → k = n) (hn : n < st.allocated)
include h ht hpc hpc' hn

lemma Sound.replace (hsub : list.Sublist st.openSessions) (hlist : ∀ k, k ≠ n → (k ∈ list ↔ k ∈ st.openSessions))
    (hsess : n ∈ list → sess'.id = (st.heap n).id ∧ sess'.freed = false)
    (htended : Tended n sess' (n ∈ list) (st.pcs.set t pc')) :
    ({ st.set n sess' with openSessions := list }.setPc t pc').Sound := by
  have hkept : ∀ k ∈ list, (update st.heap n sess' k).id = (st.heap k).id ∧ (update st.heap n sess' k).freed = false := by
    intro k hk
    by_cases hkn : k = n
    · subst hkn
      rw [update_self]
      exact hsess hk
    · rw [update_of_ne hkn]
      exact ⟨rfl, (h.valid k (hsub.subset hk)).2.1⟩
  refine ⟨fun k => ?_, ?_, fun k hk => ?_, fun pc1 hpc1 k hk => ?_⟩
  · show Tended k (update st.heap n sess' k) (k ∈ list) (st.pcs.set t pc')
    by_cases hk : k = n
    · rw [hk, update_self]
      exact htended
    · rw [update_of_ne hk, hlist k hk]
      exact (h.tended k).other ht (fun hh => hk (hpc k hh)) fun hh => hk (hpc' k hh)
  · show (list.map fun k => (update st.heap n sess' k).id).Nodup
    rw [map_congr_left fun k hk => (hkept k hk).1]
    exact h.ids.sublist (hsub.map _)
  · obtain ⟨hid, hf⟩ := hkept k hk
    obtain ⟨hlt, -, hzero⟩ := h.valid k (hsub.subset hk)
    exact ⟨hlt, hf, ne_of_eq_of_ne hid hzero⟩
  · obtain hpc1 | rfl := mem_or_eq_of_mem_set hpc1
    · exact h.fresh pc1 hpc1 k hk
    · exact hpc' k hk ▸ hn

lemma Sound.moves
    (hm : Tended.Moves n t (st.heap n) sess' (n ∈ st.openSessions) st.pcs pc pc') : ((st.set n sess').setPc t pc').Sound :=
  h.replace ht hpc hpc' hn (List.Sublist.refl _) (fun _ _ => Iff.rfl)
    (fun hl => ⟨hm.id, hm.freed.trans (h.valid n hl).2.1⟩) ((h.tended n).move ht hm)

end

lemma set_heap (n : ℕ) : st.set n (st.heap n) = st := by
  rw [set, update_eq_self]

variable {id : UInt32} {p : Purpose}

lemma deref_eq (hf : (st.heap n).freed = false) : st.deref n = .ok (st.heap n) := by
  rw [deref, if_neg (by simp [hf])]

lemma check_eq {p : Prop} [Decidable p] (h : p) : check p = .ok () := if_pos h

lemma decSessionRefCount_eq (hf : (st.heap n).freed = false) (hc : 0 < (st.heap n).refCount) :
    st.decSessionRefCount n = .ok (st.set n { st.heap n with refCount := (st.heap n).refCount - 1 }) := by
  rw [decSessionRefCount, deref_eq hf, ok_bind, check_eq hc, ok_bind]

lemma putSession_eq (hf : (st.heap n).freed = false) (hc : 0 < (st.heap n).refCount) :
    st.putSession t n = .ok (st.set n { st.heap n with
      lockThread := if (st.heap n).lockThread = some t then none else (st.heap n).lockThread
      refCount := (st.heap n).refCount - 1 }) := by
  rw [putSession, deref_eq hf, ok_bind, decSessionRefCount_eq]
  · simp [set]
  · simpa [set] using hf
  · simpa [set] using hc

lemma finish_of_fits (h : p.Fits n) : finish p = .idle := by
  cases p with
  | invoke | cancel => rfl
  | close csess origin =>
    obtain ⟨-, rfl⟩ := h
    rfl

lemma findSession_eq (id : UInt32) {l : List ℕ} (h : ∀ n ∈ l, (st.heap n).freed = false) :
    st.findSession id l = .ok (l.find? fun n => (st.heap n).id = id) := by
  induction l with
  | nil => rfl
  | cons n l ih =>
    rw [forall_mem_cons] at h
    rw [findSession, deref_eq h.1, ok_bind]
    by_cases hid : (st.heap n).id = id
    · simp [hid]
    · rw [ih h.2]
      simp [hid]

def lookup (st : Sessions) (id : UInt32) : Option ℕ := st.openSessions.find? fun n => (st.heap n).id = id

lemma lookup_eq_some (h : st.lookup id = some n) : n ∈ st.openSessions ∧ (st.heap n).id = id :=
  ⟨mem_of_find?_eq_some h, by simpa using find?_some h⟩

lemma lock_eq (hf : (st.heap n).freed = false) (hunl : (st.heap n).unlink = false) :
    st.lock t n p = .ok (if (st.heap n).lockThread = none then
      (st.set n { st.heap n with lockThread := some t }).setPc t (.got n p) else st.setPc t (.waiting n p)) := by
  rw [lock, deref_eq hf, ok_bind, if_neg (by simp [hunl])]
  by_cases hnone : (st.heap n).lockThread = none
  · simp [hnone]
  · simp [hnone]

lemma set_set (s s' : TaSession) : (st.set n s).set n s' = st.set n s' := by
  rw [set, set, set, update_idem]

lemma free_eq (hf : (st.heap n).freed = false) : st.free n = .ok (st.set n { st.heap n with freed := true }) := by
  rw [free, deref_eq hf, ok_bind]

section

variable (h : st.Sound)
include h

section

variable (ht : st.pcs[t]? = some pc)
include ht

lemma Sound.setPc_idle (hpc : pc.hand = none) : (st.setPc t .idle).Sound := by
  refine ⟨fun n => (h.tended n).other ht (by simp [hpc]) (by simp [Pc.hand]), h.ids, h.valid, fun pc1 hpc1 k hk => ?_⟩
  obtain hpc1 | rfl := mem_or_eq_of_mem_set hpc1
  · exact h.fresh pc1 hpc1 k hk
  · cases hk

lemma Sound.at_hand (hn : pc.hand = some n) :
    n < st.allocated ∧ (st.heap n).freed = false ∧ pc.Fits (st.heap n) (n ∈ st.openSessions) :=
  have hmem := mem_of_getElem? ht
  ⟨h.fresh pc hmem n hn, (h.tended n).hand pc hmem hn⟩

end

section Walks

attribute [local simp] Pc.holds Pc.refs Pc.owns Pc.exclusive Pc.unlinks Pc.alone Pc.hand Pc.Fits Purpose.Fits
  Purpose.isClose

lemma Sound.walk (ht : st.pcs[t]? = some pc) (hpc : pc.hand = some n) (howns : pc.owns n)
    (hexcl : ¬ pc.exclusive n) (hunl : ¬ pc.unlinks n) (hpc' : ∀ k, pc'.hand = some k → k = n)
    (hfits : pc'.hand = some n → pc'.Fits (st.heap n) (n ∈ st.openSessions)) (hrefs : pc'.refs n ≤ pc.refs n)
    (hexcl' : ¬ pc'.exclusive n) (halone : ¬ pc'.alone n) : (st.setPc t pc').Sound := by
  obtain ⟨hn, hf, -⟩ := h.at_hand ht hpc
  rw [← st.set_heap n]
  refine h.moves ht (fun k hk => mem_unique hk hpc) hpc' hn
    { id := rfl
      freed := rfl
      fits := fun hh => ⟨hf, hfits hh⟩
      owns := fun _ => .inl howns
      refs := by omega
      lock := fun _ => .inl ⟨rfl, iff_of_false hexcl' hexcl⟩
      unlink := fun hu => .inr ⟨hu, hunl⟩
      hand := fun _ => .inl hpc
      alone := fun ha => absurd ha halone }

lemma Sound.initialized (ht : st.pcs[t]? = some (.initializing n)) : (st.setPc t (.opened n)).Sound := by
  obtain ⟨-, -, hlisted⟩ := h.at_hand ht rfl
  exact h.walk ht rfl rfl id id (by simp) (fun _ => hlisted) (by simp) id id

lemma Sound.give_up (ht : st.pcs[t]? = some pc) (hpc : pc = .opened n ∨ pc = .returning n) :
    (st.setPc t .idle).Sound := by
  obtain rfl | rfl := hpc
  all_goals exact h.walk ht rfl rfl id id (by simp) (by simp) (by simp) id id

lemma Sound.returning (ht : st.pcs[t]? = some (.entered n .success)) : (st.setPc t (.returning n)).Sound := by
  obtain ⟨-, -, hlisted, -⟩ := h.at_hand ht rfl
  exact h.walk ht rfl rfl id id (by simp) (fun _ => hlisted) (by simp) id id

lemma Sound.closeSession (ht : st.pcs[t]? = some pc)
    (hpc : pc = .opened n ∨ (∃ res, pc = .entered n res) ∨ pc = .found n) :
    ∃ st', st.closeSession t n false = .ok st' ∧ st'.Sound := by
  have hhand : pc.hand = some n := by obtain rfl | ⟨res, rfl⟩ | rfl := hpc <;> rfl
  obtain ⟨-, hf, hfits⟩ := h.at_hand ht hhand
  have hlisted : n ∈ st.openSessions := by
    obtain rfl | ⟨res, rfl⟩ | rfl := hpc
    · exact hfits
    · exact hfits.1
    · exact hfits
  rw [Sessions.closeSession, deref_eq hf]
  refine ⟨_, rfl, h.walk ht hhand ?_ ?_ ?_ (by simp) (fun _ => ⟨hlisted, rfl, rfl⟩) (by simp) id id⟩
  all_goals obtain rfl | ⟨res, rfl⟩ | rfl := hpc <;> simp

lemma Sound.releases (pc' : Pc) (sess' : TaSession) (ht : st.pcs[t]? = some pc) (hpc : pc.holds n)
    (hunl : ¬ pc.unlinks n) (hpc' : pc' = .idle ∨ pc.owns n ∧ n ∈ st.openSessions ∧ ∃ res, res ≠ .failed ∧ pc' = .entered n res)
    (hrefs : sess'.refCount = (st.heap n).refCount - 1)
    (hlock : (sess'.lockThread = (st.heap n).lockThread ∧ ¬ pc.exclusive n) ∨ (pc.exclusive n ∧ sess'.lockThread = none))
    (hsess : sess'.id = (st.heap n).id ∧ sess'.freed = (st.heap n).freed ∧ sess'.unlink = (st.heap n).unlink) :
    ((st.set n sess').setPc t pc').Sound := by
  have hhand := Pc.hand_of_holds hpc
  obtain ⟨hn, hf, -⟩ := h.at_hand ht hhand
  have hexcl : ¬ pc'.exclusive n := by obtain rfl | ⟨-, -, res, -, rfl⟩ := hpc' <;> exact not_false
  refine h.moves ht (fun k hk => mem_unique hk hhand) ?_ hn
    { id := hsess.1
      freed := hsess.2.1
      fits := fun hh => ⟨hf, ?_⟩
      owns := fun ho => .inl ?_
      refs := ?_
      lock := fun _ => ?_
      unlink := fun hu => .inr ⟨hsess.2.2 ▸ hu, hunl⟩
      hand := fun _ => .inl hhand
      alone := fun ha => ?_ }
  · obtain rfl | ⟨-, -, res, -, rfl⟩ := hpc' <;> simp [eq_comm]
  · obtain rfl | ⟨-, hl, res, hres, rfl⟩ := hpc'
    · trivial
    · exact ⟨hl, hres⟩
  · obtain rfl | ⟨howns, -, res, -, rfl⟩ := hpc'
    · exact ho.elim
    · exact howns
  · have hzero : pc'.refs n = 0 := by obtain rfl | ⟨-, -, res, -, rfl⟩ := hpc' <;> rfl
    rw [hzero, Pc.refs, if_pos hpc]
    omega
  · obtain ⟨hk, he⟩ | ⟨he, hk⟩ := hlock
    · exact .inl ⟨hk, iff_of_false hexcl he⟩
    · exact .inr (.inr ⟨he, hk, hexcl⟩)
  · obtain rfl | ⟨-, -, res, -, rfl⟩ := hpc' <;> exact ha.elim

lemma Sound.put (pc' : Pc) (ht : st.pcs[t]? = some pc) (hpc : pc.holds n) (hunl : ¬ pc.unlinks n)
    (hpc' : pc' = .idle ∨ pc.owns n ∧ n ∈ st.openSessions ∧ ∃ res, res ≠ .failed ∧ pc' = .entered n res) :
    ∃ st', st.putSession t n = .ok st' ∧ (st'.setPc t pc').Sound := by
  obtain ⟨-, hf, -⟩ := h.at_hand ht (Pc.hand_of_holds hpc)
  have hlock := (h.tended n).lock hf t
  refine ⟨_, putSession_eq hf ((h.tended n).refCount_pos ht hpc), h.releases _ _ ht hpc hunl hpc' rfl ?_ ⟨rfl, rfl, rfl⟩⟩
  by_cases he : pc.exclusive n
  · exact .inr ⟨he, if_pos (hlock.mpr ⟨pc, ht, he⟩)⟩
  · refine .inl ⟨if_neg fun hl => ?_, he⟩
    obtain ⟨pc1, hpc1, he1⟩ := hlock.mp hl
    exact he (mem_unique ht hpc1 ▸ he1)

lemma Sound.entered {res : Entry} (ht : st.pcs[t]? = some (.opened n)) (hres : res ≠ .failed) :
    ∃ st', st.putSession t n = .ok st' ∧ (st'.setPc t (.entered n res)).Sound := by
  obtain ⟨-, -, hlisted⟩ := h.at_hand ht rfl
  exact h.put _ ht rfl not_false (.inr ⟨rfl, hlisted, res, hres, rfl⟩)

lemma Sound.putAndFinish (ht : st.pcs[t]? = some (.got n p)) :
    ∃ st', st.putAndFinish t n p = .ok st' ∧ st'.Sound := by
  obtain ⟨-, -, -, hp⟩ := h.at_hand ht rfl
  obtain ⟨st', hst', hsound⟩ := h.put .idle ht rfl not_false (.inl rfl)
  rw [Sessions.putAndFinish, hst', finish_of_fits hp]
  exact ⟨_, rfl, hsound⟩

lemma Sound.acquires (pc' : Pc) (sess' : TaSession) (ht : st.pcs[t]? = some pc)
    (hpc : pc = .idle ∨ ∃ id, pc = .getting id n false) (hl : n ∈ st.openSessions) (hunl : (st.heap n).unlink = false)
    (hp : p.Fits n) (hclose : p.isClose → pc.owns n) (hinit : ∀ pc1 ∈ st.pcs, pc1 ≠ .initializing n)
    (hpc' : pc' = .got n p ∨ pc' = .waiting n p ∧ p ≠ .cancel) (hrefs : sess'.refCount = (st.heap n).refCount + 1)
    (hlock : (sess'.lockThread = (st.heap n).lockThread ∧ ¬ pc'.exclusive n) ∨
      ((st.heap n).lockThread = none ∧ sess'.lockThread = some t ∧ pc'.exclusive n))
    (hsess : sess'.id = (st.heap n).id ∧ sess'.freed = (st.heap n).freed ∧ sess'.unlink = (st.heap n).unlink) :
    ((st.set n sess').setPc t pc').Sound := by
  obtain ⟨hn, hf, -⟩ := h.valid n hl
  have hhand : ∀ k, pc.hand = some k → k = n := by
    obtain rfl | ⟨id, rfl⟩ := hpc <;> simp [eq_comm]
  have hexcl : ¬ pc.exclusive n := by obtain rfl | ⟨id, rfl⟩ := hpc <;> exact not_false
  have halone : ∀ pc1 ∈ st.pcs, ¬ pc1.alone n := by
    intro pc1 hpc1 ha
    cases pc1 with
    | initializing s =>
      obtain rfl : s = n := ha
      exact hinit _ hpc1 rfl
    | removed s q =>
      obtain rfl : s = n := ha
      exact ((h.tended s).hand _ hpc1 rfl).2.1 hl
    | _ => exact ha
  refine h.moves ht hhand ?_ hn
    { id := hsess.1
      freed := hsess.2.1
      fits := fun _ => ⟨hf, ?_⟩
      owns := fun ho => .inl ?_
      refs := ?_
      lock := fun _ => ?_
      unlink := fun hu => ?_
      hand := fun _ => .inr halone
      alone := fun ha => ?_ }
  · obtain rfl | ⟨rfl, -⟩ := hpc' <;> simp [eq_comm]
  · obtain rfl | ⟨rfl, hcancel⟩ := hpc'
    · exact ⟨hl, hp⟩
    · exact ⟨hl, hp, hcancel⟩
  · obtain rfl | ⟨rfl, -⟩ := hpc' <;> exact hclose ho.2
  · have hle : pc'.refs n ≤ 1 := by
      rw [Pc.refs]
      split <;> omega
    omega
  · obtain ⟨hk, he⟩ | hnew := hlock
    · exact .inl ⟨hk, iff_of_false he hexcl⟩
    · exact .inr (.inl hnew)
  · rw [hsess.2.2, hunl] at hu
    cases hu
  · obtain rfl | ⟨rfl, -⟩ := hpc' <;> exact ha.elim

lemma Sound.findSession (id : UInt32) : st.findSession id st.openSessions = .ok (st.lookup id) :=
  findSession_eq id fun n hn => (h.valid n hn).2.1

lemma Sound.lookup_id (hn : n ∈ st.openSessions) : st.lookup (st.heap n).id = some n := by
  cases hk : st.lookup (st.heap n).id with
  | none => exact absurd (find?_eq_none.mp hk n hn) (by simp)
  | some k =>
    obtain ⟨hmem, hid⟩ := lookup_eq_some hk
    rw [inj_on_of_nodup_map h.ids hmem hn hid]

lemma Sound.leave (ht : st.pcs[t]? = some pc) (hpc : pc = .idle ∨ ∃ id n, pc = .getting id n false) :
    (st.setPc t .idle).Sound := by
  obtain rfl | ⟨id, n, rfl⟩ := hpc
  · exact h.setPc_idle ht rfl
  · exact h.walk ht rfl rfl not_false not_false (by simp) (by simp) (by simp) not_false not_false

lemma Sound.getSession (ht : st.pcs[t]? = some pc) (hpc : pc = .idle ∨ ∃ n, pc = .getting id n false)
    (hp : ∀ n ∈ st.lookup id, p.Fits n ∧ (p.isClose → pc.owns n)) (hfin : finish p = .idle)
    (hinit : ∀ n ∈ st.lookup id, ∀ pc1 ∈ st.pcs, pc1 ≠ .initializing n) :
    ∃ st', st.getSession t id p = .ok st' ∧ st'.Sound := by
  have hleave := h.leave ht (hpc.imp_right fun ⟨n, hn⟩ => ⟨id, n, hn⟩)
  rw [Sessions.getSession, h.findSession, ok_bind]
  cases hlook : st.lookup id with
  | none => exact ⟨_, rfl, hfin ▸ hleave⟩
  | some n =>
    obtain ⟨hl, hid⟩ := lookup_eq_some hlook
    obtain ⟨hfits, hclose⟩ := hp n hlook
    have hf := (h.valid n hl).2.1
    have hpc : pc = .idle ∨ ∃ id, pc = .getting id n false := by
      refine hpc.imp_right fun ⟨m, hm⟩ => ⟨id, ?_⟩
      subst hm
      obtain ⟨-, -, hm, rfl, -⟩ := h.at_hand ht rfl
      obtain rfl := Option.some.inj ((h.lookup_id hm).symm.trans hlook)
      rfl
    dsimp only
    rw [deref_eq hf, ok_bind]
    by_cases hunl : (st.heap n).unlink = true
    · exact ⟨_, if_pos hunl, hfin ▸ hleave⟩
    rw [if_neg hunl]
    replace hunl : (st.heap n).unlink = false := by simpa using hunl
    have hacq := fun pc' sess' => h.acquires pc' sess' ht hpc hl hunl hfits hclose (hinit n hlook)
    by_cases hcancel : p = .cancel
    · rw [if_pos hcancel]
      exact ⟨_, rfl, hacq _ _ (.inl rfl) rfl (.inl ⟨rfl, fun he => he.2 hcancel⟩) ⟨rfl, rfl, rfl⟩⟩
    have hself : (st.heap n).lockThread ≠ some t := by
      intro hlock
      obtain ⟨pc1, hpc1, he⟩ := ((h.tended n).lock hf t).mp hlock
      obtain rfl := mem_unique ht hpc1
      obtain rfl | ⟨id, rfl⟩ := hpc <;> exact he
    rw [if_neg hcancel, check_eq hself, lock_eq (by simpa [set] using hf) (by simp [set, hunl])]
    refine ⟨_, rfl, ?_⟩
    split
    case isTrue hnone =>
      rw [set_set]
      refine hacq _ _ (.inl rfl) ?_ (.inr ⟨by simpa [set] using hnone, rfl, rfl, hcancel⟩) ?_
      · simp [set]
      · simp [set]
    · exact hacq _ _ (.inr ⟨rfl, hcancel⟩) rfl (.inl ⟨rfl, not_false⟩) ⟨rfl, rfl, rfl⟩

lemma Sound.wakes (ht : st.pcs[t]? = some (.waiting n p)) :
    ∃ st', st.lock t n p = .ok st' ∧ st'.Sound := by
  obtain ⟨hn, hf, hl, hp, hcancel⟩ := h.at_hand ht rfl
  by_cases hunl : (st.heap n).unlink = true
  · rw [lock, deref_eq hf, ok_bind, if_pos hunl, decSessionRefCount_eq hf ((h.tended n).refCount_pos ht rfl),
      finish_of_fits hp]
    exact ⟨_, rfl, h.releases _ _ ht rfl not_false (.inl rfl) rfl (.inl ⟨rfl, not_false⟩) ⟨rfl, rfl, rfl⟩⟩
  replace hunl : (st.heap n).unlink = false := by simpa using hunl
  rw [lock_eq hf hunl]
  refine ⟨_, rfl, ?_⟩
  split
  case isFalse =>
    rw [setPc, set_same ht]
    exact h
  case isTrue hnone =>
    exact h.moves ht (by simp [eq_comm]) (by simp [eq_comm]) hn
      { id := rfl
        freed := rfl
        fits := fun _ => ⟨hf, hl, hp⟩
        owns := .inl
        refs := by simp [Nat.add_comm]
        lock := fun _ => .inr (.inl ⟨hnone, rfl, rfl, hcancel⟩)
        unlink := fun hu => absurd (hunl.symm.trans hu) (by simp)
        hand := fun _ => .inl rfl
        alone := id }

lemma Sound.owns_of_unlinks (ht : st.pcs[t]? = some pc) (hu : pc.unlinks n) : pc.owns n := by
  obtain ⟨-, -, hfits⟩ := h.at_hand ht (Pc.hand_of_unlinks hu)
  cases pc with
  | unlinking s p | removed s p => exact ⟨hu, by rw [hfits.2]; trivial⟩
  | _ => exact hu.elim

lemma Sound.unlinkSession {csess : ℕ} {origin : Bool}
    (ht : st.pcs[t]? = some (.got n (.close csess origin))) :
    ∃ st', st.unlinkSession t n (.close csess origin) = .ok st' ∧ st'.Sound := by
  obtain ⟨hn, hf, hl, rfl, rfl⟩ := h.at_hand ht rfl
  have hlock : (st.heap csess).lockThread = some t := ((h.tended csess).lock hf t).mpr ⟨_, ht, rfl, by simp⟩
  have hunl : (st.heap csess).unlink = false := by
    by_contra hunl
    obtain ⟨pc0, hpc0, hu0⟩ := (h.tended csess).unlink hf (by simpa using hunl)
    obtain ⟨t0, ht0⟩ := mem_iff_getElem?.mp hpc0
    obtain rfl := (h.tended csess).owner _ _ _ _ ht ht0 ⟨rfl, trivial⟩ (h.owns_of_unlinks ht0 hu0)
    obtain rfl := mem_unique ht ht0
    exact hu0
  have hcount : (st.heap csess).refCount ≥ 1 := (h.tended csess).refCount_pos ht rfl
  rw [Sessions.unlinkSession, deref_eq hf, ok_bind, check_eq hcount, check_eq hlock, check_eq hunl]
  exact ⟨_, rfl, h.moves ht (by simp [eq_comm]) (by simp [eq_comm]) hn
    { id := rfl
      freed := rfl
      fits := fun _ => ⟨hf, hl, rfl⟩
      owns := .inl
      refs := by simp [Nat.add_comm]
      lock := fun _ => .inl ⟨rfl, by simp⟩
      unlink := fun _ => .inl rfl
      hand := fun _ => .inl rfl
      alone := id }⟩

lemma Sound.nodup : st.openSessions.Nodup := List.Nodup.of_map _ h.ids

lemma Sound.removeSession (ht : st.pcs[t]? = some (.unlinking n p)) :
    ∃ st', st.removeSession t n p = .ok st' ∧ st'.Sound := by
  obtain ⟨hn, hf, -, rfl⟩ := h.at_hand ht rfl
  rw [Sessions.removeSession, deref_eq hf, ok_bind]
  split
  case isTrue => exact ⟨st, rfl, h⟩
  case isFalse hcount =>
    have hcount : (st.heap n).refCount = 1 := not_not.mp hcount
    have hsolo := (h.tended n).hand_ne_of_refCount ht rfl ⟨rfl, trivial⟩ hcount.le
    have hnot : n ∉ st.openSessions.erase n := h.nodup.not_mem_erase
    have hlock : (st.heap n).lockThread = some t := ((h.tended n).lock hf t).mpr ⟨_, ht, rfl⟩
    refine ⟨_, rfl, ?_⟩
    rw [← st.set_heap n]
    exact h.replace ht (by simp [eq_comm]) (by simp [eq_comm]) hn erase_sublist (fun k hk => mem_erase_of_ne hk)
      (fun hl => absurd hl hnot) (Tended.solo ht hsolo (fun _ => ⟨hf, hnot, rfl⟩) (by simp [hcount])
        (fun _ t' => by simp [hlock, eq_comm]) fun _ _ => rfl)

lemma Sound.freed (ht : st.pcs[t]? = some pc) (halone : pc.alone n)
    (hsub : list.Sublist st.openSessions) (hlist : ∀ k, k ≠ n → (k ∈ list ↔ k ∈ st.openSessions)) (hnot : n ∉ list) :
    ({ st.set n { st.heap n with freed := true } with openSessions := list }.setPc t .idle).Sound := by
  have hsolo : ∀ (t' : ℕ) (pc1 : Pc), t' ≠ t → st.pcs[t']? = some pc1 → pc1.hand ≠ some n := fun t' pc1 hne h1 hh =>
    hne ((h.tended n).alone _ _ _ _ ht h1 halone hh).symm
  have hhand := Pc.hand_of_alone halone
  exact h.replace ht (fun k hk => mem_unique hk hhand) (by simp) (h.at_hand ht hhand).1 hsub hlist
    (fun hl => absurd hl hnot) (Tended.solo ht hsolo (by simp) (by simp) (by simp) (by simp))

lemma Sound.destroy (ht : st.pcs[t]? = some (.removed n p)) :
    ∃ st', (st.free n >>= fun st => .ok (st.setPc t (finish p))) = .ok st' ∧ st'.Sound := by
  obtain ⟨-, hf, hnot, rfl⟩ := h.at_hand ht rfl
  rw [free_eq hf]
  exact ⟨_, rfl, h.freed ht rfl (List.Sublist.refl _) (fun _ _ => Iff.rfl) hnot⟩

lemma Sound.initFailed (ht : st.pcs[t]? = some (.initializing n)) :
    ∃ st', st.initFailed t n = .ok st' ∧ st'.Sound := by
  obtain ⟨-, hf, -⟩ := h.at_hand ht rfl
  rw [Sessions.initFailed, free_eq (show ((st.remove n).heap n).freed = false from hf)]
  exact ⟨_, rfl, h.freed ht rfl erase_sublist (fun k hk => mem_erase_of_ne hk) h.nodup.not_mem_erase⟩

lemma Sound.newSessionIdFrom (saved : UInt32) (fuel : ℕ) (id : UInt32) :
    ∃ id', st.newSessionIdFrom saved fuel id = .ok id' ∧ (id' = 0 ∨ st.lookup id' = none) := by
  induction fuel generalizing id with
  | zero => exact ⟨0, rfl, .inl rfl⟩
  | succ fuel ih =>
    rw [Sessions.newSessionIdFrom, h.findSession, ok_bind]
    split
    case isTrue hnone => exact ⟨id, rfl, .inr hnone⟩
    case isFalse =>
      split
      · exact ⟨0, rfl, .inl rfl⟩
      · exact ih (nextId id)

lemma Sound.newSessionId : ∃ id, st.newSessionId = .ok id ∧ (id = 0 ∨ st.lookup id = none) := by
  have hfirst : ∃ id, st.firstId = .ok id := by
    unfold firstId
    split
    · exact ⟨_, rfl⟩
    case h_2 n hn =>
      rw [deref_eq (h.valid n (mem_of_getLast? hn)).2.1]
      exact ⟨_, rfl⟩
  obtain ⟨first, hfirst⟩ := hfirst
  rw [Sessions.newSessionId, hfirst]
  exact h.newSessionIdFrom first _ first

lemma Sound.initSession (ht : st.pcs[t]? = some .idle) : ∃ st', st.initSession t = .ok st' ∧ st'.Sound := by
  obtain ⟨id, hid, hfree⟩ := h.newSessionId
  rw [Sessions.initSession, hid, ok_bind]
  split
  case isTrue => exact ⟨st, rfl, h⟩
  case isFalse hzero =>
    refine ⟨_, rfl, ?_⟩
    have hlook : st.lookup id = none := hfree.resolve_left hzero
    have hne : ∀ k ∈ st.openSessions, k ≠ st.allocated := fun k hk he => absurd (h.valid k hk).1 (by omega)
    have hheap : ∀ k ∈ st.openSessions, update st.heap st.allocated ⟨id, 1, none, false, false⟩ k = st.heap k := fun k hk =>
      update_of_ne (hne k hk) _ _
    refine ⟨fun k => ?_, ?_, fun k hk => ?_, fun pc1 hpc1 k hk => ?_⟩
    · show Tended k (update st.heap st.allocated _ k) (k ∈ st.openSessions ++ [st.allocated])
        (st.pcs.set t (.initializing st.allocated))
      by_cases hk : k = st.allocated
      · rw [hk, update_self]
        exact Tended.solo ht (fun t' pc1 _ h1 hh => absurd (h.fresh pc1 (mem_of_getElem? h1) _ hh) (by omega))
          (fun _ => ⟨rfl, by simp⟩) (by simp) (by simp) (by simp)
      · have hmem : (k ∈ st.openSessions ++ [st.allocated]) = (k ∈ st.openSessions) := by simp [hk]
        rw [update_of_ne hk, hmem]
        exact (h.tended k).other ht (by simp) (by simpa [eq_comm] using hk)
    · show ((st.openSessions ++ [st.allocated]).map fun k => (update st.heap st.allocated _ k).id).Nodup
      rw [map_append, map_congr_left fun k hk => congrArg TaSession.id (hheap k hk)]
      refine nodup_append.mpr ⟨h.ids, nodup_singleton _, fun a ha b hb => ?_⟩
      obtain ⟨k, hk, rfl⟩ := mem_map.mp ha
      rw [mem_singleton.mp hb]
      simpa using find?_eq_none.mp hlook k hk
    · show k < st.allocated + 1 ∧ (update st.heap st.allocated _ k).freed = false ∧
        (update st.heap st.allocated _ k).id ≠ 0
      obtain hk | hk := mem_append.mp hk
      · rw [hheap k hk]
        exact ⟨Nat.lt_succ_of_lt (h.valid k hk).1, (h.valid k hk).2⟩
      · obtain rfl : k = st.allocated := mem_singleton.mp hk
        exact ⟨Nat.lt_succ_self _, by rw [update_self], by rw [update_self]; exact hzero⟩
    · obtain hpc1 | rfl := mem_or_eq_of_mem_set hpc1
      · exact Nat.lt_succ_of_lt (h.fresh pc1 hpc1 k hk)
      · obtain rfl := Option.some.inj hk
        exact Nat.lt_succ_self _

lemma Sound.found (ht : st.pcs[t]? = some .idle)
    (hfree : ∀ n ∈ st.lookup id, ∀ pc ∈ st.pcs, ¬ pc.owns n) :
    (st.setPc t ((st.lookup id).elim .idle .found)).Sound := by
  cases hlook : st.lookup id with
  | none => exact h.setPc_idle ht rfl
  | some n =>
    obtain ⟨hl, -⟩ := lookup_eq_some hlook
    obtain ⟨hn, hf, -⟩ := h.valid n hl
    have hown := hfree n hlook
    rw [← st.set_heap n]
    exact h.moves ht (by simp) (by simp [eq_comm]) hn
      { id := rfl
        freed := rfl
        fits := fun _ => ⟨hf, hl⟩
        owns := fun _ => .inr hown
        refs := by simp
        lock := fun _ => .inl ⟨rfl, by simp⟩
        unlink := fun hu => .inr ⟨hu, by simp⟩
        hand := fun _ => .inr fun pc hpc ha => by
          obtain ⟨t', ht'⟩ := mem_iff_getElem?.mp hpc
          refine hown pc hpc (Pc.owns_of_alone ha ?_)
          rintro s p rfl
          rw [(h.at_hand ht' rfl).2.2.2]
          trivial
        alone := False.elim }

end Walks

/-- No close of a session in use, no use of one that is set up, and an entered TA opens the session, panics or is
busy. -/
def Allowed (st : Sessions) (move : ℕ × Action) : Prop :=
  match move.2 with
  | .closeSession id => ∀ n ∈ st.lookup id, ∀ pc ∈ st.pcs, ¬ pc.owns n
  | .invokeCommand id | .cancel id => ∀ n ∈ st.lookup id, ∀ pc ∈ st.pcs, pc ≠ .initializing n
  | .entered res => res ≠ .failed
  | _ => True

instance (st : Sessions) (move : ℕ × Action) : Decidable (st.Allowed move) := by
  unfold Allowed
  split <;> infer_instance

lemma Sound.deref_bind {α : Type} {f : TaSession → Except Fault α} (ht : st.pcs[t]? = some pc)
    (hn : pc.hand = some n) : st.deref n >>= f = f (st.heap n) := by
  rw [deref_eq (h.at_hand ht hn).2.1, ok_bind]

lemma Sound.touch (ht : st.pcs[t]? = some pc) : st.touch pc = .ok st := by
  unfold Sessions.touch
  split
  · rfl
  case h_2 n hn => rw [h.deref_bind ht hn]

lemma Sound.getting {csess : ℕ} {origin : Bool} (ht : st.pcs[t]? = some (.getting id csess origin)) :
    ∃ st', st.getSession t id (.close csess origin) = .ok st' ∧ st'.Sound := by
  obtain ⟨-, -, hl, rfl, rfl⟩ := h.at_hand ht rfl
  have hlook := h.lookup_id hl
  refine h.getSession ht (.inr ⟨csess, rfl⟩) (fun n hn => ?_) rfl fun n hn pc1 hpc1 he => ?_
  · obtain rfl := mem_unique hlook hn
    exact ⟨⟨rfl, rfl⟩, fun _ => rfl⟩
  · obtain rfl := mem_unique hlook hn
    subst he
    obtain ⟨t1, h1⟩ := mem_iff_getElem?.mp hpc1
    obtain rfl := (h.tended csess).owner _ _ _ _ ht h1 rfl rfl
    cases ht.symm.trans h1

lemma Sound.go (ht : st.pcs[t]? = some pc) : ∃ st', st.go t pc = .ok st' ∧ st'.Sound := by
  cases pc with
  | entered n res =>
    obtain ⟨-, -, -, hres⟩ := h.at_hand ht rfl
    cases res with
    | success =>
      rw [Sessions.go, h.deref_bind ht rfl]
      exact ⟨_, rfl, h.returning ht⟩
    | failed => exact absurd rfl hres
    | dead => exact h.closeSession ht (.inr (.inl ⟨_, rfl⟩))
  | returning n =>
    rw [Sessions.go, h.deref_bind ht rfl]
    exact ⟨_, rfl, h.give_up ht (.inr rfl)⟩
  | found n => exact h.closeSession ht (.inr (.inr rfl))
  | getting id csess origin => exact h.getting ht
  | waiting n p => exact h.wakes ht
  | got n p =>
    cases p with
    | invoke | cancel => exact h.putAndFinish ht
    | close csess origin => exact h.unlinkSession ht
  | unlinking n p => exact h.removeSession ht
  | removed n p => exact h.destroy ht
  | origin n => exact (h.at_hand ht rfl).2.2.elim
  | idle | initializing n | opened n => exact ⟨st, rfl, h⟩

lemma Sound.step {a : Action} (ht : st.pcs[t]? = some pc) (ha : st.Allowed (t, a)) :
    ∃ st', st.act t pc a = .ok st' ∧ st'.Sound := by
  unfold act
  split
  · exact h.initSession ht
  · rw [h.findSession]
    exact ⟨_, rfl, h.found ht ha⟩
  · exact h.getSession ht (.inl rfl) (fun n _ => ⟨trivial, False.elim⟩) rfl ha
  · exact h.getSession ht (.inl rfl) (fun n _ => ⟨trivial, False.elim⟩) rfl ha
  · rw [h.deref_bind ht rfl]
    exact ⟨_, rfl, h.initialized ht⟩
  · exact h.initFailed ht
  · rw [h.deref_bind ht rfl]
    exact ⟨_, rfl, h.give_up ht (.inl rfl)⟩
  · exact h.closeSession ht (.inl rfl)
  · obtain ⟨st', hst', hsound⟩ := h.entered ht ha
    rw [hst']
    exact ⟨_, rfl, hsound⟩
  · exact h.putAndFinish ht
  · exact ⟨st, h.touch ht, h⟩
  · exact h.go ht
  · exact ⟨st, rfl, h⟩

end

/-- The sessions in the list can be told apart, and the lock of a session is with the only thread that uses it exclusively. -/
structure Safe (st : Sessions) : Prop where
  ids : (st.openSessions.map fun n => (st.heap n).id).Nodup
  nonzero : ∀ n ∈ st.openSessions, (st.heap n).id ≠ 0
  listed : ∀ n ∈ st.openSessions, (st.heap n).freed = false
  lock : ∀ n, (st.heap n).freed = false → ∀ t, (st.heap n).lockThread = some t ↔ ∃ pc, st.pcs[t]? = some pc ∧ pc.exclusive n

def toyRun : List (ℕ × Action) :=
  [(0, .openSession), (0, .initialized true), (0, .entered .success), (0, .go), (0, .go), (0, .invokeCommand 1),
    (1, .cancel 1), (1, .touch), (2, .closeSession 1), (2, .go), (2, .go), (1, .go), (0, .go), (2, .go), (2, .go), (2, .go),
    (2, .go)]

def toyRefused : List (ℕ × Action) :=
  [(0, .openSession), (0, .initialized true), (0, .entered .failed), (0, .go), (0, .go), (0, .go), (0, .go), (0, .go),
    (0, .go)]

def toyTwice : List (ℕ × Action) :=
  [(0, .openSession), (0, .initialized true), (0, .entered .success), (0, .go), (0, .go), (0, .closeSession 1),
    (1, .closeSession 1), (0, .go), (0, .go), (0, .go), (0, .go), (0, .go), (1, .go)]

def toyEarly : List (ℕ × Action) :=
  [(0, .openSession), (0, .initialized true), (0, .entered .success), (0, .go), (1, .closeSession 1), (1, .go), (1, .go),
    (1, .go), (1, .go), (1, .go), (0, .go)]

def toyNoTa : List (ℕ × Action) :=
  [(0, .openSession), (1, .cancel 1), (0, .initialized false), (1, .touch)]

def fault? : Except Fault Sessions → Option Fault
  | .ok _ => none
  | .error e => some e

end Sessions

end Optee.Ta.SessionList
