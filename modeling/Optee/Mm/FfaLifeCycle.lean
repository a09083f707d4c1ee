import Mathlib.Data.List.Count
import Optee.Lib.Threads
import Optee.Mm.FfaObjects

/-! The life of a shared memory object. -/

namespace Optee.Mm.Ffa

open Lib Lib.Runs Lib.Threads List BitString

def Pc.owns (r : ℕ) : Pc → ℕ
  | .made s | .delete s | .free s => if s = r then 1 else 0
  | _ => 0

def Pc.drops (r : ℕ) : Pc → ℕ
  | .inactivate s => if s = r then 1 else 0
  | _ => 0

def Pc.frees (r : ℕ) : Pc → ℕ
  | .free s => if s = r then 1 else 0
  | _ => 0

def Pc.obj? : Pc → Option ℕ
  | .idle => none
  | .made r | .inactivate r | .delete r | .free r => some r

structure Fine (head inactive owners droppers : ℕ) (o : Obj) : Prop where
  place : head + inactive + owners = if o.freed then 0 else 1
  refs : o.refc = o.refs
  active : o.refc ≠ 0 → head = 1
  drop : droppers = if head = 1 ∧ o.refc = 0 then 1 else 0
  pages : 0 < o.numPages ∧ o.numPages < 2 ^ 20
  size : o.size + o.pageOffset = o.numPages * 4096 ∧ o.pageOffset < 4096

lemma Fine.relocate {head inactive owners droppers inactive' owners' droppers' : ℕ} {o : Obj}
    (h : Fine head inactive owners droppers o) (hfreed : o.freed = false) (hrefc : o.refc = 0)
    (hplace : inactive' + owners' = 1) (hdrop : droppers' = 0) : Fine 0 inactive' owners' droppers' o := by
  refine ⟨?_, h.refs, fun hne => absurd hrefc hne, ?_, h.pages, h.size⟩
  · rw [hfreed, if_neg (by simp)]
    omega
  · exact hdrop

namespace World

def owners (w : World) (r : ℕ) : ℕ := (w.threads.map (Pc.owns r)).sum

def droppers (w : World) (r : ℕ) : ℕ := (w.threads.map (Pc.drops r)).sum

def freers (w : World) (r : ℕ) : ℕ := (w.threads.map (Pc.frees r)).sum

def Reserved (w : World) (r : ℕ) (o : Obj) : Prop := w.objs[r]? = some o ∧ o.freed = false ∧ w.freers r = 0

structure Cookies (w : World) : Prop where
  bit : ∀ r o, w.Reserved r o → o.index < 64 ∧ BitString.test w.shmBits o.index = true
  distinct : ∀ r o s o', w.Reserved r o → w.Reserved s o' → o.index = o'.index → r = s

structure Sound (w : World) : Prop where
  fine : ∀ r o, w.objs[r]? = some o →
    Fine (w.shmHead.count r) (w.shmInactiveHead.count r) (w.owners r) (w.droppers r) o
  known : ∀ r, w.objs[r]? = none →
    w.shmHead.count r = 0 ∧ w.shmInactiveHead.count r = 0 ∧ w.owners r = 0 ∧ w.droppers r = 0
  cookies : w.Cookies

variable {w w' : World} {t r s : ℕ} {o o' : Obj} {pc pc' : Pc}

lemma owners_set (ht : w.threads[t]? = some pc) (h : w'.threads = w.threads.set t pc') (s : ℕ) :
    w'.owners s + pc.owns s = w.owners s + pc'.owns s := by
  rw [owners, h]
  exact sum_set (Pc.owns s) ht pc'

lemma droppers_set (ht : w.threads[t]? = some pc) (h : w'.threads = w.threads.set t pc') (s : ℕ) :
    w'.droppers s + pc.drops s = w.droppers s + pc'.drops s := by
  rw [droppers, h]
  exact sum_set (Pc.drops s) ht pc'

lemma freers_set (ht : w.threads[t]? = some pc) (h : w'.threads = w.threads.set t pc') (s : ℕ) :
    w'.freers s + pc.frees s = w.freers s + pc'.frees s := by
  rw [freers, h]
  exact sum_set (Pc.frees s) ht pc'

lemma of_obj?_ne (h : pc.obj?.getD r = r) (hs : s ≠ r) : pc.owns s = 0 ∧ pc.drops s = 0 := by
  cases pc <;> simp_all [Pc.obj?, Pc.owns, Pc.drops, Ne.symm hs]

lemma threads_same (ht : w.threads[t]? = some pc) (hthreads : w'.threads = w.threads.set t pc')
    (hpc : pc.obj?.getD r = r) (hpc' : pc'.obj?.getD r = r) (s : ℕ) (hs : s ≠ r) :
    w'.owners s = w.owners s ∧ w'.droppers s = w.droppers s := by
  have h1 := owners_set ht hthreads s
  have h2 := droppers_set ht hthreads s
  obtain ⟨e1, e2⟩ := of_obj?_ne hpc hs
  obtain ⟨f1, f2⟩ := of_obj?_ne hpc' hs
  omega

lemma Sound.move (h : w.Sound) (ht : w.threads[t]? = some pc) (hthreads : w'.threads = w.threads.set t pc')
    (hpc : pc.obj?.getD r = r) (hpc' : pc'.obj?.getD r = r)
    (hobjs : ∀ s ≠ r, w'.objs[s]? = w.objs[s]?) (hhead : ∀ s ≠ r, w'.shmHead.count s = w.shmHead.count s)
    (hinactive : ∀ s ≠ r, w'.shmInactiveHead.count s = w.shmInactiveHead.count s) (ho : w'.objs[r]? = some o')
    (hfine : ∀ owners droppers, owners + pc.owns r = w.owners r + pc'.owns r →
      droppers + pc.drops r = w.droppers r + pc'.drops r →
      Fine (w'.shmHead.count r) (w'.shmInactiveHead.count r) owners droppers o')
    (hcookies : w'.Cookies) : w'.Sound := by
  have hsame := threads_same ht hthreads hpc hpc'
  refine ⟨fun s p hp => ?_, fun s hs => ?_, hcookies⟩
  · by_cases hrs : s = r
    · subst hrs
      rw [ho] at hp
      cases hp
      exact hfine _ _ (owners_set ht hthreads s) (droppers_set ht hthreads s)
    · rw [hhead s hrs, hinactive s hrs, (hsame s hrs).1, (hsame s hrs).2]
      exact h.fine s p (hobjs s hrs ▸ hp)
  · have hrs : s ≠ r := by
      rintro rfl
      rw [ho] at hs
      cases hs
    rw [hhead s hrs, hinactive s hrs, (hsame s hrs).1, (hsame s hrs).2]
    exact h.known s (hobjs s hrs ▸ hs)

lemma Cookies.of_reserved (h : w.Cookies) (hbits : w'.shmBits = w.shmBits)
    (hsub : ∀ r o', w'.Reserved r o' → ∃ o, w.Reserved r o ∧ o.index = o'.index) : w'.Cookies := by
  refine ⟨fun r o' hr => ?_, fun r o' s p' hr hs he => ?_⟩
  · obtain ⟨o, ho, hi⟩ := hsub r o' hr
    rw [hbits, ← hi]
    exact h.bit r o ho
  · obtain ⟨o, ho, hi⟩ := hsub r o' hr
    obtain ⟨p, hp, hj⟩ := hsub s p' hs
    exact h.distinct r o s p ho hp (by rw [hi, hj, he])

variable {cookie : ℕ}

section Lists

lemma Sound.access_eq_ok (h : w.Sound) (hr : 0 < w.shmHead.count r + w.shmInactiveHead.count r + w.owners r) :
    ∃ o, w.objs[r]? = some o ∧ access w.objs r = .ok o ∧ o.freed = false := by
  cases ho : w.objs[r]? with
  | none =>
    have := h.known r ho
    omega
  | some o =>
    have hplace := (h.fine r o ho).place
    have hfreed : o.freed = false := by
      by_contra hne
      rw [if_pos (Bool.eq_true_of_not_eq_false hne)] at hplace
      omega
    rw [access, ho]
    simp [hfreed]

variable {rs : List ℕ} {objs : List Obj}

lemma findInList_eq_ok (h : ∀ r ∈ rs, ∃ o, objs[r]? = some o ∧ access objs r = .ok o) :
    ∃ x, findInList objs cookie rs = .ok x ∧ (∀ r o, x = some (r, o) → r ∈ rs ∧ objs[r]? = some o ∧ o.cookie = cookie) ∧
      (x = none → ∀ r ∈ rs, ∀ o, objs[r]? = some o → o.cookie ≠ cookie) := by
  induction rs with
  | nil => exact ⟨none, rfl, nofun, nofun⟩
  | cons r rs ih =>
    obtain ⟨⟨o, ho, haccess⟩, hrs⟩ := forall_mem_cons.mp h
    obtain ⟨x, hx, hsome, hnone⟩ := ih hrs
    rw [findInList, haccess, ok_bind]
    split_ifs with hc
    · refine ⟨_, rfl, ?_, nofun⟩
      rintro r' o' ⟨⟩
      exact ⟨mem_cons_self, ho, hc⟩
    · refine ⟨x, hx, fun r' o' he => ?_, fun he => ?_⟩
      · obtain ⟨hmem, hrest⟩ := hsome r' o' he
        exact ⟨mem_cons_of_mem r hmem, hrest⟩
      · rw [forall_mem_cons]
        refine ⟨fun o' ho' => ?_, hnone he⟩
        rw [ho] at ho'
        cases ho'
        exact hc

lemma findInList_eq_none (h : ∀ r ∈ rs, ∃ o, objs[r]? = some o ∧ access objs r = .ok o)
    (hne : ∀ r ∈ rs, ∀ o, objs[r]? = some o → o.cookie ≠ cookie) : findInList objs cookie rs = .ok none := by
  obtain ⟨x, hx, hsome, -⟩ := findInList_eq_ok h
  cases x with
  | none => exact hx
  | some q =>
    obtain ⟨hmem, hq, hcookie⟩ := hsome q.1 q.2 rfl
    exact absurd hcookie (hne q.1 hmem q.2 hq)

lemma Sound.access_listed (h : w.Sound) (hrs : ∀ r ∈ rs, 0 < w.shmHead.count r + w.shmInactiveHead.count r) :
    ∀ r ∈ rs, ∃ o, w.objs[r]? = some o ∧ access w.objs r = .ok o := by
  intro r hr
  have := hrs r hr
  obtain ⟨o, ho, haccess, -⟩ := h.access_eq_ok (r := r) (by omega)
  exact ⟨o, ho, haccess⟩

lemma listed_head (r : ℕ) (hr : r ∈ w.shmHead) : 0 < w.shmHead.count r + w.shmInactiveHead.count r := by
  have := count_pos_iff.mpr hr
  omega

lemma listed_inactive (r : ℕ) (hr : r ∈ w.shmInactiveHead) : 0 < w.shmHead.count r + w.shmInactiveHead.count r := by
  have := count_pos_iff.mpr hr
  omega

lemma Sound.find (h : w.Sound) (hrs : ∀ r ∈ rs, 0 < w.shmHead.count r + w.shmInactiveHead.count r) (cookie : ℕ) :
    ∃ x, findInList w.objs cookie rs = .ok x ∧
      (∀ r o, x = some (r, o) → r ∈ rs ∧ w.objs[r]? = some o ∧ o.cookie = cookie) ∧
      (x = none → ∀ r ∈ rs, ∀ o, w.objs[r]? = some o → o.cookie ≠ cookie) :=
  findInList_eq_ok (h.access_listed hrs)

end Lists

lemma freers_le_owners (w : World) (r : ℕ) : w.freers r ≤ w.owners r := by
  refine sum_le_sum fun pc _ => ?_
  cases pc <;> simp [Pc.frees, Pc.owns]

lemma freers_eq_zero (ht : w.threads[t]? = some pc) (howner : pc.owns r = 1) (hfrees : pc.frees r = 0)
    (hone : w.owners r = 1) : w.freers r = 0 := by
  have h1 : (w.setPc t .idle).owners r + pc.owns r = w.owners r + Pc.owns r .idle := owners_set ht rfl r
  have h2 : (w.setPc t .idle).freers r + pc.frees r = w.freers r + Pc.frees r .idle := freers_set ht rfl r
  have hle := freers_le_owners (w.setPc t .idle) r
  have h3 : Pc.owns r .idle = 0 := rfl
  omega

lemma Sound.reserved_of_listed (h : w.Sound) (hr : 0 < w.shmHead.count r + w.shmInactiveHead.count r)
    (ho : w.objs[r]? = some o) : w.Reserved r o := by
  obtain ⟨o', ho', -, hfreed⟩ := h.access_eq_ok (r := r) (by omega)
  rw [ho] at ho'
  cases ho'
  have hplace := (h.fine r o ho).place
  rw [if_neg (by simp [hfreed])] at hplace
  have := freers_le_owners w r
  exact ⟨ho, hfreed, by omega⟩

lemma freers_zero (ht : w.threads[t]? = some pc) (hthreads : w'.threads = w.threads.set t pc')
    (hpc : pc.frees s = 0) (h : w'.freers s = 0) : w.freers s = 0 := by
  have := freers_set ht hthreads s
  omega

lemma Cookies.of_set (h : w.Cookies) (hbits : w'.shmBits = w.shmBits) (ho : w.objs[r]? = some o)
    (hobjs : w'.objs = w.objs.set r o') (hindex : o'.index = o.index) (hfreed : o'.freed = o.freed)
    (hfreers : ∀ s, w'.freers s = 0 → w.freers s = 0) : w'.Cookies := by
  refine h.of_reserved hbits fun s p hs => ?_
  obtain ⟨hp, hlive, hzero⟩ := hs
  rw [hobjs] at hp
  obtain ⟨rfl, rfl⟩ | ⟨-, hp⟩ := set_cases ho hp
  · exact ⟨o, ⟨ho, hfreed ▸ hlive, hfreers s hzero⟩, hindex.symm⟩
  · exact ⟨p, ⟨hp, hlive, hfreers s hzero⟩, rfl⟩

lemma Cookies.clear (h : w.Cookies) (ht : w.threads[t]? = some (.delete r)) (hr : w.Reserved r o)
    (hobjs : w'.objs = w.objs) (hbits : w'.shmBits = BitString.clear w.shmBits o.index)
    (hthreads : w'.threads = w.threads.set t (.free r)) : w'.Cookies := by
  have hother : ∀ s p, w'.Reserved s p → s ≠ r ∧ w.Reserved s p := by
    rintro s p ⟨hp, hlive, hzero⟩
    refine ⟨?_, hobjs ▸ hp, hlive, freers_zero ht hthreads rfl hzero⟩
    rintro rfl
    have hfreers := freers_set ht hthreads s
    simp only [Pc.frees, if_true] at hfreers
    omega
  refine ⟨fun s p hs => ?_, fun s p s' p' hs hs' => ?_⟩
  · obtain ⟨hne, hs⟩ := hother s p hs
    obtain ⟨hlt, htest⟩ := h.bit s p hs
    refine ⟨hlt, ?_⟩
    rw [hbits, test_clear, htest, Bool.true_and, decide_eq_true_iff]
    exact fun he => hne (h.distinct s p r o hs hr he)
  · exact h.distinct s p s' p' (hother s p hs).2 (hother s' p' hs').2

section Steps

variable {numPages internalOffs : ℕ}

lemma Cookies.addObj (h : w.Cookies) (ht : w.threads[t]? = some .idle) (hi : BitString.firstClear w.shmBits < 64) :
    (w.addObj t numPages (BitString.firstClear w.shmBits)).Cookies := by
  have hold : ∀ s p, (w.addObj t numPages (BitString.firstClear w.shmBits)).Reserved s p →
      w.Reserved s p ∨ s = w.objs.length ∧ p.index = BitString.firstClear w.shmBits := by
    rintro s p ⟨hp, hlive, hzero⟩
    have hp : (w.objs ++ [newObj numPages (BitString.firstClear w.shmBits)])[s]? = some p := hp
    by_cases hs : s = w.objs.length
    · subst hs
      rw [getElem?_append_right le_rfl, Nat.sub_self] at hp
      cases hp
      exact .inr ⟨rfl, rfl⟩
    · rw [append_other hs] at hp
      exact .inl ⟨hp, hlive, freers_zero ht rfl rfl hzero⟩
  have hclear : ∀ s p, w.Reserved s p → p.index ≠ BitString.firstClear w.shmBits := by
    intro s p hs he
    have htest := (h.bit s p hs).2
    rw [he, test_firstClear] at htest
    cases htest
  refine ⟨fun s p hs => ?_, fun s p s' p' hs hs' he => ?_⟩
  · show p.index < 64 ∧ BitString.test (BitString.set _ _) p.index = true
    rw [test_set]
    obtain hs | ⟨-, hindex⟩ := hold s p hs
    · obtain ⟨hlt, htest⟩ := h.bit s p hs
      exact ⟨hlt, by rw [htest, Bool.or_true]⟩
    · exact ⟨hindex ▸ hi, by rw [hindex, decide_eq_true rfl, Bool.true_or]⟩
  · obtain hs | ⟨hs, hindex⟩ := hold s p hs
    · obtain hs' | ⟨-, hindex'⟩ := hold s' p' hs'
      · exact h.distinct s p s' p' hs hs' he
      · exact absurd (he.trans hindex') (hclear s p hs)
    · obtain hs' | ⟨hs', -⟩ := hold s' p' hs'
      · exact absurd (he.symm.trans hindex) (hclear s' p' hs')
      · rw [hs, hs']

lemma Sound.addObj (h : w.Sound) (ht : w.threads[t]? = some .idle) (hpos : numPages ≠ 0) (hn : numPages < 2 ^ 20)
    (hi : BitString.firstClear w.shmBits < 64) : (w.addObj t numPages (BitString.firstClear w.shmBits)).Sound := by
  obtain ⟨hhead, hinactive, howners, hdroppers⟩ := h.known w.objs.length (getElem?_eq_none le_rfl)
  refine h.move ht rfl rfl rfl (fun s hs => append_other hs) (fun _ _ => rfl)
    (fun _ _ => rfl) getElem?_concat_length (fun own drop hown hdrop => ?_) (h.cookies.addObj ht hi)
  simp only [Pc.owns, Pc.drops, if_true] at hown hdrop
  show Fine (w.shmHead.count _) (w.shmInactiveHead.count _) own drop (newObj numPages _)
  rw [hhead, hinactive]
  refine ⟨?_, rfl, fun h => absurd rfl h, ?_, ⟨pos_of_ne_zero hpos, hn⟩, ?_, Nat.zero_lt_succ _⟩
  · show 0 + 0 + own = 1
    omega
  · rw [if_neg (by simp)]
    omega
  · show numPages * 4096 % 2 ^ 32 + 0 = numPages * 4096
    omega

lemma Sound.sel1SpmcNew (h : w.Sound) (ht : w.threads[t]? = some .idle) {memory : Bool} (hn : numPages < 2 ^ 20) :
    (w.sel1SpmcNew t numPages memory).Sound := by
  rw [World.sel1SpmcNew]
  split
  · exact h
  · next hnew =>
    split
    · next hi => exact h.addObj ht (fun h0 => hnew (.inl h0)) hn hi
    · exact h

lemma Sound.owned (h : w.Sound) (ht : w.threads[t]? = some pc) (howns : pc.owns r = 1) :
    ∃ o, w.objs[r]? = some o ∧ access w.objs r = .ok o ∧ o.freed = false ∧ o.refc = 0 ∧ w.shmHead.count r = 0 ∧
      w.shmInactiveHead.count r = 0 ∧ w.owners r = 1 ∧ w.droppers r = 0 := by
  have hle : pc.owns r ≤ w.owners r := le_sum (Pc.owns r) (mem_of_getElem? ht)
  obtain ⟨o, ho, haccess, hfreed⟩ := h.access_eq_ok (r := r) (by omega)
  have hfine := h.fine r o ho
  have hplace := hfine.place
  rw [hfreed, if_neg (by simp)] at hplace
  have hdrop := hfine.drop
  rw [if_neg (by omega)] at hdrop
  have hrefc : o.refc = 0 := by
    by_contra hne
    have := hfine.active hne
    omega
  exact ⟨o, ho, haccess, hfreed, hrefc, by omega, by omega, by omega, hdrop⟩

lemma Sound.inactive (h : w.Sound) (hr : r ∈ w.shmInactiveHead) (ho : w.objs[r]? = some o) :
    o.freed = false ∧ o.refc = 0 ∧ w.shmHead.count r = 0 ∧ w.shmInactiveHead.count r = 1 ∧ w.owners r = 0 ∧
      w.droppers r = 0 := by
  have hpos := count_pos_iff.mpr hr
  obtain ⟨-, hfreed, -⟩ := h.reserved_of_listed (by omega) ho
  have hfine := h.fine r o ho
  have hplace := hfine.place
  rw [hfreed, if_neg (by simp)] at hplace
  have hdrop := hfine.drop
  rw [if_neg (by omega)] at hdrop
  have hrefc : o.refc = 0 := by
    by_contra hne
    have := hfine.active hne
    omega
  exact ⟨hfreed, hrefc, by omega, by omega, by omega, hdrop⟩

lemma check_of {p : Prop} [Decidable p] (h : p) : check p = .ok () := if_pos h

section

variable (h : w.Sound)
include h

lemma Sound.pushToInactive (ht : w.threads[t]? = some (.made r)) : ∃ w', w.pushToInactive t r = .ok w' ∧ w'.Sound := by
  have howns : Pc.owns r (.made r) = 1 := if_pos rfl
  obtain ⟨o, ho, haccess, hfreed, hrefc, hhead, hinactive, hown, hdrop⟩ := h.owned ht howns
  have hreserved : w.Reserved r o := ⟨ho, hfreed, freers_eq_zero ht howns rfl hown⟩
  have hunlisted : ∀ s p, 0 < w.shmHead.count s + w.shmInactiveHead.count s → w.objs[s]? = some p →
      p.cookie ≠ o.cookie := by
    intro s p hs hp he
    obtain rfl := h.cookies.distinct s p r o (h.reserved_of_listed hs hp) hreserved (Nat.add_left_cancel he)
    omega
  rw [World.pushToInactive, haccess, check_of (count_eq_zero.mp hinactive), ok_bind,
    findInList_eq_none (h.access_listed listed_inactive) fun s hs p => hunlisted s p (listed_inactive s hs),
    findInList_eq_none (h.access_listed listed_head) fun s hs p => hunlisted s p (listed_head s hs)]
  refine ⟨_, rfl, h.move ht rfl rfl rfl (fun _ _ => rfl) (fun _ _ => rfl)
    (fun s hs => count_cons_of_ne hs.symm) ho (fun own drop hown' hdrop' => ?_) ?_⟩
  · simp only [Pc.owns, Pc.drops, if_true] at hown' hdrop'
    rw [count_cons_self]
    rw [hhead]
    exact (h.fine r o ho).relocate hfreed hrefc (by omega) (by omega)
  · exact h.cookies.of_reserved rfl fun s p ⟨hp, hlive, hzero⟩ => ⟨p, ⟨hp, hlive, freers_zero ht rfl rfl hzero⟩, rfl⟩

section

variable (ht : w.threads[t]? = some .idle)
include ht

lemma Sound.setObj (ho : w.objs[r]? = some o)
    (hindex : o'.index = o.index) (hfreed : o'.freed = o.freed)
    (hfine : Fine (w.shmHead.count r) (w.shmInactiveHead.count r) (w.owners r) (w.droppers r) o') :
    (w.setObj r o').Sound := by
  refine h.move ht (set_same ht).symm rfl rfl (fun s hs => set_other hs.symm) (fun _ _ => rfl) (fun _ _ => rfl)
    (set_self ho) (fun own drop hown hdrop => ?_) (h.cookies.of_set rfl ho rfl hindex hfreed fun _ => id)
  rw [Nat.add_right_cancel hown, Nat.add_right_cancel hdrop]
  exact hfine

lemma Sound.getActive (ho : w.objs[r]? = some o)
    (hpos : o.refc ≠ 0) (hmax : o.refc < 2 ^ 32 - 1) (internalOffs : ℕ) : (w.getActive r o internalOffs).Sound := by
  rw [World.getActive, Nat.mod_eq_of_lt (by omega)]
  split
  · have hfine := h.fine r o ho
    have hdrop := hfine.drop
    rw [if_neg fun hc => hpos hc.2] at hdrop
    refine h.setObj ht ho rfl rfl ⟨hfine.place, ?_, fun _ => hfine.active hpos, ?_, hfine.pages, hfine.size⟩
    · exact congrArg (· + 1) hfine.refs
    · rw [if_neg fun hc => Nat.succ_ne_zero _ hc.2]
      exact hdrop
  · exact h

lemma Sound.activate (hr : r ∈ w.shmInactiveHead)
    (ho : w.objs[r]? = some o) (hoffs : internalOffs < 4096) :
    ∃ w', w.activate r o internalOffs = .ok w' ∧ w'.Sound := by
  obtain ⟨hfreed, hrefc, hhead, hinactive, hown, hdrop⟩ := h.inactive hr ho
  have hfine := h.fine r o ho
  obtain ⟨hpages, hbound⟩ := hfine.pages
  obtain ⟨hsize, hoffset⟩ := hfine.size
  have hwhole : (o.size + o.pageOffset) % 2 ^ 64 = o.numPages * 4096 := by omega
  rw [World.activate, check_of hrefc]
  simp only [hwhole]
  rw [check_of (show o.numPages * 4096 % smallPageSize = 0 from Nat.mul_mod_left _ _)]
  refine ⟨_, rfl, h.move ht (set_same ht).symm rfl rfl (fun s hs => set_other hs.symm)
    (fun s hs => count_cons_of_ne hs.symm) (fun s hs => count_erase_of_ne hs) (set_self ho)
    (fun own drop hown' hdrop' => ?_) (h.cookies.of_set rfl ho rfl rfl rfl fun _ => id)⟩
  rw [Nat.add_right_cancel hown', Nat.add_right_cancel hdrop', count_cons_self]
  rw [count_erase_self, hhead, hinactive, hown, hdrop]
  refine ⟨?_, ?_, fun _ => rfl, ?_, ⟨hpages, hbound⟩, ?_, hoffs⟩
  · rw [hfreed, if_neg (by simp)]
  · rw [← hfine.refs, hrefc]
  · rw [if_neg (by simp)]
  · show (o.numPages * 4096 + 2 ^ 64 - internalOffs) % 2 ^ 64 + internalOffs = o.numPages * 4096
    omega

lemma Sound.getByCookie
    (hsafe : ∀ r ∈ w.shmHead, ∀ o ∈ w.objs[r]?, o.cookie = cookie → o.refc ≠ 0 ∧ o.refc < 2 ^ 32 - 1) :
    ∃ w', w.getByCookie cookie internalOffs = .ok w' ∧ w'.Sound := by
  rw [World.getByCookie]
  split
  · exact ⟨w, rfl, h⟩
  next hoffs =>
  obtain ⟨x, hx, hsome, -⟩ := h.find listed_head cookie
  rw [hx]
  cases x with
  | some q =>
    obtain ⟨hmem, hq, hcookie⟩ := hsome q.1 q.2 rfl
    obtain ⟨hpos, hmax⟩ := hsafe q.1 hmem q.2 hq hcookie
    exact ⟨_, rfl, h.getActive ht hq hpos hmax internalOffs⟩
  | none =>
    obtain ⟨y, hy, hysome, -⟩ := h.find listed_inactive cookie
    rw [hy]
    cases y with
    | some q =>
      obtain ⟨hmem, hq, -⟩ := hysome q.1 q.2 rfl
      exact h.activate ht hmem hq (Nat.lt_of_not_le hoffs)
    | none => exact ⟨w, rfl, h⟩

lemma Sound.mobjPut (r : ℕ) : ∃ w', w.mobjPut t r = .ok w' ∧ w'.Sound := by
  rw [World.mobjPut]
  cases ho : w.objs[r]? with
  | none => exact ⟨w, rfl, h⟩
  | some o =>
    dsimp only
    split
    · exact ⟨w, rfl, h⟩
    next hrefs =>
    have hfine := h.fine r o ho
    have hrefc : o.refc ≠ 0 := fun h0 => hrefs (hfine.refs ▸ h0)
    have hhead := hfine.active hrefc
    have hdrop := hfine.drop
    rw [if_neg fun hc => hrefc hc.2] at hdrop
    obtain ⟨o', ho', haccess, -⟩ := h.access_eq_ok (r := r) (by omega)
    rw [ho] at ho'
    cases ho'
    rw [haccess, ok_bind, check_of hrefc]
    refine ⟨_, rfl, ?_⟩
    split_ifs with hone
    · refine h.move ht rfl rfl rfl (fun s hs => set_other hs.symm)
        (fun _ _ => rfl) (fun _ _ => rfl) (set_self ho) (fun own drop hown' hdrop' => ?_)
        (h.cookies.of_set rfl ho rfl rfl rfl fun s => freers_zero ht rfl rfl)
      simp only [Pc.owns, Pc.drops, if_true] at hown' hdrop'
      refine ⟨?_, congrArg (· - 1) hfine.refs, fun _ => hhead, ?_, hfine.pages, hfine.size⟩
      · rw [show own = w.owners r by omega]
        exact hfine.place
      · rw [if_pos ⟨hhead, show o.refc - 1 = 0 by omega⟩]
        omega
    · refine h.setObj ht ho rfl rfl
        ⟨hfine.place, congrArg (· - 1) hfine.refs, fun _ => hhead, ?_, hfine.pages, hfine.size⟩
      rw [if_neg fun hc => hone (by have : o.refc - 1 = 0 := hc.2; omega)]
      exact hdrop

end

lemma Sound.ffaInactivate (ht : w.threads[t]? = some (.inactivate r)) :
    ∃ w', w.ffaInactivate t r = .ok w' ∧ w'.Sound := by
  have hpos : 0 < w.droppers r := by
    have := le_sum (Pc.drops r) (mem_of_getElem? ht)
    simp only [Pc.drops, if_true] at this
    exact this
  cases ho : w.objs[r]? with
  | none =>
    have := h.known r ho
    omega
  | some o =>
    have hfine := h.fine r o ho
    have hdrop := hfine.drop
    have hzero : w.shmHead.count r = 1 ∧ o.refc = 0 := by
      by_contra hne
      rw [if_neg hne] at hdrop
      omega
    rw [if_pos hzero] at hdrop
    obtain ⟨hhead, hrefc⟩ := hzero
    obtain ⟨o', ho', haccess, hfreed⟩ := h.access_eq_ok (r := r) (by omega)
    rw [ho] at ho'
    cases ho'
    have hplace := hfine.place
    rw [hfreed, if_neg (by simp)] at hplace
    rw [World.ffaInactivate, haccess, ok_bind, if_neg (not_not.mpr hrefc),
      if_pos (count_pos_iff.mp (by omega))]
    refine ⟨_, rfl, h.move ht rfl rfl rfl (fun _ _ => rfl)
      (fun s hs => count_erase_of_ne hs) (fun s hs => count_cons_of_ne hs.symm) ho
      (fun own drop hown' hdrop' => ?_) ?_⟩
    · simp only [Pc.owns, Pc.drops, if_true] at hown' hdrop'
      rw [count_erase_self, count_cons_self, hhead]
      exact hfine.relocate hfreed hrefc (by omega) (by omega)
    · exact h.cookies.of_reserved rfl fun s p ⟨hp, hlive, hzero⟩ => ⟨p, ⟨hp, hlive, freers_zero ht rfl rfl hzero⟩, rfl⟩

lemma Sound.unregisterByCookie (ht : w.threads[t]? = some .idle) (cookie : ℕ) :
    ∃ w', w.unregisterByCookie cookie = .ok w' ∧ w'.Sound := by
  obtain ⟨x, hx, -⟩ := h.find listed_head cookie
  obtain ⟨y, hy, hsome, -⟩ := h.find listed_inactive cookie
  rw [World.unregisterByCookie, hx, ok_bind]
  cases x with
  | some q => exact ⟨w, rfl, h⟩
  | none =>
    rw [hy, ok_bind]
    cases y with
    | none => exact ⟨w, rfl, h⟩
    | some q =>
      obtain ⟨-, hq, -⟩ := hsome q.1 q.2 rfl
      have hfine := h.fine q.1 q.2 hq
      dsimp only
      split
      · exact ⟨w, rfl, h⟩
      · exact ⟨_, rfl, h.setObj ht hq rfl rfl
          ⟨hfine.place, hfine.refs, hfine.active, hfine.drop, hfine.pages, hfine.size⟩⟩

lemma Sound.sel1SpmcReclaim (ht : w.threads[t]? = some .idle) (cookie : ℕ) :
    ∃ w', w.sel1SpmcReclaim t cookie = .ok w' ∧ w'.Sound := by
  obtain ⟨x, hx, -⟩ := h.find listed_head cookie
  obtain ⟨y, hy, hsome, -⟩ := h.find listed_inactive cookie
  rw [World.sel1SpmcReclaim, hx, ok_bind]
  cases x with
  | some q => exact ⟨w, rfl, h⟩
  | none =>
    rw [hy, ok_bind]
    cases y with
    | none => exact ⟨w, rfl, h⟩
    | some q =>
      obtain ⟨r, o⟩ := q
      obtain ⟨hmem, ho, -⟩ := hsome r o rfl
      obtain ⟨hfreed, hrefc, hhead, hinactive, hown, hdrop⟩ := h.inactive hmem ho
      dsimp only
      split
      · exact ⟨w, rfl, h⟩
      refine ⟨_, rfl, h.move ht rfl rfl rfl (fun _ _ => rfl)
        (fun _ _ => rfl) (fun s hs => count_erase_of_ne hs) ho (fun own drop hown' hdrop' => ?_) ?_⟩
      · simp only [Pc.owns, Pc.drops, if_true] at hown' hdrop'
        rw [count_erase_self, hhead]
        exact (h.fine r o ho).relocate hfreed hrefc (by omega) (by omega)
      · exact h.cookies.of_reserved rfl fun s p ⟨hp, hlive, hzero⟩ =>
          ⟨p, ⟨hp, hlive, freers_zero ht rfl rfl hzero⟩, rfl⟩

lemma Sound.sel1SpmcDelete (ht : w.threads[t]? = some (.delete r)) :
    ∃ w', w.sel1SpmcDelete t r = .ok w' ∧ w'.Sound := by
  have howns : Pc.owns r (.delete r) = 1 := if_pos rfl
  obtain ⟨o, ho, haccess, hfreed, hrefc, hhead, hinactive, hown, hdrop⟩ := h.owned ht howns
  have hreserved : w.Reserved r o := ⟨ho, hfreed, freers_eq_zero ht howns rfl hown⟩
  obtain ⟨hlt, htest⟩ := h.cookies.bit r o hreserved
  rw [World.sel1SpmcDelete, haccess, ok_bind, check_of (show o.index < numShms from hlt), check_of htest]
  refine ⟨_, rfl, h.move ht rfl rfl rfl (fun _ _ => rfl) (fun _ _ => rfl) (fun _ _ => rfl) ho
    (fun own drop hown' hdrop' => ?_) ?_⟩
  · simp only [Pc.owns, Pc.drops, if_true] at hown' hdrop'
    show Fine (w.shmHead.count r) (w.shmInactiveHead.count r) own drop o
    rw [hhead]
    exact (h.fine r o ho).relocate hfreed hrefc (by omega) (by omega)
  · exact h.cookies.clear ht hreserved rfl rfl rfl

lemma Sound.freeObj (ht : w.threads[t]? = some (.free r)) : ∃ w', w.freeObj t r = .ok w' ∧ w'.Sound := by
  obtain ⟨o, ho, haccess, hfreed, hrefc, hhead, hinactive, hown, hdrop⟩ := h.owned ht (if_pos rfl)
  have hfine := h.fine r o ho
  rw [World.freeObj, haccess]
  refine ⟨_, rfl, h.move ht rfl rfl rfl (fun s hs => set_other hs.symm)
    (fun _ _ => rfl) (fun _ _ => rfl) (set_self ho) (fun own drop hown' hdrop' => ?_) ?_⟩
  · simp only [Pc.owns, Pc.drops, if_true] at hown' hdrop'
    show Fine (w.shmHead.count r) (w.shmInactiveHead.count r) own drop _
    rw [hhead]
    refine ⟨?_, hfine.refs, fun hne => absurd hrefc hne, ?_, hfine.pages, hfine.size⟩
    · rw [if_pos rfl]
      omega
    · rw [if_neg (by simp)]
      omega
  · refine h.cookies.of_reserved rfl fun s p ⟨hp, hlive, hzero⟩ => ?_
    obtain ⟨rfl, rfl⟩ | ⟨hs, hp⟩ := set_cases ho hp
    · cases hlive
    · exact ⟨p, ⟨hp, hlive, freers_zero ht rfl (if_neg hs.symm) hzero⟩, rfl⟩

end

end Steps

end World

/-- No lookup meets an active object whose count is zero or at its maximum, and no size overflows. -/
def Allowed (w : World) (e : ℕ × Event) : Prop :=
  match e.2 with
  | .new numPages _ => numPages < 2 ^ 20
  | .getByCookie cookie _ =>
    ∀ r ∈ w.shmHead, ∀ o ∈ w.objs[r]?, o.cookie = cookie → o.refc ≠ 0 ∧ o.refc < 2 ^ 32 - 1
  | _ => True

instance (w : World) (e : ℕ × Event) : Decidable (Allowed w e) := by
  unfold Allowed
  split <;> infer_instance

lemma World.Sound.step {w : World} (h : w.Sound) (e : ℕ × Event) (hallowed : Allowed w e) :
    ∃ w', step w e = .ok w' ∧ w'.Sound := by
  rw [Ffa.step]
  split
  · next ht he =>
    rw [Allowed, he] at hallowed
    exact ⟨_, rfl, h.sel1SpmcNew ht hallowed⟩
  · next ht he =>
    rw [Allowed, he] at hallowed
    exact h.getByCookie ht hallowed
  · next ht _ => exact h.mobjPut ht _
  · next ht _ => exact h.unregisterByCookie ht _
  · next ht _ => exact h.sel1SpmcReclaim ht _
  · next ht _ => exact h.pushToInactive ht
  · next ht _ => exact h.ffaInactivate ht
  · next ht _ => exact h.sel1SpmcDelete ht
  · next ht _ => exact h.freeObj ht
  · exact ⟨w, rfl, h⟩

lemma sound_init (n : ℕ) : (init n).Sound := by
  have hzero : ∀ f : Pc → ℕ, f .idle = 0 → ((List.replicate n Pc.idle).map f).sum = 0 := by
    intro f hf
    simp [hf]
  refine ⟨nofun, fun r _ => ⟨rfl, rfl, hzero _ rfl, hzero _ rfl⟩, ?_, ?_⟩
  · rintro r o ⟨hr, -⟩
    cases hr
  · rintro r o s o' ⟨hr, -⟩
    cases hr

lemma owns_eq_zero {pc : Pc} {r : ℕ} (h : pc ≠ .made r ∧ pc ≠ .delete r ∧ pc ≠ .free r) : pc.owns r = 0 := by
  cases pc with
  | idle | inactivate => rfl
  | made s => exact if_neg fun he => h.1 (congrArg Pc.made he)
  | delete s => exact if_neg fun he => h.2.1 (congrArg Pc.delete he)
  | free s => exact if_neg fun he => h.2.2 (congrArg Pc.free he)

structure LifeCycle (w : World) : Prop where
  place : ∀ (r : ℕ), ∀ o ∈ w.objs[r]?, o.freed = false →
    (∀ pc ∈ w.threads, pc ≠ .made r ∧ pc ≠ .delete r ∧ pc ≠ .free r) →
    w.shmHead.count r + w.shmInactiveHead.count r = 1
  cookies : ∀ r ∈ w.shmHead ++ w.shmInactiveHead, ∀ s ∈ w.shmHead ++ w.shmInactiveHead,
    ∀ o ∈ w.objs[r]?, ∀ p ∈ w.objs[s]?, o.cookie = p.cookie → r = s
  active : ∀ (r : ℕ), ∀ o ∈ w.objs[r]?, o.refc ≠ 0 → r ∈ w.shmHead ∧ o.freed = false
  size : ∀ (r : ℕ), ∀ o ∈ w.objs[r]?, o.size + o.pageOffset = o.numPages * 4096

lemma World.Sound.lifeCycle {w : World} (h : w.Sound) : LifeCycle w := by
  refine ⟨fun r o ho hfreed hpcs => ?_, fun r hr s hs o ho p hp he => ?_, fun r o ho hrefc => ?_, fun r o ho => ?_⟩
  · have hplace := (h.fine r o ho).place
    have howners : w.owners r = 0 := by
      rw [World.owners, sum_eq_zero_iff]
      intro x hx
      obtain ⟨pc, hpc, rfl⟩ := mem_map.mp hx
      exact owns_eq_zero (hpcs pc hpc)
    rw [hfreed, if_neg (by simp)] at hplace
    omega
  · have hlisted : ∀ r ∈ w.shmHead ++ w.shmInactiveHead, 0 < w.shmHead.count r + w.shmInactiveHead.count r := by
      intro r hr
      rw [← count_append]
      exact count_pos_iff.mpr hr
    exact h.cookies.distinct r o s p (h.reserved_of_listed (hlisted r hr) ho) (h.reserved_of_listed (hlisted s hs) hp)
      (Nat.add_left_cancel he)
  · have hhead := (h.fine r o ho).active hrefc
    obtain ⟨-, hfreed, -⟩ := h.reserved_of_listed (by omega) ho
    exact ⟨count_pos_iff.mp (by omega), hfreed⟩
  · exact (h.fine r o ho).size.1

theorem run_lifeCycle (n : ℕ) (es : List (ℕ × Event)) (hes : Along step Allowed (init n) es) :
    ∃ w, run step (init n) es = .ok w ∧ LifeCycle w := by
  obtain ⟨w, hrun, hw⟩ := hes.completes (sound_init n) fun w e h ha => h.step e ha
  exact ⟨w, hrun, hw.lifeCycle⟩

def firstCookie : ℕ := 2 ^ 44

theorem run_lifeCycle_reclaim :
    ∃ w, run step (init 2) [(0, .new 2 true), (0, .go), (1, .getByCookie firstCookie 16), (1, .put 0), (1, .go),
        (0, .unregisterByCookie firstCookie), (0, .reclaim firstCookie), (0, .go), (0, .go)] = .ok w ∧
      w.objs.map (·.freed) = [true] ∧ LifeCycle w := by
  obtain ⟨w, hrun, hw⟩ := run_lifeCycle 2 [(0, .new 2 true), (0, .go), (1, .getByCookie firstCookie 16), (1, .put 0),
    (1, .go), (0, .unregisterByCookie firstCookie), (0, .reclaim firstCookie), (0, .go), (0, .go)] (by decide)
  refine ⟨w, hrun, ?_, hw⟩
  cases hrun
  rfl

theorem ffaInactivate_panics :
    run step (init 2) [(0, .new 1 true), (0, .go), (1, .getByCookie firstCookie 0), (1, .put 0),
      (0, .getByCookie firstCookie 0), (0, .put 0), (0, .go), (1, .go)] = .error .panic := by
  decide

end Optee.Mm.Ffa
