import Mathlib.Data.List.Count
import Optee.Lib.Threads
import Optee.Mm.RegShm

/-! No registered shared memory object is used after it was freed. -/

namespace Optee.Mm.RegShm

open Lib.Runs Lib.Threads List

inductive Role
  | find
  | put
  | freeing
  | freeGuarded
  | freeOther
  | release

@[grind] def Pc.plays (r : ℕ) : Pc → Role → Prop
  | .found s, .find | .releasePut s, .put | .releasePut s, .release | .releaseWait s, .release => s = r
  | .freeing s _, .freeing | .freeGuarded s _, .freeGuarded | .freeOther s _, .freeOther => s = r
  | .freeing s next, .release | .freeGuarded s next, .release | .freeOther s next, .release => s = r ∧ next = true
  | _, _ => False

instance (r : ℕ) (pc : Pc) (k : Role) : Decidable (pc.plays r k) := by
  unfold Pc.plays
  split <;> infer_instance

@[grind] def Pc.counts (r : ℕ) (k : Role) (pc : Pc) : ℕ := if pc.plays r k then 1 else 0

def Pc.obj? : Pc → Option ℕ
  | .idle => none
  | .found r | .freeing r _ | .freeGuarded r _ | .freeOther r _ | .releasePut r | .releaseWait r => some r

@[grind] def Obj.cookieRefs (o : Obj) : ℕ := if o.guarded = false ∧ o.releasing = false then 1 else 0

structure Fine (listed : ℕ) (c : Role → ℕ) (o : Obj) : Prop where
  list : listed = if o.freed then 0 else 1
  refc : o.refc = o.refs + o.cookieRefs + c .put
  guarded : o.guarded = true → o.releasing = false
  frees : o.releaseFrees = true → o.refc = 0
  close : c .freeing + c .freeGuarded + c .freeOther =
    if o.freed = false ∧ o.refc = 0 ∧ o.releaseFrees = false then 1 else 0
  closeGuarded : c .freeGuarded ≠ 0 → o.guarded = true
  closeOther : c .freeOther ≠ 0 → o.guarded = false
  release : c .release = if o.freed = false ∧ o.releasing = true then 1 else 0
  find : c .find ≠ 0 → o.refc ≠ 0
  gone : o.freed = true → o.refc = 0

variable {c : Role → ℕ}

lemma Fine.live_of_refc {listed : ℕ} {o : Obj} (h : Fine listed c o) (hpos : o.refc ≠ 0) : o.freed = false := by
  by_contra hne
  exact hpos (h.gone (Bool.eq_true_of_not_eq_false hne))

lemma Fine.live_of_role {listed : ℕ} {o : Obj} (h : Fine listed c o)
    (hpos : 0 < c .freeing + c .freeGuarded + c .freeOther + c .release) : o.freed = false := by
  have hclose := h.close
  have hrelease := h.release
  by_contra hne
  rw [if_neg fun hand => hne hand.1] at hclose hrelease
  omega

namespace World

def count (w : World) (r : ℕ) (k : Role) : ℕ := (w.threads.map (Pc.counts r k)).sum

structure Sound (w : World) : Prop where
  fine : ∀ r o, w.objs[r]? = some o → Fine (w.regShmList.count r) (w.count r) o
  known : ∀ r, w.objs[r]? = none → w.regShmList.count r = 0 ∧ ∀ k, w.count r k = 0
  released : ∀ r ∈ w.released, ∃ o, w.objs[r]? = some o ∧ o.freed = true

variable {w w' : World} {t r s : ℕ} {o o' : Obj} {pc pc' : Pc}

lemma count_set (ht : w.threads[t]? = some pc) (h : w'.threads = w.threads.set t pc') (s : ℕ) (k : Role) :
    w'.count s k + pc.counts s k = w.count s k + pc'.counts s k := by
  rw [count, h]
  exact sum_set (Pc.counts s k) ht pc'

lemma counts_of_ne (h : pc.obj?.getD r = r) (hs : s ≠ r) (k : Role) : pc.counts s k = 0 := by
  refine if_neg fun hp => hs ?_
  cases pc <;> cases k <;> simp_all [Pc.obj?, Pc.plays]

lemma count_same (ht : w.threads[t]? = some pc) (hthreads : w'.threads = w.threads.set t pc')
    (hpc : pc.obj?.getD r = r) (hpc' : pc'.obj?.getD r = r) (s : ℕ) (hs : s ≠ r) : w'.count s = w.count s := by
  funext k
  have h := count_set ht hthreads s k
  rw [counts_of_ne hpc hs, counts_of_ne hpc' hs] at h
  exact h

def Turns (w : World) (r : ℕ) (pc pc' : Pc) (listed : ℕ) (o' : Obj) : Prop :=
  ∀ c : Role → ℕ, (∀ k, c k + pc.counts r k = w.count r k + pc'.counts r k) → Fine listed c o'

lemma Sound.move (h : w.Sound) (ht : w.threads[t]? = some pc) (hthreads : w'.threads = w.threads.set t pc')
    (hpc : pc.obj?.getD r = r) (hpc' : pc'.obj?.getD r = r)
    (hobjs : ∀ s ≠ r, w'.objs[s]? = w.objs[s]?) (hlist : ∀ s ≠ r, w'.regShmList.count s = w.regShmList.count s)
    (ho : w'.objs[r]? = some o') (hfine : w.Turns r pc pc' (w'.regShmList.count r) o')
    (hreleased : ∀ s ∈ w'.released, ∃ p, w'.objs[s]? = some p ∧ p.freed = true) : w'.Sound := by
  have hsame := count_same ht hthreads hpc hpc'
  refine ⟨fun s p hp => ?_, fun s hs => ?_, hreleased⟩
  · by_cases hrs : s = r
    · subst hrs
      rw [ho] at hp
      cases hp
      exact hfine _ (count_set ht hthreads s)
    · rw [hlist s hrs, hsame s hrs]
      exact h.fine s p (hobjs s hrs ▸ hp)
  · have hrs : s ≠ r := by
      rintro rfl
      rw [ho] at hs
      cases hs
    rw [hlist s hrs, hsame s hrs]
    exact h.known s (hobjs s hrs ▸ hs)

lemma Sound.alive (h : w.Sound) (hr : 0 < w.regShmList.count r ∨ ∃ k, 0 < w.count r k) :
    ∃ o, w.objs[r]? = some o ∧ Fine (w.regShmList.count r) (w.count r) o := by
  cases ho : w.objs[r]? with
  | none =>
    obtain ⟨hlist, hcount⟩ := h.known r ho
    obtain hr | ⟨k, hk⟩ := hr
    · omega
    · rw [hcount k] at hk
      omega
  | some o => exact ⟨o, rfl, h.fine r o ho⟩

lemma access_of_live (ho : w.objs[r]? = some o) (hfreed : o.freed = false) : access w.objs r = .ok o := by
  rw [access, ho]
  exact if_neg (by rw [hfreed]; decide)

lemma Sound.released_set (h : w.Sound) (ho : w.objs[r]? = some o) (hfreed : o.freed = true → o'.freed = true) :
    ∀ s ∈ w.released, ∃ p, (w.objs.set r o')[s]? = some p ∧ p.freed = true := by
  intro s hs
  obtain ⟨p, hp, hpfreed⟩ := h.released s hs
  by_cases hrs : r = s
  · subst hrs
    rw [ho] at hp
    cases hp
    exact ⟨o', set_self ho, hfreed hpfreed⟩
  · exact ⟨p, (set_other hrs).trans hp, hpfreed⟩

section

variable (h : w.Sound) (ht : w.threads[t]? = some pc) (hpc : pc.obj?.getD r = r) (hpc' : pc'.obj?.getD r = r)
  (ho : w.objs[r]? = some o)
include h ht hpc hpc' ho

lemma Sound.set (hfreed : o.freed = true → o'.freed = true)
    (hfine : w.Turns r pc pc' (w.regShmList.count r) o') : (w.set t r o' pc').Sound :=
  h.move ht rfl hpc hpc' (fun _ hs => set_other hs.symm) (fun _ _ => rfl) (set_self ho) hfine
    (h.released_set ho hfreed)

lemma Sound.setPc (hfine : w.Turns r pc pc' (w.regShmList.count r) o) : (w.setPc t pc').Sound :=
  h.move ht rfl hpc hpc' (fun _ _ => rfl) (fun _ _ => rfl) ho hfine h.released

lemma Sound.freeHelper (hlisted : w.regShmList.count r = 1)
    (hfine : w.Turns r pc pc' 0 { o with freed := true }) : (w.freeHelper t r o pc').Sound := by
  refine h.move ht rfl hpc hpc' (fun _ hs => set_other hs.symm) (fun s hs => count_erase_of_ne hs)
    (set_self ho) (fun c hc => ?_) (h.released_set ho fun _ => rfl)
  have hzero : (w.regShmList.erase r).count r = 0 := by rw [count_erase_self, hlisted]
  exact hzero ▸ hfine c hc

end

lemma after_obj? (r : ℕ) (next : Bool) : (after r next).obj?.getD r = r := by cases next <;> rfl

lemma Sound.here (h : w.Sound) (ht : w.threads[t]? = some pc) {k : Role} (hk : pc.plays r k) :
    0 < w.count r k ∧ ∃ o, w.objs[r]? = some o ∧ Fine (w.regShmList.count r) (w.count r) o := by
  have hpos : 0 < w.count r k := lt_of_lt_of_le (by rw [Pc.counts, if_pos hk]; decide) 
    (le_sum (Pc.counts r k) (mem_of_getElem? ht))
  exact ⟨hpos, h.alive (.inr ⟨k, hpos⟩)⟩

lemma Sound.listed (h : w.Sound) (hr : r ∈ w.regShmList) :
    ∃ o, w.objs[r]? = some o ∧ access w.objs r = .ok o ∧ o.freed = false := by
  have hpos := count_pos_iff.mpr hr
  obtain ⟨o, ho, hf⟩ := h.alive (.inl hpos)
  have hlive : o.freed = false := by
    by_contra hne
    have hlist := hf.list
    rw [if_pos (Bool.eq_true_of_not_eq_false hne)] at hlist
    omega
  exact ⟨o, ho, access_of_live ho hlive, hlive⟩

lemma regShmFind_eq_ok {objs : List Obj} {cookie : ℕ} {rs : List ℕ}
    (h : ∀ r ∈ rs, ∃ o, objs[r]? = some o ∧ access objs r = .ok o) :
    ∃ x, regShmFind objs cookie rs = .ok x ∧ ∀ r o, x = some (r, o) → r ∈ rs ∧ objs[r]? = some o := by
  induction rs with
  | nil => exact ⟨none, rfl, nofun⟩
  | cons r rs ih =>
    obtain ⟨o, ho, haccess⟩ := h r mem_cons_self
    rw [regShmFind, haccess, ok_bind]
    split
    · refine ⟨_, rfl, fun s p he => ?_⟩
      cases he
      exact ⟨mem_cons_self, ho⟩
    · obtain ⟨x, hx, hmem⟩ := ih fun s hs => h s (mem_cons_of_mem r hs)
      exact ⟨x, hx, fun s p he => ⟨mem_cons_of_mem r (hmem s p he).1, (hmem s p he).2⟩⟩

lemma Sound.find (h : w.Sound) (cookie : ℕ) :
    ∃ x, regShmFind w.objs cookie w.regShmList = .ok x ∧
      ∀ r o, x = some (r, o) → r ∈ w.regShmList ∧ w.objs[r]? = some o :=
  regShmFind_eq_ok fun _ hr => (h.listed hr).imp fun _ ho => ⟨ho.1, ho.2.1⟩

section

variable (h : w.Sound)
include h

lemma Sound.alloc (ht : w.threads[t]? = some .idle) (cookie : ℕ) : (w.alloc cookie).Sound := by
  obtain ⟨hlist, hcount⟩ := h.known w.objs.length (getElem?_eq_none le_rfl)
  refine h.move ht (set_same ht).symm rfl rfl (fun s hs => append_other hs)
    (fun s hs => count_cons_of_ne hs.symm) getElem?_concat_length (fun c hc => ?_) fun s hs => ?_
  · show Fine ((w.objs.length :: w.regShmList).count w.objs.length) c _
    constructor <;> grind
  · obtain ⟨p, hp, hfreed⟩ := h.released s hs
    have hlt := (List.getElem?_eq_some_iff.mp hp).1
    exact ⟨p, (getElem?_append_left hlt).trans hp, hfreed⟩

lemma Sound.unguard (ht : w.threads[t]? = some .idle) (r : ℕ) :
    ∃ w', w.unguard t r = .ok w' ∧ w'.Sound := by
  rw [World.unguard]
  cases ho : w.objs[r]? with
  | none => exact ⟨w, rfl, h⟩
  | some o =>
    have hf := h.fine r o ho
    dsimp only
    split
    · exact ⟨w, rfl, h⟩
    next hheld =>
    have hpos : o.refc ≠ 0 := by
      have := hf.refc
      omega
    rw [access_of_live ho (hf.live_of_refc hpos)]
    refine ⟨_, rfl, h.set ht rfl rfl ho id fun c hc => ?_⟩
    cases hf
    constructor <;> grind

lemma Sound.getByCookie (ht : w.threads[t]? = some .idle) {cookie : ℕ}
    (hpos : ∀ r o, regShmFind w.objs cookie w.regShmList = .ok (some (r, o)) → o.refc ≠ 0) :
    ∃ w', w.getByCookie t cookie = .ok w' ∧ w'.Sound := by
  obtain ⟨x, hx, hfound⟩ := h.find cookie
  rw [World.getByCookie, hx]
  cases x with
  | none => exact ⟨w, rfl, h⟩
  | some p =>
    obtain ⟨r, o⟩ := p
    have ho := (hfound r o rfl).2
    refine ⟨_, rfl, h.setPc ht rfl rfl ho fun c hc => ?_⟩
    cases h.fine r o ho
    constructor <;> grind

lemma Sound.mobjGet (ht : w.threads[t]? = some (.found r))
    (hmax : ∀ o ∈ w.objs[r]?, o.refc < 2 ^ 32 - 1) : ∃ w', w.mobjGet t r = .ok w' ∧ w'.Sound := by
  obtain ⟨hfind, o, ho, hf⟩ := h.here (k := .find) ht rfl
  have hpos : o.refc ≠ 0 := hf.find (by omega)
  rw [World.mobjGet, access_of_live ho (hf.live_of_refc hpos), ok_bind, if_neg hpos]
  refine ⟨_, rfl, h.set ht rfl rfl ho id fun c hc => ?_⟩
  cases hf
  constructor <;> grind

lemma Sound.mobjPut (ht : w.threads[t]? = some .idle)
    (hlast : ∀ o ∈ w.objs[r]?, o.refc = 1 → w.count r .find = 0) : ∃ w', w.mobjPut t r = .ok w' ∧ w'.Sound := by
  rw [World.mobjPut]
  cases ho : w.objs[r]? with
  | none => exact ⟨w, rfl, h⟩
  | some o =>
    have hf := h.fine r o ho
    dsimp only
    split
    · exact ⟨w, rfl, h⟩
    next hrefs =>
    have hpos : o.refc ≠ 0 := by
      have := hf.refc
      omega
    rw [access_of_live ho (hf.live_of_refc hpos), ok_bind, if_neg hpos]
    cases hf
    split_ifs with hone
    all_goals
      refine ⟨_, rfl, h.set ht rfl rfl ho id fun c hc => ?_⟩
      constructor <;> grind

variable {next : Bool}

lemma Sound.regShmFree (ht : w.threads[t]? = some (.freeing r next)) :
    ∃ w', w.regShmFree t r next = .ok w' ∧ w'.Sound := by
  obtain ⟨hclose, o, ho, hf⟩ := h.here (k := .freeing) ht rfl
  rw [World.regShmFree, access_of_live ho (hf.live_of_role (by omega)), ok_bind]
  cases hf
  split
  all_goals
    refine ⟨_, rfl, h.setPc ht rfl rfl ho fun c hc => ?_⟩
    constructor <;> grind

lemma Sound.freeGuarded (ht : w.threads[t]? = some (.freeGuarded r next)) :
    ∃ w', w.freeGuarded t r next = .ok w' ∧ w'.Sound := by
  obtain ⟨hclose, o, ho, hf⟩ := h.here (k := .freeGuarded) ht rfl
  have hlive := hf.live_of_role (by omega)
  have hlisted : w.regShmList.count r = 1 := by rw [hf.list, hlive, if_neg (by decide)]
  rw [World.freeGuarded, access_of_live ho hlive]
  refine ⟨_, rfl, h.freeHelper ht rfl (after_obj? r next) ho hlisted fun c hc => ?_⟩
  cases hf
  cases next <;> constructor <;> grind [after]

lemma Sound.freeOther (ht : w.threads[t]? = some (.freeOther r next)) :
    ∃ w', w.freeOther t r next = .ok w' ∧ w'.Sound := by
  obtain ⟨hclose, o, ho, hf⟩ := h.here (k := .freeOther) ht rfl
  rw [World.freeOther, access_of_live ho (hf.live_of_role (by omega))]
  refine ⟨_, rfl, h.set ht rfl (after_obj? r next) ho id fun c hc => ?_⟩
  cases hf
  cases next <;> constructor <;> grind [after]

lemma Sound.releaseByCookie (ht : w.threads[t]? = some .idle) (cookie : ℕ) :
    ∃ w', w.releaseByCookie t cookie = .ok w' ∧ w'.Sound := by
  obtain ⟨x, hx, hfound⟩ := h.find cookie
  rw [World.releaseByCookie, hx, ok_bind]
  cases x with
  | none => exact ⟨w, rfl, h⟩
  | some p =>
    obtain ⟨r, o⟩ := p
    obtain ⟨hr, ho⟩ := hfound r o rfl
    dsimp only
    split
    · exact ⟨w, rfl, h⟩
    · refine ⟨_, rfl, h.set ht rfl rfl ho id fun c hc => ?_⟩
      cases h.fine r o ho
      constructor <;> grind

lemma Sound.releasePut (ht : w.threads[t]? = some (.releasePut r))
    (hlast : ∀ o ∈ w.objs[r]?, o.refc = 1 → w.count r .find = 0) :
    ∃ w', w.releasePut t r = .ok w' ∧ w'.Sound := by
  obtain ⟨hput, o, ho, hf⟩ := h.here (k := .put) ht rfl
  have hpos : o.refc ≠ 0 := by
    have := hf.refc
    omega
  rw [World.releasePut, access_of_live ho (hf.live_of_refc hpos), ok_bind, if_neg hpos]
  cases hf
  split_ifs with hone
  all_goals
    refine ⟨_, rfl, h.set ht rfl rfl ho id fun c hc => ?_⟩
    constructor <;> grind

lemma Sound.logRelease (ho : w.objs[r]? = some o) (hfreed : o.freed = true) :
    { w with released := r :: w.released }.Sound := by
  refine ⟨h.fine, h.known, fun s hs => ?_⟩
  obtain rfl | hs := mem_cons.mp hs
  · exact ⟨o, ho, hfreed⟩
  · exact h.released s hs

lemma Sound.releaseWait (ht : w.threads[t]? = some (.releaseWait r)) :
    ∃ w', w.releaseWait t r = .ok w' ∧ w'.Sound := by
  obtain ⟨hrelease, o, ho, hf⟩ := h.here (k := .release) ht rfl
  have hlive := hf.live_of_role (by omega)
  have hlisted : w.regShmList.count r = 1 := by rw [hf.list, hlive, if_neg (by decide)]
  rw [World.releaseWait, access_of_live ho hlive, ok_bind]
  split
  · have hfree : (w.freeHelper t r o .idle).Sound := by
      refine h.freeHelper ht rfl rfl ho hlisted fun c hc => ?_
      cases hf
      constructor <;> grind
    exact ⟨_, rfl, hfree.logRelease (set_self ho) rfl⟩
  · exact ⟨w, rfl, h⟩

end

end World

def LastPut (w : World) (r : ℕ) : Prop := ∀ o ∈ w.objs[r]?, o.refc = 1 → w.count r .find = 0

instance (w : World) (r : ℕ) : Decidable (LastPut w r) := by
  unfold LastPut
  infer_instance

/-- No lookup meets a count of zero, no last reference is put before its `mobj_get`, and no count overflows. -/
def Allowed (w : World) (e : ℕ × Event) : Prop :=
  match w.threads[e.1]?, e.2 with
  | some .idle, .getByCookie cookie =>
    match regShmFind w.objs cookie w.regShmList with
    | .ok (some (_, o)) => o.refc ≠ 0
    | _ => True
  | some (.found r), .go => ∀ o ∈ w.objs[r]?, o.refc < 2 ^ 32 - 1
  | some .idle, .put r => LastPut w r
  | some (.releasePut r), .go => LastPut w r
  | _, _ => True

instance (w : World) (e : ℕ × Event) : Decidable (Allowed w e) := by
  unfold Allowed
  split
  · split <;> infer_instance
  all_goals infer_instance

lemma World.Sound.step {w : World} (h : w.Sound) (e : ℕ × Event) (hallowed : Allowed w e) :
    ∃ w', step w e = .ok w' ∧ w'.Sound := by
  rw [RegShm.step]
  split
  · next ht _ => exact ⟨_, rfl, h.alloc ht _⟩
  · next ht _ => exact h.unguard ht _
  · next ht he =>
    rw [Allowed, ht, he] at hallowed
    refine h.getByCookie ht fun r o hfind => ?_
    simp only [hfind] at hallowed
    exact hallowed
  · next ht he =>
    rw [Allowed, ht, he] at hallowed
    exact h.mobjPut ht hallowed
  · next ht _ => exact h.releaseByCookie ht _
  · next ht he =>
    rw [Allowed, ht, he] at hallowed
    exact h.mobjGet ht hallowed
  · next ht _ => exact h.regShmFree ht
  · next ht _ => exact h.freeGuarded ht
  · next ht _ => exact h.freeOther ht
  · next ht he =>
    rw [Allowed, ht, he] at hallowed
    exact h.releasePut ht hallowed
  · next ht _ => exact h.releaseWait ht
  · exact ⟨w, rfl, h⟩

lemma sound_init (n : ℕ) : (init n).Sound := by
  refine ⟨nofun, fun r _ => ⟨rfl, fun k => ?_⟩, nofun⟩
  have hidle : Pc.counts r k .idle = 0 := if_neg id
  simp [World.count, init, hidle]

structure Lifetime (w : World) : Prop where
  held : ∀ pc ∈ w.threads, ∀ r ∈ pc.obj?, ∃ o, w.objs[r]? = some o ∧ o.freed = false
  listed : ∀ (r : ℕ), ∀ o ∈ w.objs[r]?, w.regShmList.count r = if o.freed then 0 else 1
  refs : ∀ (r : ℕ), ∀ o ∈ w.objs[r]?, o.refs ≠ 0 → o.freed = false
  released : ∀ r ∈ w.released, ∃ o, w.objs[r]? = some o ∧ o.freed = true

lemma World.Sound.lifetime {w : World} (h : w.Sound) : Lifetime w := by
  refine ⟨fun pc hpc r hr => ?_, fun r o ho => (h.fine r o ho).list, fun r o ho hrefs => ?_, h.released⟩
  · obtain ⟨t, ht⟩ := getElem?_of_mem hpc
    cases pc with
    | idle => cases hr
    | found s =>
      cases hr
      obtain ⟨hpos, o, ho, hf⟩ := h.here (k := .find) ht rfl
      exact ⟨o, ho, hf.live_of_refc (hf.find (by omega))⟩
    | freeing s next =>
      cases hr
      obtain ⟨hpos, o, ho, hf⟩ := h.here (k := .freeing) ht rfl
      exact ⟨o, ho, hf.live_of_role (by omega)⟩
    | freeGuarded s next =>
      cases hr
      obtain ⟨hpos, o, ho, hf⟩ := h.here (k := .freeGuarded) ht rfl
      exact ⟨o, ho, hf.live_of_role (by omega)⟩
    | freeOther s next =>
      cases hr
      obtain ⟨hpos, o, ho, hf⟩ := h.here (k := .freeOther) ht rfl
      exact ⟨o, ho, hf.live_of_role (by omega)⟩
    | releasePut s | releaseWait s =>
      cases hr
      obtain ⟨hpos, o, ho, hf⟩ := h.here (k := .release) ht rfl
      exact ⟨o, ho, hf.live_of_role (by omega)⟩
  · have hf := h.fine r o ho
    have := hf.refc
    exact hf.live_of_refc (by omega)

theorem run_lifetime (n : ℕ) (es : List (ℕ × Event)) (hes : Along step Allowed (init n) es) :
    ∃ w, run step (init n) es = .ok w ∧ Lifetime w := by
  obtain ⟨w, hrun, hw⟩ := hes.completes (sound_init n) fun w e h ha => h.step e ha
  exact ⟨w, hrun, hw.lifetime⟩

def waitingRelease : List (ℕ × Event) :=
  [(0, .alloc 7), (0, .unguard 0), (1, .getByCookie 7), (1, .go), (0, .releaseByCookie 7), (0, .go), (0, .go),
    (1, .put 0), (1, .go), (1, .go), (0, .go)]

theorem run_lifetime_waiting_release :
    ∃ w, run step (init 2) waitingRelease = .ok w ∧ w.released = [0] ∧ Lifetime w := by
  obtain ⟨w, hrun, hw⟩ := run_lifetime 2 waitingRelease (by decide)
  refine ⟨w, hrun, ?_, hw⟩
  cases hrun
  rfl

theorem mobjGet_after_last_put :
    run step (init 2) [(0, .alloc 7), (1, .getByCookie 7), (0, .put 0), (0, .go), (0, .go), (1, .go)] =
      .error .useAfterFree ∧
    run step (init 2) [(0, .alloc 7), (0, .put 0), (1, .getByCookie 7), (1, .go)] = .error .panic := by
  decide

end Optee.Mm.RegShm
