import Optee.Ta.ContextMoves

/-! No context is used after it was destroyed. -/

namespace Optee.Ta.Contexts

open Lib Runs List Threads Option

variable {t s c : ℕ} {pc pc' : Pc}

namespace Tas

variable {st st' : Tas}

def Grips (st : Tas) (c : ℕ) : Pc → Prop
  | .dying s => st.sessions[s]?.bind TaSession.ctx = some c
  | pc => pc.hand = some c

instance (st : Tas) (c : ℕ) (pc : Pc) : Decidable (st.Grips c pc) := by
  apply Pc.casesOn (motive := fun pc => Decidable (st.Grips c pc)) pc <;> intros <;> exact inferInstanceAs (Decidable (_ = _))

lemma Sound.grips (h : st.Sound) (ht : st.pcs[t]? = some pc) (hr : st.Ready c) (hcares : st.Cares c pc) : st.Grips c pc := by
  obtain hhand | ⟨s, rfl | rfl, hu⟩ := hcares
  · cases pc with
    | dying s => cases hhand
    | _ => exact hhand
  · obtain ⟨x, hx, -, hc, -⟩ := hu
    show st.sessions[s]?.bind TaSession.ctx = some c
    rw [hx]
    exact hc
  · obtain ⟨-, c', hu', r, hd⟩ := h.fits t _ ht
    obtain rfl := hu'.unique hu
    cases hd.symm.trans hr

section TearDown

def spared (st : Tas) (s c i : ℕ) (x : TaSession) : TaSession := if st.hit s c i x then { x with ctx := none } else x

lemma spared_fields (st : Tas) (s c i : ℕ) (x : TaSession) : (st.spared s c i x).listed = x.listed ∧
    (st.spared s c i x).lock = x.lock ∧ (st.spared s c i x).given = x.given ∧
    ((st.spared s c i x).ctx = x.ctx ∨ (st.spared s c i x).ctx = none ∧ x.ctx = some c) := by
  unfold spared
  split
  case isTrue hhit =>
    simp only [hit, Bool.and_eq_true, decide_eq_true_eq] at hhit
    exact ⟨rfl, rfl, rfl, .inr ⟨rfl, hhit.2⟩⟩
  case isFalse => exact ⟨rfl, rfl, rfl, .inl rfl⟩

variable {y : TaCtx}

section

variable (h : st.Sound) (ht : st.pcs[t]? = some (.tearing s (some c)))
  (hgrips : ∀ pc1 ∈ st.pcs.eraseIdx t, ¬ st.Grips c pc1)
  (hscan : ∀ x ∈ st.sessions, x.listed = true → x.ctx = some c → st.scanned x = true)
include h ht hgrips hscan

lemma Sound.count_hits :
    1 + (st.sessions.mapIdx fun i x => if st.hit s c i x then 1 else 0).sum = st.count c := by
  obtain ⟨hlock, ⟨x, hx, hl, hc, hg⟩, hready⟩ := h.fits t _ ht
  have hset := sum_set (fun x : TaSession => if x.given = some c then 1 else 0) hx { x with given := none }
  have hmap : (st.sessions.set s { x with given := none }).map (fun x => if x.given = some c then 1 else 0) =
      st.sessions.mapIdx fun i x => if st.hit s c i x then 1 else 0 := by
    apply ext_getElem?
    intro k
    rw [getElem?_map, getElem?_mapIdx]
    by_cases hk : k = s
    · rw [hk, set_self hx, hx]
      simp [hit]
    rw [set_other (Ne.symm hk)]
    cases hz : st.sessions[k]? with
    | none => rfl
    | some z =>
      have hiff : z.given = some c ↔ st.hit s c k z = true := by
        simp only [hit, Bool.and_eq_true, decide_eq_true_eq]
        constructor
        · intro hgz
          obtain ⟨hlz, hcz⟩ | ⟨pc1, hpc1, hat⟩ := h.owes k z c hz hgz ⟨_, hready⟩
          · exact ⟨⟨hk, hscan z (mem_of_getElem? hz) hlz hcz⟩, hcz⟩
          obtain ⟨t1, h1⟩ := mem_iff_getElem?.mp hpc1
          have hne : t1 ≠ t := by
            rintro rfl
            obtain rfl := mem_unique ht h1
            obtain hat | hat := hat <;> cases hat
          refine absurd ?_ (hgrips pc1 (mem_eraseIdx_iff_getElem?.mpr ⟨t1, hne, h1⟩))
          obtain rfl | rfl := hat <;> exact rfl
        · rintro ⟨⟨-, hsc⟩, hcz⟩
          simp only [scanned, Bool.and_eq_true] at hsc
          exact (h.uses k z c hz hsc.1 hcz).1
      simp [hiff]
  rw [hmap, hg, if_pos rfl] at hset
  rw [count]
  simp only [reduceCtorEq, if_false] at hset
  omega

lemma Sound.tornDown (hy : st.ctxes[c]? = some y) (hyd : y.destroyed = false)
    (hsess : ∀ k : ℕ, st'.sessions[k]? = st.sessions[k]?.map (st.spared s c k))
    (hctx : st'.ctxes = st.ctxes.set c { y with listed := false }) (hpcs : st'.pcs = st.pcs.set t (.torn s c)) :
    st'.Sound := by
  obtain ⟨hlock, hu, hready⟩ := h.fits t _ ht
  have hstatus := status_self hctx hy
  have hcares : ∀ (t1 : ℕ) (pc1 : Pc), t1 ≠ t → st.pcs[t1]? = some pc1 → ¬ st.Cares c pc1 := fun t1 pc1 hne h1 hc =>
    hgrips pc1 (mem_eraseIdx_iff_getElem?.mpr ⟨t1, hne, h1⟩) (h.grips h1 hready hc)
  have hself : st'.sessions[s]? = st.sessions[s]? := by
    rw [hsess]
    cases st.sessions[s]? with
    | none => rfl
    | some x => simp [spared, hit]
  have hlost : ∀ k x', st'.sessions[k]? = some x' → ∃ x, st.sessions[k]? = some x ∧ x' = st.spared s c k x := by
    intro k x' hx'
    rw [hsess] at hx'
    obtain ⟨x, hx, rfl⟩ := map_eq_some_iff.mp hx'
    exact ⟨x, hx, rfl⟩
  -- The other threads stay where they are.
  have hkeep : ∀ pc1 ∈ st.pcs, pc1 ≠ .tearing s (some c) → pc1 ∈ st'.pcs := fun pc1 hpc1 hne =>
    hpcs ▸ mem_set_of_ne ht hpc1 hne
  refine ⟨fun t1 pc1 h1 => ?_, fun t1 t2 pc1 pc2 k h1 h2 hs1 hs2 => ?_, fun t1 t2 pc1 pc2 k h1 h2 hf1 hf2 => ?_, fun k x' c' hx' hl hc => ?_,
    fun k x' c' hx' hg ⟨r, hr⟩ => ?_, fun c' z hz hd => ?_, fun z hz hl => ?_, fun x' hx' c' hg => ?_⟩
  · rw [hpcs] at h1
    obtain ⟨rfl, rfl⟩ | ⟨hne, g1⟩ := set_cases ht h1
    · exact ⟨hlock.congr hself, hu.congr hself, _, hstatus.trans (by rw [hyd])⟩
    refine (h.fits t1 pc1 g1).frame (fun k _ x hx => ⟨st.spared s c k x, by rw [hsess, hx]; rfl, ?_⟩) fun c' hc' => ?_
    · obtain ⟨hl, hk, hg, hc⟩ := st.spared_fields s c k x
      refine ⟨hl, hk, hg, hc.imp_right fun ⟨hnone, hsome⟩ => ⟨hnone, fun c' hc' => ?_⟩⟩
      obtain rfl := mem_unique hsome hc'
      exact hcares t1 pc1 hne g1
    · refine status_other hctx ?_
      rintro rfl
      exact hcares t1 pc1 hne g1 hc'
  · rw [hpcs] at h1 h2
    exact eq_of_set (b := .torn s c) (fun i j a b => h.apart i j a b k) ht (fun hs => .inl hs) h1 h2 hs1 hs2
  · rw [hpcs] at h1 h2
    exact eq_of_set (fun i j a b => h.finish i j a b k) ht
      (fun hk => .inr (h.not_finishes (hk ▸ hready))) h1 h2 hf1 hf2
  · obtain ⟨x, hx, rfl⟩ := hlost k x' hx'
    obtain ⟨hl', -, hg', hc' | ⟨hnone, -⟩⟩ := st.spared_fields s c k x
    · rw [hl'] at hl
      rw [hc'] at hc
      obtain ⟨hg, huse⟩ := h.uses k x c' hx hl hc
      refine ⟨hg'.trans hg, ?_⟩
      by_cases hcc : c' = c
      · subst hcc
        have hks : k = s := by
          by_contra hks
          have hhit : st.hit s c' k x = true := by
            simp [hit, hks, hscan x (mem_of_getElem? hx) hl hc, hc]
          rw [spared, if_pos hhit] at hc'
          cases hc'.trans hc
        refine .inr ⟨.torn s c', ?_, .inr (.inl (by rw [hks]))⟩
        rw [hpcs]
        exact mem_of_getElem? (set_self ht)
      · obtain hr | ⟨pc1, hpc1, hat⟩ := huse
        · exact .inl ((status_other hctx hcc).trans hr)
        · refine .inr ⟨pc1, hkeep pc1 hpc1 ?_, hat⟩
          obtain rfl | rfl | rfl := hat <;> simp
    · cases hnone.symm.trans hc
  · obtain ⟨x, hx, rfl⟩ := hlost k x' hx'
    obtain ⟨hl', -, hg', hc'⟩ := st.spared_fields s c k x
    rw [hg'] at hg
    have hcc : c' ≠ c := by
      rintro rfl
      cases hstatus.symm.trans hr
    obtain ⟨hl, hc⟩ | ⟨pc1, hpc1, hat⟩ := h.owes k x c' hx hg ⟨r, (status_other hctx hcc).symm.trans hr⟩
    · refine .inl ⟨hl'.trans hl, ?_⟩
      obtain hc' | ⟨-, hsome⟩ := hc'
      · exact hc'.trans hc
      · exact absurd (mem_unique hc hsome) hcc
    · refine .inr ⟨pc1, hkeep pc1 hpc1 ?_, hat⟩
      obtain rfl | rfl := hat <;> simp
  · have hsame : st'.count c' = st.count c' := by
      rw [count]
      congr 1
      apply ext_getElem?
      intro k
      rw [getElem?_map, getElem?_map, hsess, Option.map_map]
      congr 1
      funext x
      simp [(st.spared_fields s c k x).2.2.1]
    rw [hsame]
    by_cases hcc : c' = c
    · subst hcc
      rw [hctx, set_self hy] at hz
      obtain rfl := Option.some.inj hz
      exact h.counts c' y hy hyd
    · rw [hctx, set_other (Ne.symm hcc)] at hz
      exact h.counts c' z hz hd
  · rw [hctx] at hz
    obtain hz | rfl := mem_or_eq_of_mem_set hz
    · exact h.live z hz hl
    · cases hl
  · obtain ⟨k, hk⟩ := mem_iff_getElem?.mp hx'
    obtain ⟨x, hx, rfl⟩ := hlost k x' hk
    rw [(st.spared_fields s c k x).2.2.1] at hg
    rw [hctx, length_set]
    exact h.bound x (mem_of_getElem? hx) c' hg

lemma Sound.tearDown : ∃ st', st.tearDown t s (some c) = .ok st' ∧ st'.Sound := by
  obtain ⟨-, -, hready⟩ := h.fits t _ ht
  obtain ⟨y, hy, -, hyd, -, hderef⟩ := exists_ctx hready
  have hcount := h.count_hits ht hgrips hscan
  rw [Tas.tearDown, hderef, ok_bind, if_pos (hcount.trans (h.counts c y hy hyd).symm)]
  exact ⟨_, rfl, h.tornDown ht hgrips hscan hy hyd (fun k => getElem?_mapIdx) (setCtx_eq_set hy) rfl⟩

end

end TearDown

lemma init_sound (threads : ℕ) : (init threads).Sound := by
  have hidle : ∀ pc ∈ (init threads).pcs, pc = .idle := fun pc hpc => (mem_replicate.mp hpc).2
  refine ⟨fun t pc ht => ?_, fun t t' pc pc' s ht _ hs => ?_, fun t t' pc pc' c ht _ hf => ?_, fun s x c hx => ?_,
    fun s x c hx => ?_, fun c y hy => ?_, fun y hy => ?_, fun x hx => ?_⟩
  · rw [hidle pc (mem_of_getElem? ht)]
    trivial
  · rw [hidle pc (mem_of_getElem? ht)] at hs
    cases hs
  · rw [hidle pc (mem_of_getElem? ht)] at hf
    exact hf.elim
  · simp [init] at hx
  · simp [init] at hx
  · simp [init] at hy
  · simp [init] at hy
  · simp [init] at hx

lemma Fits.in_session (h : st.Fits t pc) (hs : pc.session = some s) : pc.opens s ∨ st.Locks t s ∨ ∃ c, st.Owes s c := by
  cases pc with
  | idle | destroying => cases hs
  | invoking | returning | closing => cases hs; exact .inr (.inl h)
  | clearing | dying | calling | leaving | torn => cases hs; exact .inr (.inl h.1)
  | tearing _ oc => cases hs; cases oc with
    | none => exact h.elim
    | some => exact .inr (.inl h.1)
  | unlinking _ oc => cases hs; cases oc with
    | none | some => exact .inr (.inl h.1)
  | left _ c | releasing _ c => cases hs; exact .inr (.inr ⟨c, h.1⟩)
  | _ => exact .inl (Option.some.inj hs)

/-- No session is used while it is opened, and contexts are torn down by the only thread in them, their users listed. -/
def Allowed (st : Tas) (move : ℕ × Action) : Prop :=
  match move.2 with
  | .invokeCommand s | .closeSession s => ∀ pc ∈ st.pcs, ¬ pc.opens s
  | .go =>
    match st.pcs[move.1]? with
    | some (.tearing _ (some c)) => (∀ pc ∈ st.pcs.eraseIdx move.1, ¬ st.Grips c pc) ∧
        ∀ x ∈ st.sessions, x.listed = true → x.ctx = some c → st.scanned x = true
    | _ => True
  | _ => True

instance (st : Tas) (move : ℕ × Action) : Decidable (st.Allowed move) := by
  unfold Allowed
  split
  · infer_instance
  · infer_instance
  · split <;> infer_instance
  · infer_instance

lemma Sound.request (pc' : Pc) (h : st.Sound) (ht : st.pcs[t]? = some .idle) (hpc' : pc' = .invoking s ∨ pc' = .closing s)
    (hopens : ∀ pc ∈ st.pcs, ¬ pc.opens s) : (st.getSession t s pc').Sound := by
  refine h.getSession ht pc' (.inl rfl) hpc' fun x hx hl hnone => .inr fun pc1 hpc1 hs => ?_
  obtain ⟨t1, h1⟩ := mem_iff_getElem?.mp hpc1
  obtain ho | ⟨x', hx', -, hlock⟩ | ⟨c, x', hx', hunl, -⟩ := (h.fits t1 pc1 h1).in_session hs
  · exact hopens pc1 hpc1 ho
  · obtain rfl := mem_unique hx hx'
    cases hnone.symm.trans hlock
  · obtain rfl := mem_unique hx hx'
    cases hl.symm.trans hunl

lemma Sound.closeOpened (h : st.Sound) (ht : st.pcs[t]? = some (.put s false)) : (st.closeOpened t s).Sound := by
  unfold Tas.closeOpened
  split
  · exact h.getSession ht _ (.inr rfl) (.inr rfl) fun _ _ _ _ => .inl rfl
  · exact h.leaves ht rfl id id

lemma Sound.go (h : st.Sound) (ht : st.pcs[t]? = some pc) (ha : st.Allowed (t, .go)) :
    ∃ st', st.go t pc = .ok st' ∧ st'.Sound := by
  cases pc with
  | initializing s uuid =>
    obtain ⟨⟨x, hx, hl, hc⟩, x', hx', hg⟩ := h.fits t _ ht
    obtain rfl := mem_unique hx hx'
    exact h.initSessionWithContext ht uuid ⟨x, hx, hl, hc, hg⟩ (.own rfl)
  | discarding s c => exact h.discards ht
  | failed s => exact ⟨_, rfl, h.frees ht rfl id (h.fits t _ ht)⟩
  | opened s => exact h.opened ht
  | put s success =>
    cases success with
    | true => exact ⟨_, rfl, h.leaves ht rfl id id⟩
    | false => exact ⟨_, rfl, h.closeOpened ht⟩
  | invoking s => exact h.invoking ht
  | dying s => exact ⟨_, rfl, h.dying ht⟩
  | tearing s oc =>
    cases oc with
    | none => exact (h.fits t _ ht).elim
    | some c =>
      simp only [Allowed, ht] at ha
      exact h.tearDown ht ha.1 ha.2
  | torn s c => exact h.torn ht
  | clearing s => exact ⟨_, rfl, h.clears ht⟩
  | returning s => exact ⟨_, rfl, h.putSession ht⟩
  | closing s => exact h.closing ht
  | unlinking s oc entered => exact ⟨_, rfl, h.destroySession ht⟩
  | left s c =>
    obtain ⟨y, -, -, -, -, hderef⟩ := exists_ctx (h.fits t _ ht).2
    rw [Tas.go, hderef]
    exact ⟨_, rfl, h.left ht⟩
  | releasing s c => exact h.release ht
  | destroying c => exact h.destroying ht
  | _ => exact ⟨st, rfl, h⟩

lemma Sound.act {a : Action} (h : st.Sound) (ht : st.pcs[t]? = some pc) (ha : st.Allowed (t, a)) :
    ∃ st', st.act t pc a = .ok st' ∧ st'.Sound := by
  unfold Tas.act
  split
  · exact h.openSession ht
  · exact ⟨_, rfl, h.request _ ht (.inl rfl) ha⟩
  · exact ⟨_, rfl, h.request _ ht (.inr rfl) ha⟩
  · exact ⟨_, rfl, h.create ht⟩
  · exact ⟨_, rfl, h.goes ht _ rfl id id rfl (h.fits t _ ht).1 fun _ => id⟩
  · exact h.loaded ht
  · exact ⟨_, rfl, h.leaves ht rfl id id⟩
  case h_8 s => exact ⟨_, rfl, h.goes ht _ rfl id id rfl (h.fits t (.invoking s) ht) fun _ => id⟩
  case h_9 s => exact ⟨_, rfl, h.goes ht _ rfl id id rfl (h.fits t (.closing s) ht) fun _ => id⟩
  · exact h.returnOpen ht
  · exact h.returnInvoke ht
  · exact h.returnClose ht
  · exact h.panics ht
  · exact ⟨st, h.touch ht, h⟩
  · exact h.go ht ha
  · exact ⟨st, rfl, h⟩

def Counted (st : Tas) : Prop := ∀ (c : ℕ) (y : TaCtx), st.ctxes[c]? = some y → y.destroyed = false → y.refCount = st.count c

theorem contexts_safe (threads : ℕ) (moves : List (ℕ × Action))
    (hallowed : Runs.Along Tas.step Allowed (init threads) moves) :
    ∃ st, Runs.run Tas.step (init threads) moves = .ok st ∧ st.Counted := by
  obtain ⟨st, hst, hsound⟩ := hallowed.completes (init_sound threads) fun st move h ha => by
    unfold Tas.step
    split
    · exact ⟨st, rfl, h⟩
    case h_2 pc ht => exact h.act ht ha
  exact ⟨st, hst, hsound.counts⟩

def toyFlags : TaFlags := ⟨⟨false, true⟩, true, false⟩

def toySessions : List (ℕ × Action) :=
  [(0, .openSession none 0), (0, .create toyFlags true), (0, .loaded true), (0, .go), (0, .return true), (0, .go),
    (1, .openSession none 0), (1, .go), (1, .return true), (1, .go)]

def toyPanic : List (ℕ × Action) :=
  [(0, .panics), (0, .return false), (0, .go), (0, .go), (0, .go)]

def toyAlone : List (ℕ × Action) :=
  toySessions ++ [(0, .invokeCommand 0), (0, .go)] ++ toyPanic ++
    [(0, .go), (0, .go), (1, .closeSession 1), (1, .go), (1, .go), (0, .closeSession 0), (0, .go), (0, .go)]

theorem contexts_safe_toy : ∃ st, Runs.run Tas.step (init 2) toyAlone = .ok st ∧ st.Counted :=
  contexts_safe 2 toyAlone (by decide)

def toyWaiting : List (ℕ × Action) :=
  toySessions ++ [(0, .invokeCommand 0), (0, .go), (1, .invokeCommand 1), (1, .go)] ++ toyPanic ++ [(1, .touch)]

def toyReleasing : List (ℕ × Action) :=
  toySessions ++ [(1, .closeSession 1), (1, .go), (1, .return true), (1, .go), (1, .go), (0, .invokeCommand 0), (0, .go)] ++
    toyPanic

def toyOrphan : List (ℕ × Action) :=
  [(0, .openSession none 0), (0, .create toyFlags true), (0, .loaded true), (0, .go), (0, .return true), (0, .go),
    (1, .openSession none 1), (1, .create toyFlags true), (1, .loaded true), (1, .go), (1, .return true), (1, .go),
    (2, .openSession (some 1) 0), (2, .go), (2, .return true), (2, .go),
    (1, .closeSession 1), (1, .go), (1, .return true), (1, .go), (1, .go), (1, .go), (0, .invokeCommand 0), (0, .go)] ++
    toyPanic

def fault? : Except Fault Tas → Option Fault
  | .ok _ => none
  | .error e => some e

theorem contexts_fail :
    fault? (Runs.run Tas.step (init 2) toyWaiting) = some .useAfterDestroy ∧
      fault? (Runs.run Tas.step (init 2) toyReleasing) = some .assertion ∧
      fault? (Runs.run Tas.step (init 3) toyOrphan) = some .assertion := by
  decide

end Tas

end Optee.Ta.Contexts
