import Optee.Ta.ContextInvariant

/-! The moves of the calls on sessions, all but the teardown of a context that has panicked. -/

namespace Optee.Ta.Contexts

open Lib Runs Option Threads List

variable {t s c : ℕ} {pc pc' : Pc}

namespace Tas

variable {st st' : Tas}

section Sessions

variable {f : TaSession → TaSession} {x : TaSession}

lemma setSession_self (hx : st.sessions[s]? = some x) : (st.setSession s f).sessions[s]? = some (f x) := by
  simp [setSession, hx]

lemma setSession_other {k : ℕ} (hk : k ≠ s) : (st.setSession s f).sessions[k]? = st.sessions[k]? := by
  simp [setSession, Ne.symm hk]

lemma setSession_eq_set (hx : st.sessions[s]? = some x) : (st.setSession s f).sessions = st.sessions.set s (f x) := by
  apply ext_getElem?
  intro k
  by_cases hk : k = s
  · rw [hk, setSession_self hx, set_self hx]
  · rw [setSession_other hk, set_other (Ne.symm hk)]

lemma count_setSession (hx : st.sessions[s]? = some x) (c : ℕ) :
    (st.setSession s f).count c + (if x.given = some c then 1 else 0) =
      st.count c + if (f x).given = some c then 1 else 0 := by
  rw [count, setSession_eq_set hx]
  exact sum_set (fun x : TaSession => if x.given = some c then 1 else 0) hx (f x)

lemma count_setSession_given (st : Tas) (hx : st.sessions[s]? = some x) (hg : (f x).given = x.given) (c : ℕ) :
    (st.setSession s f).count c = st.count c := by
  have hcount := count_setSession (f := f) hx c
  rw [hg] at hcount
  exact Nat.add_right_cancel hcount

end Sessions

def Enters (st : Tas) (pc : Pc) (s : ℕ) : Prop :=
  (∀ k, pc.session = some k → k = s) ∧ (pc.session = some s ∨ ∀ pc₁ ∈ st.pcs, pc₁.session ≠ some s)

lemma inside (hs : pc.session.getD s = s) : ∀ k, pc.session = some k → k = s := fun k hk => by rwa [hk] at hs

lemma Enters.own (hs : pc.session = some s) : st.Enters pc s := ⟨inside (by rw [hs]; rfl), .inl hs⟩

lemma Enters.new (hnone : pc.session = none) (hfree : ∀ pc1 ∈ st.pcs, pc1.session ≠ some s) : st.Enters pc s :=
  ⟨fun k hk => (by cases hnone.symm.trans hk), .inr hfree⟩

variable {r : Bool × Bool × ℕ} {y : TaCtx}

lemma Fits.exists_session (h : st.Fits t pc) (hs : pc.session = some s) : ∃ x, st.sessions[s]? = some x := by
  have hhas : ∀ {P : TaSession → Prop} {k : ℕ}, st.Has k P → some k = some s → ∃ x, st.sessions[s]? = some x :=
    fun ⟨x, hx, _⟩ hk => ⟨x, Option.some.inj hk ▸ hx⟩
  cases pc with
  | idle | destroying => cases hs
  | failed | opened | put | invoking | returning | closing => exact hhas h hs
  | tearing _ c => cases c with
    | none => exact h.elim
    | some => exact hhas h.1 hs
  | unlinking _ c _ => cases c with
    | none | some => exact hhas h.1 hs
  | _ => exact hhas h.1 hs

lemma status_eq (hy : st.ctxes[c]? = some y) :
    st.status c = some (y.listed, y.destroyed, y.initializing, if y.initializing then y.refCount else 0) := by
  rw [status, hy]
  rfl

lemma exists_ctx {l i : Bool} {n : ℕ} (h : st.status c = some (l, false, i, n)) :
    ∃ y, st.ctxes[c]? = some y ∧ y.listed = l ∧ y.destroyed = false ∧ y.initializing = i ∧ st.deref c = .ok y := by
  obtain ⟨y, hy, hst⟩ := map_eq_some_iff.mp h
  simp only [Prod.mk.injEq] at hst
  obtain ⟨hl, hd, hi, -⟩ := hst
  exact ⟨y, hy, hl, hd, hi, by simp [deref, hy, hd]⟩

lemma Uses.unique {c' : ℕ} (h : st.Uses s c) (h' : st.Uses s c') : c = c' := by
  obtain ⟨x, hx, -, -, hg⟩ := h
  obtain ⟨x', hx', -, -, hg'⟩ := h'
  obtain rfl := mem_unique hx hx'
  exact mem_unique hg hg'

lemma Uses.listed (h : st.Uses s c) : st.Listed s := by
  obtain ⟨x, hx, hl, -⟩ := h
  exact ⟨x, hx, hl⟩

lemma Locks.listed (h : st.Locks t s) : st.Listed s := by
  obtain ⟨x, hx, hl, -⟩ := h
  exact ⟨x, hx, hl⟩

lemma Has.setSession {P Q : TaSession → Prop} {f : TaSession → TaSession} (h : st.Has s P) (hf : ∀ x, P x → Q (f x)) :
    ((st.setSession s f).setPc t pc').Has s Q := by
  obtain ⟨x, hx, hP⟩ := h
  exact ⟨f x, setSession_self hx, hf x hP⟩

lemma status_other {c0 : ℕ} (hctx : st'.ctxes = st.ctxes.set c0 y) (hc : c ≠ c0) : st'.status c = st.status c := by
  rw [status, hctx, set_other (Ne.symm hc)]
  rfl

lemma status_self {y' : TaCtx} (hctx : st'.ctxes = st.ctxes.set c y') (hy : st.ctxes[c]? = some y) :
    st'.status c = some (y'.listed, y'.destroyed, y'.initializing, if y'.initializing then y'.refCount else 0) :=
  status_eq (by rw [hctx, set_self hy])

lemma setCtx_eq_set {g : TaCtx → TaCtx} (hy : st.ctxes[c]? = some y) :
    (st.setCtx c g).ctxes = st.ctxes.set c (g y) := by
  apply ext_getElem?
  intro k
  by_cases hk : k = c
  · rw [hk, set_self hy]
    simp [setCtx, hy]
  · simp [setCtx, Ne.symm hk]

lemma Fits.cared (h : st.Fits t pc) (hc : st.Cares c pc) :
    (∃ s, pc.session = some s ∧ (st.Has s fun x => x.given = some c) ∧ (st.Ready c ∨ st.Loads c)) ∨
      pc.finishes c ∧ st.Gone c ∨ pc.hand = none ∧ st.Dead c := by
  have huses : ∀ {s c}, st.Uses s c → st.Has s fun x => x.given = some c := fun ⟨x, hx, hu⟩ => ⟨x, hx, hu.2.2⟩
  have howes : ∀ {s c}, st.Owes s c → st.Has s fun x => x.given = some c := fun ⟨x, hx, hu⟩ => ⟨x, hx, hu.2⟩
  obtain hhand | ⟨s, hat, hu⟩ := hc
  · cases pc with
    | loading s c' => cases hhand; exact .inl ⟨s, rfl, huses h.1, .inr h.2⟩
    | discarding s c' => cases hhand; exact .inr (.inl ⟨rfl, h.2⟩)
    | torn s c' => cases hhand; exact .inr (.inl ⟨rfl, h.2.2⟩)
    | destroying c' => cases hhand; exact .inr (.inl ⟨rfl, h⟩)
    | entering s c' => cases hhand; exact .inl ⟨s, rfl, huses h.1, .inl h.2⟩
    | calling s c' | leaving s c' | tearing s oc | unlinking s oc e =>
      cases hhand; exact .inl ⟨s, rfl, huses h.2.1, .inl h.2.2⟩
    | left s c' | releasing s c' => cases hhand; exact .inl ⟨s, rfl, howes h.1, .inl h.2⟩
    | _ => cases hhand
  · obtain rfl | rfl := hat
    · obtain ⟨-, c', hu', hr⟩ := h
      exact .inl ⟨s, rfl, huses hu, .inl (hu'.unique hu ▸ hr)⟩
    · obtain ⟨-, c', hu', hd⟩ := h
      exact .inr (.inr ⟨rfl, hu'.unique hu ▸ hd⟩)

lemma Fits.keeps {r : Bool × ℕ} {l : Bool} (h : st.Fits t pc) (hc : st.Cares c pc) (hlive : st.status c = some (l, false, r)) :
    pc.finishes c ∨ l = true ∧ ∃ s, pc.session = some s ∧ st.Has s fun x => x.given = some c := by
  obtain ⟨s, hs, hg, hready | hload⟩ | ⟨hf, -⟩ | ⟨-, r', hd⟩ := h.cared hc
  · cases Eq.symm hready |>.trans hlive
    exact .inr ⟨rfl, s, hs, hg⟩
  · cases Eq.symm hload |>.trans hlive
    exact .inr ⟨rfl, s, hs, hg⟩
  · exact .inl hf
  · cases hd.symm.trans hlive

lemma Fits.gone (h : st.Fits t pc) (hf : pc.finishes c) : st.Gone c := by
  cases pc with
  | discarding s c' => exact hf ▸ h.2
  | torn s c' => exact hf ▸ h.2.2
  | destroying c' => exact hf ▸ h
  | _ => exact hf.elim

lemma count_congr (h : st'.sessions = st.sessions) (c : ℕ) : st'.count c = st.count c := by
  rw [count, count, h]

def Fresh (st : Tas) (s : ℕ) : Prop := st.Has s fun x => x.listed = true ∧ x.ctx = none ∧ x.given = none

section

variable (h : st.Sound)
include h

variable {x : TaSession}

lemma Sound.ready (hcov : ∀ pc1 ∈ st.pcs, pc1.session = some s → ¬ pc1.covers)
    (hx : st.sessions[s]? = some x) (hl : x.listed = true) (hc : x.ctx = some c) : x.given = some c ∧ st.Ready c := by
  obtain ⟨hgiven, hready | ⟨pc1, hpc1, hat⟩⟩ := h.uses s x c hx hl hc
  · exact ⟨hgiven, hready⟩
  · obtain rfl | rfl | rfl := hat
    all_goals exact absurd trivial (hcov _ hpc1 rfl)

lemma Sound.listed (hrel : ∀ pc1 ∈ st.pcs, pc1.session = some s → ¬ pc1.releases)
    (hx : st.sessions[s]? = some x) (hgiven : x.given = some c) (hr : st.status c = some (true, r)) :
    x.listed = true ∧ x.ctx = some c := by
  obtain hat | ⟨pc1, hpc1, hat⟩ := h.owes s x c hx hgiven ⟨r, hr⟩
  · exact hat
  · obtain rfl | rfl := hat
    all_goals exact absurd trivial (hrel _ hpc1 rfl)

lemma Sound.session_ne_length : ∀ pc1 ∈ st.pcs, pc1.session ≠ some st.sessions.length := by
  intro pc1 hpc1 hs
  obtain ⟨t1, h1⟩ := List.mem_iff_getElem?.mp hpc1
  obtain ⟨x, hx⟩ := (h.fits t1 pc1 h1).exists_session hs
  exact absurd (List.getElem?_eq_some_iff.mp hx).1 (lt_irrefl _)

lemma Sound.not_finishes (hc : st.status c = some (true, r)) : ∀ pc1 ∈ st.pcs, ¬ pc1.finishes c := by
  intro pc1 hpc1 hf
  obtain ⟨t1, h1⟩ := mem_iff_getElem?.mp hpc1
  obtain ⟨r', hr'⟩ := (h.fits t1 pc1 h1).gone hf
  cases hr'.symm.trans hc

lemma Sound.sole (hy : st.ctxes[c]? = some y) (hd : y.destroyed = false) (hone : y.refCount = 1)
    (hs : st.Has s fun x => x.given = some c) {k : ℕ} (hk : k ≠ s) : ¬ st.Has k fun x => x.given = some c := by
  rintro ⟨z, hz, hgz⟩
  obtain ⟨x, hx, hgx⟩ := hs
  have hcount := h.counts c y hy hd
  have hset := sum_set (fun x : TaSession => if x.given = some c then 1 else 0) hx { x with given := none }
  have hle := le_sum (fun x : TaSession => if x.given = some c then 1 else 0)
    (mem_of_getElem? ((set_other (Ne.symm hk)).trans hz) : z ∈ st.sessions.set s { x with given := none })
  simp only [hgx, hgz, if_true, reduceCtorEq, if_false] at hset hle
  rw [count] at hcount
  omega

section

variable (ht : st.pcs[t]? = some pc)
include ht

lemma Sound.only (hs : pc.session = some s) :
    ∀ pc1 ∈ st.pcs, pc1.session = some s → pc1 = pc := by
  intro pc1 hpc1 hs1
  obtain ⟨t1, h1⟩ := mem_iff_getElem?.mp hpc1
  obtain rfl := h.apart _ _ _ _ s h1 ht hs1 hs
  exact mem_unique h1 ht

lemma Sound.inSession (f : TaSession → TaSession) (pc' : Pc)
    (hx : st.sessions[s]? = some x) (hown : st.Enters pc s) (hin' : pc'.session.getD s = s)
    (hgiven : (f x).given = x.given) (hfits : ((st.setSession s f).setPc t pc').Fits t pc')
    (hfinish : ∀ c, pc'.finishes c → pc.finishes c)
    (huses : ∀ c, (f x).listed = true → (f x).ctx = some c →
      x.given = some c ∧ (st.Ready c ∨ pc' = .loading s c ∨ pc' = .torn s c ∨ pc' = .clearing s))
    (howes : ∀ c r, x.given = some c → st.status c = some (true, r) →
      ((f x).listed = true ∧ (f x).ctx = some c) ∨ pc' = .left s c ∨ pc' = .releasing s c) :
    ((st.setSession s f).setPc t pc').Sound := by
  have hself : ((st.setSession s f).setPc t pc').sessions[s]? = some (f x) := setSession_self hx
  have hmem : pc' ∈ ((st.setSession s f).setPc t pc').pcs := mem_of_getElem? (set_self ht)
  refine h.move pc' ht
    { pcs := rfl
      inside := hown.1
      inside' := inside hin'
      free := hown.2
      sessions := fun k hk => setSession_other hk
      cares := fun _ _ _ _ _ _ => rfl
      fits := hfits
      finish := fun c hc => .inl (hfinish c hc)
      uses := fun y c hy hl hc => ?_
      owes := fun y c hy hg hr => ?_
      ready := fun c hc => .inl hc
      listed := fun c r hc => .inl ⟨r, hc⟩
      counts := fun c y hy hd => ?_
      live := h.live
      length := Nat.le_refl _
      bound := fun y c hy hg => ?_ }
  · obtain rfl := mem_unique hself hy
    obtain ⟨hg, hat⟩ := huses c hl hc
    exact ⟨hgiven.trans hg, hat.imp_right fun hpc => ⟨pc', hmem, hpc⟩⟩
  · obtain rfl := mem_unique hself hy
    obtain ⟨r, hr⟩ := hr
    exact (howes c r (hgiven.symm.trans hg) hr).imp_right fun hpc => ⟨pc', hmem, hpc⟩
  · exact (h.counts c y hy hd).trans (st.count_setSession_given hx hgiven c).symm
  · obtain rfl := mem_unique hself hy
    exact h.bound x (mem_of_getElem? hx) c (hgiven.symm.trans hg)

lemma Sound.stays (pc' : Pc) (hx : st.sessions[s]? = some x) (hown : st.Enters pc s)
    (hin' : pc'.session.getD s = s) (hfits : st.Fits t pc') (hfinish : ∀ c, ¬ pc'.finishes c)
    (huses : ∀ c, x.listed = true → x.ctx = some c → x.given = some c ∧ st.Ready c)
    (howes : ∀ c r, x.given = some c → st.status c = some (true, r) →
      (x.listed = true ∧ x.ctx = some c) ∨ pc' = .left s c ∨ pc' = .releasing s c) : (st.setPc t pc').Sound := by
  have hid : st.setSession s id = st := by rw [setSession, modify_id]
  have hsound := h.inSession ht id pc' hx hown hin' rfl
    (hfits.frame (fun k _ => .of_eq (by rw [hid]; rfl)) fun _ _ => rfl) (fun c hc => (hfinish c hc).elim)
    (fun c hl hc => (huses c hl hc).imp_right .inl) howes
  rwa [hid] at hsound

lemma Sound.goes (pc' : Pc) (hs : pc.session = some s) (hcov : ¬ pc.covers)
    (hrel : ¬ pc.releases) (hin' : pc'.session.getD s = s) (hfits : st.Fits t pc')
    (hfinish : ∀ c, ¬ pc'.finishes c) : (st.setPc t pc').Sound := by
  have honly := h.only ht hs
  obtain ⟨x, hx⟩ := (h.fits t pc ht).exists_session hs
  exact h.stays ht pc' hx (.own hs) hin' hfits hfinish
    (fun c hl hc => h.ready (fun pc1 hpc1 hs1 => honly pc1 hpc1 hs1 ▸ hcov) hx hl hc)
    fun c r hg hr => .inl (h.listed (fun pc1 hpc1 hs1 => honly pc1 hpc1 hs1 ▸ hrel) hx hg hr)

section

variable (hs : pc.session = some s) (hcov : ¬ pc.covers) (hrel : ¬ pc.releases)
include hs hcov hrel

lemma Sound.readCtx {null : Pc} {dead alive : ℕ → Pc} (hlisted : st.Listed s)
    (hin : ∀ c, null.session.getD s = s ∧ (dead c).session.getD s = s ∧ (alive c).session.getD s = s)
    (hfinish : ∀ c c', ¬ null.finishes c' ∧ ¬ (dead c).finishes c' ∧ ¬ (alive c).finishes c')
    (hnull : st.Bare s → st.Fits t null)
    (hsome : ∀ c, st.Uses s c → st.Ready c → st.Fits t (dead c) ∧ st.Fits t (alive c)) :
    ∃ st', st.readCtx t s null dead alive = .ok st' ∧ st'.Sound := by
  obtain ⟨x, hx, hl⟩ := hlisted
  have honly := h.only ht hs
  have hgo := fun pc' => h.goes ht pc' hs hcov hrel
  unfold Tas.readCtx
  rw [hx]
  dsimp only
  cases hc : x.ctx with
  | none =>
    exact ⟨_, rfl, hgo _ (hin 0).1 (hnull ⟨x, hx, hl, hc⟩) fun c' => (hfinish 0 c').1⟩
  | some c =>
    obtain ⟨hgiven, hready⟩ := h.ready (fun pc1 hpc1 hs1 => honly pc1 hpc1 hs1 ▸ hcov) hx hl hc
    obtain ⟨y, -, -, -, -, hderef⟩ := exists_ctx hready
    obtain ⟨hdead, halive⟩ := hsome c ⟨x, hx, hl, hc, hgiven⟩ hready
    dsimp only
    rw [hderef]
    refine ⟨_, rfl, ?_⟩
    split
    · exact hgo _ (hin c).2.1 hdead fun c' => (hfinish c c').2.1
    · exact hgo _ (hin c).2.2 halive fun c' => (hfinish c c').2.2

lemma Sound.leaves : (st.setPc t .idle).Sound :=
  h.goes ht .idle hs hcov hrel rfl trivial fun _ => id

end

lemma Sound.marks {f : TaSession → TaSession} (pc' : Pc) (hlisted : st.Listed s) (hown : st.Enters pc s)
    (hcov : ¬ pc.covers) (hrel : ¬ pc.releases) (hin' : pc'.session.getD s = s)
    (hf : ∀ x, (f x).given = x.given ∧ (f x).listed = x.listed ∧ (f x).ctx = x.ctx)
    (hfits : ((st.setSession s f).setPc t pc').Fits t pc') (hfinish : ∀ c, ¬ pc'.finishes c) :
    ((st.setSession s f).setPc t pc').Sound := by
  obtain ⟨x, hx, -⟩ := hlisted
  obtain ⟨hg, hl, hc⟩ := hf x
  have honly : ∀ pc1 ∈ st.pcs, pc1.session = some s → ¬ pc1.covers ∧ ¬ pc1.releases := by
    intro pc1 hpc1 hs1
    obtain hs | hnone := hown.2
    · rw [h.only ht hs pc1 hpc1 hs1]
      exact ⟨hcov, hrel⟩
    · exact absurd hs1 (hnone pc1 hpc1)
  refine h.inSession ht f pc' hx hown hin' hg hfits (fun c hfin => (hfinish c hfin).elim) (fun c hl' hc' => ?_)
    fun c r hg' hr => ?_
  · exact (h.ready (fun pc1 hpc1 hs1 => (honly pc1 hpc1 hs1).1) hx (hl ▸ hl') (hc ▸ hc')).imp_right .inl
  · rw [hl, hc]
    exact .inl (h.listed (fun pc1 hpc1 hs1 => (honly pc1 hpc1 hs1).2) hx hg' hr)

lemma Sound.getSession (pc' : Pc)
    (hpc : pc = .idle ∨ pc = .put s false) (hpc' : pc' = .invoking s ∨ pc' = .closing s)
    (hfree : ∀ x, st.sessions[s]? = some x → x.listed = true → x.lock = none →
      pc.session = some s ∨ ∀ pc1 ∈ st.pcs, pc1.session ≠ some s) : (st.getSession t s pc').Sound := by
  unfold Tas.getSession
  split
  · exact h
  case h_2 x hx =>
    split
    case isFalse => exact h
    case isTrue hopen =>
      simp only [Bool.and_eq_true, decide_eq_true_eq] at hopen
      have hl : st.Has s fun x => x.listed = true := ⟨x, hx, hopen.1⟩
      refine h.marks ht pc' hl ⟨?_, hfree x hx hopen.1 hopen.2⟩ ?_ ?_ ?_ (fun _ => ⟨rfl, rfl, rfl⟩) ?_ ?_
      · obtain rfl | rfl := hpc
        · intro k hk
          cases hk
        · exact inside rfl
      · obtain rfl | rfl := hpc <;> exact id
      · obtain rfl | rfl := hpc <;> exact id
      · obtain rfl | rfl := hpc' <;> rfl
      · obtain rfl | rfl := hpc' <;> exact hl.setSession fun _ hl => ⟨hl, rfl⟩
      · obtain rfl | rfl := hpc' <;> exact fun _ => id

lemma Sound.frees (hs : pc.session = some s) (hrel : ¬ pc.releases)
    (hbare : st.Bare s) : ((st.setSession s fun x => { x with listed := false }).setPc t .idle).Sound := by
  obtain ⟨x, hx, -, hc⟩ := hbare
  refine h.inSession ht _ .idle hx (.own hs) rfl rfl
    trivial (fun c hfin => hfin.elim) (fun c hl => by cases hl) fun c r hg hr => ?_
  have hat := h.listed (fun pc1 hpc1 hs1 => h.only ht hs pc1 hpc1 hs1 ▸ hrel) hx hg hr
  rw [hc] at hat
  cases hat.2

lemma Sound.inCtx {c0 : ℕ} {y' : TaCtx} (s : ℕ)
    (hy : st.ctxes[c0]? = some y) (hctx : st'.ctxes = st.ctxes.set c0 y') (hpcs : st'.pcs = st.pcs.set t pc') (hown : st.Enters pc s)
    (hin' : pc'.session.getD s = s) (hsess : ∀ k, k ≠ s → st'.sessions[k]? = st.sessions[k]?)
    (hcares : st'.status c0 = st.status c0 ∨
      ∀ (t1 : ℕ) (pc1 : Pc), t1 ≠ t → st.pcs[t1]? = some pc1 → ¬ st.Cares c0 pc1) (hfits : st'.Fits t pc')
    (hfinish : ∀ c, pc'.finishes c → pc.finishes c ∨ ∀ pc1 ∈ st.pcs, ¬ pc1.finishes c) (huses : st'.UsesWell s)
    (howes : st'.OwesWell s) (hready : st'.status c0 = st.status c0 ∨ ∀ k, k ≠ s → st.Ready c0 → ¬ st.Uses k c0)
    (hlisted : y'.listed = true → y.listed = true) (hlive : y'.listed = true → y'.destroyed = false)
    (hcount : ∀ c, c ≠ c0 → st'.count c = st.count c) (hcount0 : y'.destroyed = false → y'.refCount = st'.count c0)
    (hbound : ∀ x c, st'.sessions[s]? = some x → x.given = some c → c < st.ctxes.length) : st'.Sound := by
  have hlen : st'.ctxes.length = st.ctxes.length := by rw [hctx, length_set]
  have hself : st'.ctxes[c0]? = some y' := by rw [hctx, set_self hy]
  refine h.move pc' ht
    { pcs := hpcs
      inside := hown.1
      inside' := inside hin'
      free := hown.2
      sessions := hsess
      cares := fun t1 pc1 hne h1 c hc => ?_
      fits := hfits
      finish := hfinish
      uses := huses
      owes := howes
      ready := fun c hr => ?_
      listed := fun c r hr => ?_
      counts := fun c z hz hd => ?_
      live := fun z hz hl => ?_
      length := hlen.ge
      bound := fun x c hx hg => hlen ▸ hbound x c hx hg }
  · by_cases hcc : c = c0
    · subst hcc
      exact hcares.resolve_right fun hnot => hnot t1 pc1 hne h1 hc
    · exact status_other hctx hcc
  · by_cases hcc : c = c0
    · subst hcc
      exact hready.imp (fun heq => heq.trans hr) fun hnot k hk => hnot k hk hr
    · exact .inl ((status_other hctx hcc).trans hr)
  · by_cases hcc : c = c0
    · subst hcc
      rw [status_eq hself] at hr
      simp only [Option.some.injEq, Prod.mk.injEq] at hr
      exact .inl ⟨_, (status_eq hy).trans (by rw [hlisted hr.1])⟩
    · exact .inl ⟨r, (status_other hctx hcc).symm.trans hr⟩
  · by_cases hcc : c = c0
    · subst hcc
      obtain rfl := mem_unique hself hz
      exact hcount0 hd
    · rw [hctx, set_other (Ne.symm hcc)] at hz
      rw [hcount c hcc]
      exact h.counts c z hz hd
  · rw [hctx] at hz
    obtain hz | rfl := mem_or_eq_of_mem_set hz
    · exact h.live z hz hl
    · exact hlive hl

lemma Sound.not_cares {r : Bool × ℕ} (hs : pc.session = some s)
    (hc : st.status c = some (true, false, r)) (hsole : ∀ k, k ≠ s → ¬ st.Has k fun x => x.given = some c) :
    ∀ (t1 : ℕ) (pc1 : Pc), t1 ≠ t → st.pcs[t1]? = some pc1 → ¬ st.Cares c pc1 := by
  intro t1 pc1 hne h1 hcares
  obtain hf | ⟨-, k, hk, hgiven⟩ := (h.fits t1 pc1 h1).keeps hcares hc
  · exact h.not_finishes hc pc1 (mem_of_getElem? h1) hf
  · refine hsole k ?_ hgiven
    rintro rfl
    exact hne (h.apart _ _ _ _ k h1 ht hk hs)

lemma Sound.destroyContext (s : ℕ) (hf : pc.finishes c) (hown : st.Enters pc s)
    (hin' : pc'.session.getD s = s) (hfinish : ∀ c, ¬ pc'.finishes c) (hrel : ¬ pc.releases)
    (hfits : ∀ st' : Tas, st'.sessions = st.sessions → st'.Dead c → st'.Fits t pc')
    (huses : ∀ x c, st.sessions[s]? = some x → x.listed = true → x.ctx = some c → pc' = .clearing s) :
    ∃ st', st.destroyContext t c pc' = .ok st' ∧ st'.Sound := by
  obtain ⟨⟨i, n⟩, hgone⟩ := (h.fits t pc ht).gone hf
  obtain ⟨y, hy, hyl, hyd, -, hderef⟩ := exists_ctx hgone
  have hctx := setCtx_eq_set (g := fun ctx => { ctx with destroyed := true }) hy
  have hstatus := status_self hctx hy
  rw [Tas.destroyContext, hderef]
  refine ⟨_, rfl, h.inCtx ht s hy hctx rfl hown hin' (fun _ _ => rfl) (.inr fun t1 pc1 hne h1 hcares => ?_)
    (hfits _ rfl ⟨_, hstatus.trans (by rw [hyl])⟩) (fun c hf' => (hfinish c hf').elim) (fun x c' hx hl hc => ?_)
    (fun x c' hx hg ⟨r, hr⟩ => .inl ?_) (.inr fun _ _ hr => ?_) id (fun hl => ?_) (fun c _ => count_congr rfl c)
    (fun hd => by cases hd) fun x c' hx hg => h.bound x (mem_of_getElem? hx) c' hg⟩
  · obtain hf1 | ⟨hl, -⟩ := (h.fits t1 pc1 h1).keeps hcares hgone
    · exact hne (h.finish _ _ _ _ c h1 ht hf1 hf)
    · cases hl
  · refine ⟨(h.uses s x c' hx hl hc).1, .inr ⟨pc', mem_of_getElem? (set_self ht), .inr (.inr ?_)⟩⟩
    exact huses x c' hx hl hc
  · have hr' : st.status c' = some (true, r) := by
      by_cases hcc : c' = c
      · subst hcc
        have hboth := hstatus.symm.trans hr
        simp [hyl] at hboth
      · exact (status_other hctx hcc).symm.trans hr
    refine h.listed (fun pc1 hpc1 hs1 => ?_) hx hg hr'
    obtain hs | hnone := hown.2
    · exact h.only ht hs pc1 hpc1 hs1 ▸ hrel
    · exact absurd hs1 (hnone pc1 hpc1)
  · cases hr.symm.trans hgone
  · exact absurd (hyl.symm.trans hl) (by simp)

lemma Sound.freshGoes (pc' : Pc) (hfresh : st.Fresh s) (hown : st.Enters pc s)
    (hpc' : (∃ uuid, pc' = .missing s uuid ∨ pc' = .initializing s uuid) ∨ pc' = .failed s) : (st.setPc t pc').Sound := by
  obtain ⟨x, hx, hl, hc, hg⟩ := hfresh
  refine h.stays ht pc' hx hown ?_ ?_ (fun c hf => ?_) (fun c _ hc' => absurd (hc.symm.trans hc') (by simp))
    fun c r hg' => absurd (hg.symm.trans hg') (by simp)
  · obtain ⟨uuid, rfl | rfl⟩ | rfl := hpc' <;> rfl
  · obtain ⟨uuid, rfl | rfl⟩ | rfl := hpc'
    · exact ⟨⟨x, hx, hl, hc⟩, x, hx, hg⟩
    · exact ⟨⟨x, hx, hl, hc⟩, x, hx, hg⟩
    · exact ⟨x, hx, hl, hc⟩
  · obtain ⟨uuid, rfl | rfl⟩ | rfl := hpc' <;> exact hf.elim

lemma Sound.acquires (hfresh : st.Fresh s)
    (hown : st.Enters pc s)
    (hy : st.ctxes[c]? = some y) (hyl : y.listed = true) (hyd : y.destroyed = false) (hyi : y.initializing = false) :
    (((st.setCtx c fun ctx => { ctx with refCount := ctx.refCount + 1 }).setSession s fun session =>
      { session with ctx := some c, given := some c }).setPc t (.opened s)).Sound := by
  obtain ⟨x, hx, hl, hc, hg⟩ := hfresh
  have hctx := setCtx_eq_set (g := fun ctx => { ctx with refCount := ctx.refCount + 1 }) hy
  have hready : st.Ready c := (status_eq hy).trans (by simp [hyl, hyd, hyi])
  have hsame := (status_self hctx hy).trans (Eq.trans (by simp [hyl, hyd, hyi]) hready.symm)
  have hcounts := count_setSession (f := fun x => { x with ctx := some c, given := some c }) hx
  refine h.inCtx ht s hy hctx rfl hown rfl (fun _ hk => setSession_other hk)
    (.inl hsame) ⟨_, setSession_self hx, hl⟩ (fun c hf => hf.elim) (fun z c' hz _ hc' => ?_) (fun z c' hz hg' _ => .inl ?_)
    (.inl hsame) id (fun _ => hyd) (fun c' hcc => ?_) (fun _ => ?_) fun z c' hz hg' => ?_
  · obtain rfl := mem_unique (setSession_self hx) hz
    obtain rfl := Option.some.inj hc'
    exact ⟨rfl, .inl (hsame.trans hready)⟩
  · obtain rfl := mem_unique (setSession_self hx) hz
    exact ⟨hl, hg'⟩
  · have := hcounts c'
    rw [hg, if_neg (by simp), if_neg (by simpa using Ne.symm hcc)] at this
    exact this
  · have := hcounts c
    rw [hg, if_pos rfl] at this
    rw [h.counts c y hy hyd]
    exact this.symm
  · obtain rfl := mem_unique (setSession_self hx) hz
    obtain rfl := Option.some.inj hg'
    exact (List.getElem?_eq_some_iff.mp hy).1

lemma Sound.initSessionWithContext (uuid : ℕ) (hfresh : st.Fresh s)
    (hown : st.Enters pc s) :
    ∃ st', st.initSessionWithContext t s uuid = .ok st' ∧ st'.Sound := by
  unfold Tas.initSessionWithContext
  split
  · exact ⟨_, rfl, h.freshGoes ht _ hfresh hown (.inl ⟨uuid, .inl rfl⟩)⟩
  case h_2 c hc =>
    obtain ⟨hlt, hfound, -⟩ := findIdx?_eq_some_iff_getElem.mp hc
    simp only [Bool.and_eq_true, decide_eq_true_eq] at hfound
    have hy := getElem?_eq_getElem hlt
    have hyd := h.live _ (mem_of_getElem? hy) hfound.1
    have hderef : st.deref c = .ok st.ctxes[c] := by simp [deref, hy, hyd]
    rw [hderef, ok_bind]
    split
    · exact ⟨_, rfl, h.freshGoes ht _ hfresh hown (.inl ⟨uuid, .inr rfl⟩)⟩
    case isFalse hyi =>
      split
      · exact ⟨_, rfl, h.freshGoes ht _ hfresh hown (.inl ⟨uuid, .inl rfl⟩)⟩
      · split
        · exact ⟨_, rfl, h.freshGoes ht _ hfresh hown (.inr rfl)⟩
        · exact ⟨_, rfl, h.acquires ht hfresh hown hy hfound.1 hyd (by simpa using hyi)⟩

lemma Sound.panics : ∃ st', st.panics pc = .ok st' ∧ st'.Sound := by
  have hcalm : ∀ s c, pc.session = some s → st.Ready c →
      ∃ st', (st.deref c >>= fun _ => .ok (st.setCtx c fun ctx => { ctx with panicked := true })) = .ok st' ∧ st'.Sound := by
    intro s c hs hr
    obtain ⟨y, hy, -, hyd, -, hderef⟩ := exists_ctx hr
    have hctx := setCtx_eq_set (g := fun ctx => { ctx with panicked := true }) hy
    have hsame := (status_self hctx hy).trans (status_eq hy).symm
    have hall : ∀ c', (st.setCtx c fun ctx => { ctx with panicked := true }).status c' = st.status c' := fun c' => by
      by_cases hcc : c' = c
      · rw [hcc, hsame]
      · exact status_other hctx hcc
    rw [hderef]
    refine ⟨_, rfl, h.inCtx ht s hy hctx (set_same ht).symm (.own hs)
      (by rw [hs]; rfl) (fun _ _ => rfl) (.inl hsame)
      ((h.fits t pc ht).frame (fun _ _ => .of_eq rfl) fun c' _ => hall c') (fun c hf => .inl hf) (fun x c' hx hl hc => ?_)
      (fun x c' hx hg hr' => ?_) (.inl hsame) id (fun _ => hyd) (fun _ _ => rfl) (fun _ => h.counts c y hy hyd)
      fun x c' hx hg => h.bound x (mem_of_getElem? hx) c' hg⟩
    · have huses := h.uses s x c' hx hl hc
      exact ⟨huses.1, huses.2.imp_left fun hready => (hall c').trans hready⟩
    · obtain ⟨r, hr'⟩ := hr'
      exact h.owes s x c' hx hg ⟨r, (hall c').symm.trans hr'⟩
  cases pc with
  | entering s c => exact hcalm s c rfl (h.fits t _ ht).2
  | calling s c | leaving s c => exact hcalm s c rfl (h.fits t _ ht).2.2
  | _ => exact ⟨st, rfl, h⟩

lemma Sound.touch : st.touch pc = .ok st := by
  unfold Tas.touch
  split
  · rfl
  case h_2 c hc =>
    have hlive : ∃ l i n, st.status c = some (l, false, i, n) := by
      obtain ⟨_, -, -, hr | hr⟩ | ⟨-, ⟨i, n⟩, hr⟩ | ⟨hnone, -⟩ := (h.fits t pc ht).cared (.inl hc)
      · exact ⟨_, _, _, hr⟩
      · exact ⟨_, _, _, hr⟩
      · exact ⟨_, _, _, hr⟩
      · cases hnone.symm.trans hc
    obtain ⟨l, i, n, hst⟩ := hlive
    obtain ⟨y, -, -, -, -, hderef⟩ := exists_ctx hst
    rw [hderef, ok_bind]

end

lemma Sound.opened (ht : st.pcs[t]? = some (.opened s)) :
    ∃ st', st.readCtx t s (.put s false) (fun _ => .put s false) (.entering s) = .ok st' ∧ st'.Sound :=
  have hlisted : st.Listed s := h.fits t _ ht
  h.readCtx ht rfl id id hlisted (fun _ => ⟨rfl, rfl, rfl⟩) (fun _ _ => ⟨id, id, id⟩) (fun _ => hlisted)
    fun _ hu hr => ⟨hlisted, hu, hr⟩

lemma Sound.invoking (ht : st.pcs[t]? = some (.invoking s)) :
    ∃ st', st.readCtx t s (.returning s) (fun _ => .dying s) (.calling s) = .ok st' ∧ st'.Sound :=
  have hlock : st.Locks t s := h.fits t _ ht
  h.readCtx ht rfl id id hlock.listed (fun _ => ⟨rfl, rfl, rfl⟩) (fun _ _ => ⟨id, id, id⟩) (fun _ => hlock)
    fun c hu hr => ⟨⟨hlock, c, hu, hr⟩, hlock, hu, hr⟩

lemma Sound.closing (ht : st.pcs[t]? = some (.closing s)) :
    ∃ st', st.readCtx t s (.unlinking s none false) (fun c => .unlinking s (some c) false) (.leaving s) = .ok st' ∧
      st'.Sound :=
  have hlock : st.Locks t s := h.fits t _ ht
  h.readCtx ht rfl id id hlock.listed (fun _ => ⟨rfl, rfl, rfl⟩) (fun _ _ => ⟨id, id, id⟩) (fun hb => ⟨hlock, hb⟩)
    fun _ hu hr => ⟨⟨hlock, hu, hr⟩, hlock, hu, hr⟩

lemma Sound.dying (ht : st.pcs[t]? = some (.dying s)) :
    (st.setPc t (.tearing s (st.sessions[s]?.bind TaSession.ctx))).Sound := by
  obtain ⟨hlock, c, hu, hr⟩ := h.fits t _ ht
  have hctx : st.sessions[s]?.bind TaSession.ctx = some c := by
    obtain ⟨x, hx, -, hc, -⟩ := hu
    rw [hx]
    exact hc
  rw [hctx]
  exact h.goes ht _ rfl id id rfl ⟨hlock, hu, hr⟩ fun _ => id

lemma Sound.returnInvoke (ht : st.pcs[t]? = some (.calling s c)) :
    ∃ st', st.returnInvoke t s c = .ok st' ∧ st'.Sound := by
  obtain ⟨hlock, hu, hr⟩ := h.fits t _ ht
  obtain ⟨y, -, -, -, -, hderef⟩ := exists_ctx hr
  rw [Tas.returnInvoke, hderef]
  refine ⟨_, rfl, ?_⟩
  split
  · exact h.goes ht _ rfl id id rfl ⟨hlock, c, hu, hr⟩ fun _ => id
  · exact h.goes ht _ rfl id id rfl hlock fun _ => id

lemma Sound.returnClose (ht : st.pcs[t]? = some (.leaving s c)) :
    ∃ st', st.returnClose t s c = .ok st' ∧ st'.Sound := by
  obtain ⟨hlock, hu, hr⟩ := h.fits t _ ht
  obtain ⟨y, -, -, -, -, hderef⟩ := exists_ctx hr
  rw [Tas.returnClose, hderef]
  exact ⟨_, rfl, h.goes ht _ rfl id id rfl ⟨hlock, hu, hr⟩ fun _ => id⟩

lemma Sound.returnOpen {success : Bool} (ht : st.pcs[t]? = some (.entering s c)) :
    ∃ st', st.returnOpen t s c success = .ok st' ∧ st'.Sound := by
  obtain ⟨hu, hr⟩ := h.fits t _ ht
  obtain ⟨y, -, -, -, -, hderef⟩ := exists_ctx hr
  rw [Tas.returnOpen, hderef]
  exact ⟨_, rfl, h.marks ht _ hu.listed (.own rfl) id id
    rfl (fun _ => ⟨rfl, rfl, rfl⟩) (hu.listed.setSession fun _ hl => hl) fun _ => id⟩

lemma Sound.putSession (ht : st.pcs[t]? = some (.returning s)) : (st.putSession t s).Sound := by
  have hlock : st.Locks t s := h.fits t _ ht
  exact h.marks ht _ hlock.listed (.own rfl) id id rfl
    (fun _ => ⟨rfl, rfl, rfl⟩) trivial fun _ => id

lemma Sound.clears (ht : st.pcs[t]? = some (.clearing s)) :
    ((st.setSession s fun x => { x with ctx := none }).setPc t (.returning s)).Sound := by
  obtain ⟨hlock, c, ⟨x, hx, hl, hc, hgiven⟩, r, hdead⟩ := h.fits t _ ht
  refine h.inSession ht _ _ hx (.own rfl) rfl rfl
    (Has.setSession hlock fun _ hl => hl) (fun c hfin => hfin.elim) (fun c _ hc => by cases hc) fun c' r' hg hr => ?_
  -- The context that the session was given is destroyed.
  obtain rfl := mem_unique hgiven hg
  cases hdead.symm.trans hr

lemma Sound.left (ht : st.pcs[t]? = some (.left s c)) : (st.setPc t (.releasing s c)).Sound := by
  obtain ⟨⟨x, hx, hl, hgiven⟩, hr⟩ := h.fits t _ ht
  exact h.stays ht (.releasing s c) hx (.own rfl) rfl (h.fits t (.left s c) ht) (fun _ => id)
    (fun c hl' => absurd (hl.symm.trans hl') (by simp)) fun c' r hg _ => .inr (.inr (by rw [mem_unique hgiven hg]))

lemma Sound.destroySession {oc : Option ℕ} {entered : Bool}
    (ht : st.pcs[t]? = some (.unlinking s oc entered)) : (st.destroySession t s oc entered).Sound := by
  unfold Tas.destroySession
  split
  · exact h
  case h_2 x hx =>
    split
    case isTrue => exact h
    case isFalse =>
      cases oc with
      | none => exact h.frees ht rfl id (h.fits t _ ht).2
      | some c =>
        obtain ⟨-, hu, hr⟩ := h.fits t _ ht
        have howes : ∀ pc', ((st.setSession s fun x => { x with listed := false }).setPc t pc').Owes s c := fun pc' =>
          Has.setSession hu fun x hx => ⟨rfl, hx.2.2⟩
        have hgiven : x.given = some c := by
          obtain ⟨x', hx', -, -, hg⟩ := hu
          rw [mem_unique hx hx', hg]
        dsimp only
        split
        · exact h.inSession ht _ _ hx (.own rfl)
            rfl rfl ⟨howes _, hr⟩ (fun c hfin => hfin.elim) (fun c hl => by cases hl)
            fun c' r hg _ => .inr (.inl (by rw [mem_unique hgiven hg]))
        · exact h.inSession ht _ _ hx (.own rfl)
            rfl rfl ⟨howes _, hr⟩ (fun c hfin => hfin.elim) (fun c hl => by cases hl)
            fun c' r hg _ => .inr (.inr (by rw [mem_unique hgiven hg]))

lemma Sound.loaded {ok : Bool} (ht : st.pcs[t]? = some (.loading s c)) :
    ∃ st', st.loaded t s c ok = .ok st' ∧ st'.Sound := by
  obtain ⟨⟨x, hx, hl, hc, hgiven⟩, hload⟩ := h.fits t _ ht
  obtain ⟨y, hy, hyl, hyd, hyi, hderef⟩ := exists_ctx hload
  have hone : y.refCount = 1 := by
    have := (status_eq hy).symm.trans hload
    simp only [hyi, if_true, Option.some.injEq, Prod.mk.injEq] at this
    exact this.2.2.2
  have hsole : ∀ k, k ≠ s → ¬ st.Has k fun x => x.given = some c := fun k hk => h.sole hy hyd hone ⟨x, hx, hgiven⟩ hk
  have hnotready : ¬ st.Ready c := fun hr => by cases hr.symm.trans hload
  rw [Tas.loaded, hderef]
  cases ok with
  | true =>
    have hctx := setCtx_eq_set (g := fun ctx => { ctx with initializing := false }) hy
    have hstatus := status_self hctx hy
    refine ⟨_, rfl, h.inCtx ht s hy hctx rfl (.own rfl)
      rfl (fun _ _ => rfl) (.inr (h.not_cares ht rfl hload hsole)) ⟨x, hx, hl⟩
      (fun c hf => hf.elim) (fun z c' hz hl' hc' => ?_) (fun z c' hz hg _ => .inl ?_) (.inr fun k _ hr => absurd hr hnotready) id
      (fun _ => hyd) (fun c _ => count_congr rfl c) (fun _ => h.counts c y hy hyd) fun z c' hz hg =>
        h.bound z (mem_of_getElem? hz) c' hg⟩
    · obtain rfl := mem_unique hx hz
      obtain rfl := mem_unique hc hc'
      refine ⟨hgiven, .inl (hstatus.trans ?_)⟩
      simp [hyl, hyd]
    · obtain rfl := mem_unique hx hz
      obtain rfl := mem_unique hgiven hg
      exact ⟨hl, hc⟩
  | false =>
    have hctx := setCtx_eq_set (g := fun ctx => { ctx with listed := false }) hy
    have hstatus := status_self hctx hy
    refine ⟨_, rfl, h.inCtx ht s hy hctx rfl (.own rfl)
      rfl (fun _ hk => setSession_other hk) (.inr (h.not_cares ht rfl hload hsole))
      ⟨⟨_, setSession_self hx, hl, rfl⟩, _, hstatus.trans (by rw [hyd])⟩ (fun c' hf => .inr ?_) (fun z c' hz _ hc' => ?_)
      (fun z c' hz hg ⟨r, hr⟩ => ?_) (.inr fun k _ hr => absurd hr hnotready) (fun hf => by cases hf) (fun hf => by cases hf)
      (fun c' _ => ?_) (fun _ => ?_) fun z c' hz hg => ?_⟩
    · exact hf ▸ h.not_finishes hload
    · obtain rfl := mem_unique (setSession_self hx) hz
      cases hc'
    · obtain rfl := mem_unique (setSession_self hx) hz
      obtain rfl := mem_unique hgiven hg
      cases hstatus.symm.trans hr
    · exact st.count_setSession_given hx rfl c'
    · exact (h.counts c y hy hyd).trans (st.count_setSession_given hx rfl c).symm
    · obtain rfl := mem_unique (setSession_self hx) hz
      exact h.bound x (mem_of_getElem? hx) c' hg

lemma Sound.discards (ht : st.pcs[t]? = some (.discarding s c)) :
    ∃ st', st.destroyContext t c (.failed s) = .ok st' ∧ st'.Sound := by
  obtain ⟨hbare, -⟩ := h.fits t _ ht
  refine h.destroyContext ht s rfl (.own rfl) rfl
    (fun _ => id) id (fun st' hs _ => Has.congr hbare (by rw [hs])) fun x c hx hl hc => ?_
  obtain ⟨x', hx', -, hnone⟩ := hbare
  rw [mem_unique hx hx', hnone] at hc
  cases hc

lemma Sound.torn (ht : st.pcs[t]? = some (.torn s c)) :
    ∃ st', st.destroyContext t c (.clearing s) = .ok st' ∧ st'.Sound := by
  obtain ⟨hlock, hu, -⟩ := h.fits t _ ht
  exact h.destroyContext ht s rfl (.own rfl) rfl
    (fun _ => id) id (fun st' hs hd => ⟨hlock.congr (by rw [hs]), c, hu.congr (by rw [hs]), hd⟩) fun _ _ _ _ _ => rfl

lemma Sound.destroying (ht : st.pcs[t]? = some (.destroying c)) :
    ∃ st', st.destroyContext t c .idle = .ok st' ∧ st'.Sound := by
  refine h.destroyContext ht st.sessions.length rfl (.new rfl h.session_ne_length) rfl (fun _ => id) id
    (fun _ _ _ => trivial) fun x c hx => ?_
  exact absurd (List.getElem?_eq_some_iff.mp hx).1 (lt_irrefl _)

lemma Sound.release (ht : st.pcs[t]? = some (.releasing s c)) : ∃ st', st.release t s c = .ok st' ∧ st'.Sound := by
  obtain ⟨⟨x, hx, hl, hgiven⟩, hready⟩ := h.fits t _ ht
  obtain ⟨y, hy, hyl, hyd, hyi, hderef⟩ := exists_ctx hready
  have hcount := h.counts c y hy hyd
  have hpos : 1 ≤ st.count c := by
    have hle := le_sum (fun x : TaSession => if x.given = some c then 1 else 0) (mem_of_getElem? hx)
    simpa [hgiven, count] using hle
  rw [Tas.release, hderef, ok_bind, if_neg (by omega)]
  generalize hlast : (decide (y.refCount = 1) && !(y.flags.instanceKeepAlive && y.flags.singleInstance)) = last
  have hctx := setCtx_eq_set (g := fun ctx => { ctx with refCount := ctx.refCount - 1, listed := ctx.listed && !last }) hy
  have hstatus := status_self hctx hy
  have hcounts := count_setSession (f := fun x => { x with given := none }) hx
  -- The last reference takes the context with it: no other session has it.
  have hsole : last = true → ∀ k, k ≠ s → ¬ st.Has k fun x => x.given = some c := by
    intro he k hk
    rw [he] at hlast
    simp only [Bool.and_eq_true, decide_eq_true_eq] at hlast
    exact h.sole hy hyd hlast.1 ⟨x, hx, hgiven⟩ hk
  have hsame := fun he : last = false => hstatus.trans (Eq.trans (by simp [he, hyl, hyd, hyi]) hready.symm)
  refine ⟨_, rfl, h.inCtx ht s hy hctx rfl (.own rfl) ?_
    (fun _ hk => setSession_other hk) ?_ ?_ (fun c' hf => .inr ?_) (fun z c' hz hl' => ?_) (fun z c' hz hg => ?_) ?_
    (fun _ => hyl) (fun _ => hyd) (fun c' hcc => ?_) (fun _ => ?_) fun z c' hz hg => ?_⟩
  · cases last <;> rfl
  · cases last with
    | false => exact .inl (hsame rfl)
    | true => exact .inr (h.not_cares ht rfl hready (hsole rfl))
  · cases last with
    | false => trivial
    | true => exact ⟨_, hstatus.trans (by simp [hyd]; rfl)⟩
  · cases last with
    | false => exact hf.elim
    | true => exact hf ▸ h.not_finishes hready
  · obtain rfl := mem_unique (setSession_self hx) hz
    exact absurd (hl.symm.trans hl') (by simp)
  · obtain rfl := mem_unique (setSession_self hx) hz
    cases hg
  · cases last with
    | false => exact .inl (hsame rfl)
    | true => exact .inr fun k hk _ ⟨z, hz, hu⟩ => hsole rfl k hk ⟨z, hz, hu.2.2⟩
  · have := hcounts c'
    rw [hgiven, if_neg (by simpa using Ne.symm hcc)] at this
    exact this
  · have := hcounts c
    rw [hgiven, if_pos rfl] at this
    exact Nat.sub_eq_of_eq_add (hcount.trans this.symm)
  · obtain rfl := mem_unique (setSession_self hx) hz
    cases hg

lemma Sound.addSession (owner : Option ℕ) (ht : st.pcs[t]? = some .idle) :
    (st.addSession ⟨owner, none, true, true, none, none⟩).Sound := by
  have hself : (st.addSession ⟨owner, none, true, true, none, none⟩).sessions[st.sessions.length]? =
    some ⟨owner, none, true, true, none, none⟩ := getElem?_concat_length
  refine h.move .idle ht
    { pcs := (set_same ht).symm
      inside := fun k hk => by cases hk
      inside' := fun k hk => by cases hk
      free := .inr h.session_ne_length
      sessions := fun k hk => append_other hk
      cares := fun _ _ _ _ _ _ => rfl
      fits := trivial
      finish := fun c hf => hf.elim
      uses := fun x c hx _ hc => ?_
      owes := fun x c hx hg => ?_
      ready := fun _ hr => .inl hr
      listed := fun c r hr => .inl ⟨r, hr⟩
      counts := fun c y hy hd => ?_
      live := h.live
      length := Nat.le_refl _
      bound := fun x c hx hg => ?_ }
  · obtain rfl := mem_unique hself hx
    cases hc
  · obtain rfl := mem_unique hself hx
    cases hg
  · rw [h.counts c y hy hd]
    simp [count, Tas.addSession]
  · obtain rfl := mem_unique hself hx
    cases hg

lemma Sound.openSession {owner : Option ℕ} {uuid : ℕ} (ht : st.pcs[t]? = some .idle) :
    ∃ st', st.openSession t owner uuid = .ok st' ∧ st'.Sound :=
  (h.addSession owner ht).initSessionWithContext ht uuid ⟨_, getElem?_concat_length, rfl, rfl, rfl⟩
    (.new rfl h.session_ne_length)

lemma Sound.create {uuid : ℕ} {flags : TaFlags} {load : Bool} (ht : st.pcs[t]? = some (.missing s uuid)) :
    (st.create t s uuid flags load).Sound := by
  obtain ⟨⟨x, hx, hl, hc⟩, x', hx', hg⟩ := h.fits t _ ht
  obtain rfl := mem_unique hx hx'
  have hself : (st.create t s uuid flags load).sessions[s]? =
    some { x with ctx := some st.ctxes.length, given := some st.ctxes.length } := setSession_self hx
  have hold : ∀ c, c ≠ st.ctxes.length → (st.create t s uuid flags load).ctxes[c]? = st.ctxes[c]? := fun c hcc =>
    append_other hcc
  have hnew : (st.create t s uuid flags load).ctxes[st.ctxes.length]? = some ⟨uuid, flags, 1, false, load, true, false⟩ :=
    getElem?_concat_length
  have hstatus : ∀ c, c ≠ st.ctxes.length → (st.create t s uuid flags load).status c = st.status c := fun c hcc => by
    rw [status, hold c hcc]
    rfl
  have hnone : st.status st.ctxes.length = none := by
    rw [status, getElem?_eq_none (Nat.le_refl _)]
    rfl
  have hcounts : ∀ c, (st.create t s uuid flags load).count c =
      st.count c + if some st.ctxes.length = some c then 1 else 0 := fun c => by
    have := count_setSession (f := fun x => { x with ctx := some st.ctxes.length, given := some st.ctxes.length }) hx c
    rw [hg] at this
    exact this
  refine h.move _ ht
    { pcs := rfl
      inside := inside rfl
      inside' := fun k hk => ?_
      free := .inl rfl
      sessions := fun k hk => setSession_other hk
      cares := fun t1 pc1 _ h1 c hcares => hstatus c ?_
      fits := ?_
      finish := fun c hf => ?_
      uses := fun z c hz _ hc' => ?_
      owes := fun z c hz hg' _ => .inl ?_
      ready := fun c hr => .inl ((hstatus c ?_).trans hr)
      listed := fun c r hr => ?_
      counts := fun c y hy hd => ?_
      live := fun y hy hl' => ?_
      length := ?_
      bound := fun z c hz hg' => ?_ }
  · cases load <;> exact (Option.some.inj hk).symm
  · rintro rfl
    obtain ⟨_, -, -, hr | hr⟩ | ⟨-, _, hr⟩ | ⟨-, _, hr⟩ := (h.fits t1 pc1 h1).cared hcares
    all_goals cases hnone.symm.trans hr
  · cases load with
    | false => exact ⟨_, hself, hl⟩
    | true => exact ⟨⟨_, hself, hl, rfl, rfl⟩, status_eq hnew⟩
  · cases load <;> exact hf.elim
  · obtain rfl := mem_unique hself hz
    obtain rfl := Option.some.inj hc'
    refine ⟨rfl, ?_⟩
    cases load with
    | false => exact .inl (status_eq hnew)
    | true => exact .inr ⟨_, mem_of_getElem? (set_self ht), .inl rfl⟩
  · obtain rfl := mem_unique hself hz
    exact ⟨hl, hg'⟩
  · rintro rfl
    cases hnone.symm.trans hr
  · by_cases hcc : c = st.ctxes.length
    · exact .inr hcc
    · exact .inl ⟨r, (hstatus c hcc).symm.trans hr⟩
  · rw [hcounts]
    by_cases hcc : c = st.ctxes.length
    · subst hcc
      obtain rfl := mem_unique hnew hy
      have hzero : st.count st.ctxes.length = 0 := by
        refine sum_eq_zero fun n hn => ?_
        obtain ⟨z, hz, rfl⟩ := mem_map.mp hn
        exact if_neg fun hz' => absurd (h.bound z hz _ hz') (lt_irrefl _)
      rw [hzero, if_pos rfl]
    · rw [hold c hcc] at hy
      rw [if_neg (by simpa using Ne.symm hcc)]
      exact h.counts c y hy hd
  · obtain hy | hy := mem_append.mp (hy)
    · exact h.live y hy hl'
    · rw [mem_singleton.mp hy]
  · show st.ctxes.length ≤ (st.ctxes ++ [_]).length
    simp
  · obtain rfl := mem_unique hself hz
    obtain rfl := Option.some.inj hg'
    show st.ctxes.length < (st.ctxes ++ [_]).length
    simp

end

end Tas

end Optee.Ta.Contexts
