import Optee.Lib.Runs
import Optee.TeeResult

/-! Busy TA contexts and the lock that all single-instance TAs share. -/

set_option linter.unusedSectionVars false

namespace Optee.Ta

open Lib Function List

structure CtxFlags where
  concurrent : Bool
  singleInstance : Bool

def CtxFlags.exclusive (f : CtxFlags) : Bool := !f.concurrent

def CtxFlags.locks (f : CtxFlags) : Bool := !f.concurrent && f.singleInstance

lemma CtxFlags.exclusive_of_locks {f : CtxFlags} (h : f.locks) : f.exclusive := by
  simp only [CtxFlags.locks, Bool.and_eq_true] at h
  exact h.1

inductive Wait (κ : Type)
  | running
  /-- in `lock_single_instance` -/
  | lock (ctx : κ)
  /-- for `ctx->busy_cv` -/
  | busy (ctx : κ)

structure Thread (κ : Type) where
  wait : Wait κ
  chain : List κ

structure Busy (κ : Type) where
  singleInstanceThread : Option ℕ
  singleInstanceCount : ℕ
  busy : κ → Bool
  threads : ℕ → Thread κ

def Busy.init (κ : Type) : Busy κ := ⟨none, 0, fun _ => false, fun _ => ⟨.running, []⟩⟩

inductive Outcome
  | entered
  | refused
  | waits

namespace Busy

variable {κ : Type} [DecidableEq κ] (flags : κ → CtxFlags) (s : Busy κ) (t : ℕ) (ctx : κ)

def setThread (thread : Thread κ) : Busy κ := { s with threads := update s.threads t thread }

def lockSingleInstance : Busy κ := { s with singleInstanceCount := s.singleInstanceCount + 1 }

def unlockSingleInstance : TeeResult (Busy κ) := do
  assert (s.singleInstanceThread = some t)
  assert (s.singleInstanceCount > 0)
  let count := s.singleInstanceCount - 1
  .ok { s with
    singleInstanceCount := count
    singleInstanceThread := if count = 0 then none else s.singleInstanceThread }

def unlockIfSingleInstance : TeeResult (Busy κ) :=
  if (flags ctx).singleInstance then s.unlockSingleInstance t else .ok s

def enter : Busy κ :=
  { s with busy := update s.busy ctx true }.setThread t ⟨.running, ctx :: (s.threads t).chain⟩

def trySetBusyLocked : TeeResult (Busy κ × Outcome) :=
  if s.singleInstanceThread = some t then
    if s.busy ctx then do
      let s ← s.unlockIfSingleInstance flags t ctx
      .ok ({ s with busy := update s.busy ctx true }.setThread t ⟨.running, (s.threads t).chain⟩, .refused)
    else .ok (s.enter t ctx, .entered)
  else if s.busy ctx then .ok (s.setThread t ⟨.busy ctx, (s.threads t).chain⟩, .waits)
  else .ok (s.enter t ctx, .entered)

def waitSingleInstance : TeeResult (Busy κ × Outcome) :=
  if s.singleInstanceThread ≠ none then .ok (s.setThread t ⟨.lock ctx, (s.threads t).chain⟩, .waits)
  else do
    assert (s.singleInstanceCount = 0)
    ({ s with singleInstanceThread := some t }.lockSingleInstance).trySetBusyLocked flags t ctx

def trySetBusy : TeeResult (Busy κ × Outcome) :=
  if (flags ctx).concurrent then .ok (s.setThread t ⟨.running, ctx :: (s.threads t).chain⟩, .entered)
  else if !(flags ctx).singleInstance then s.trySetBusyLocked flags t ctx
  else if s.singleInstanceThread = some t then s.lockSingleInstance.trySetBusyLocked flags t ctx
  else s.waitSingleInstance flags t ctx

def wake : TeeResult (Busy κ × Outcome) :=
  match (s.threads t).wait with
  | .running => .ok (s, .waits)
  | .lock ctx => s.waitSingleInstance flags t ctx
  | .busy ctx =>
    if s.busy ctx then .ok (s, .waits)
    else .ok (s.enter t ctx, .entered)

def clearBusy (rest : List κ) : TeeResult (Busy κ) :=
  if (flags ctx).concurrent then .ok (s.setThread t ⟨.running, rest⟩)
  else do
    assert (s.busy ctx = true)
    let s := { s with busy := update s.busy ctx false }
    let s ← s.unlockIfSingleInstance flags t ctx
    .ok (s.setThread t ⟨.running, rest⟩)

end Busy

inductive Act (κ : Type)
  | call (ctx : κ)
  | wake
  | return

variable {κ : Type}

def Busy.step [DecidableEq κ] (flags : κ → CtxFlags) (s : Busy κ) (move : ℕ × Act κ) : TeeResult (Busy κ) :=
  let thread := s.threads move.1
  match move.2, thread.wait, thread.chain with
  | .call ctx, .running, _ => (s.trySetBusy flags move.1 ctx).map Prod.fst
  | .wake, _, _ => (s.wake flags move.1).map Prod.fst
  | .return, .running, ctx :: rest => s.clearBusy flags move.1 ctx rest
  | _, _, _ => .ok s

structure Busy.Exclusive [DecidableEq κ] (flags : κ → CtxFlags) (s : Busy κ) : Prop where
  once : ∀ t ctx, (flags ctx).exclusive → (s.threads t).chain.count ctx ≤ 1
  alone : ∀ t u ctx, (flags ctx).exclusive → ctx ∈ (s.threads t).chain → ctx ∈ (s.threads u).chain → t = u
  busy : ∀ ctx, s.busy ctx = true ↔ (flags ctx).exclusive ∧ ∃ t, ctx ∈ (s.threads t).chain
  owner : ∀ t ctx, (flags ctx).locks → ctx ∈ (s.threads t).chain → s.singleInstanceThread = some t
  count : ∀ t, s.singleInstanceThread = some t →
    s.singleInstanceCount = (s.threads t).chain.countP fun ctx => (flags ctx).locks
  free : s.singleInstanceThread = none ↔ s.singleInstanceCount = 0

def Busy.Waits (flags : κ → CtxFlags) (s : Busy κ) : Prop :=
  ∀ t, match (s.threads t).wait with
    | .running => True
    | .lock ctx => (flags ctx).locks
    | .busy ctx => (flags ctx).exclusive ∧ ¬(flags ctx).locks

namespace Busy

variable {κ : Type} [DecidableEq κ] {flags : κ → CtxFlags} {s : Busy κ} {t : ℕ} {ctx : κ}

@[simp] lemma setThread_busy (thread : Thread κ) : (s.setThread t thread).busy = s.busy := rfl

@[simp] lemma setThread_singleInstanceThread (thread : Thread κ) :
    (s.setThread t thread).singleInstanceThread = s.singleInstanceThread := rfl

@[simp] lemma setThread_singleInstanceCount (thread : Thread κ) :
    (s.setThread t thread).singleInstanceCount = s.singleInstanceCount := rfl

@[simp] lemma setThread_threads (thread : Thread κ) : (s.setThread t thread).threads = update s.threads t thread := rfl

lemma chain_setThread (u : ℕ) (thread : Thread κ) :
    ((s.setThread t thread).threads u).chain = if u = t then thread.chain else (s.threads u).chain := by
  by_cases h : u = t
  · subst h
    simp
  · simp [h]

variable {thread : Thread κ} {chain : List κ} {owner : Option ℕ} {count : ℕ}

lemma Waits.setThread (h : s.Waits flags) (hw : match thread.wait with
      | .running => True
      | .lock ctx => (flags ctx).locks
      | .busy ctx => (flags ctx).exclusive ∧ ¬(flags ctx).locks) : (s.setThread t thread).Waits flags := by
  intro u
  by_cases hu : u = t
  · subst hu
    simpa using hw
  · simpa [hu] using h u

def exclusives (flags : κ → CtxFlags) (chain : List κ) : List κ := chain.filter fun ctx => (flags ctx).exclusive

lemma count_exclusives (he : (flags ctx).exclusive) : (exclusives flags chain).count ctx = chain.count ctx :=
  count_filter he

lemma mem_exclusives (he : (flags ctx).exclusive) : ctx ∈ exclusives flags chain ↔ ctx ∈ chain := by
  simp [exclusives, he]

lemma countP_exclusives :
    (exclusives flags chain).countP (fun ctx => (flags ctx).locks) = chain.countP fun ctx => (flags ctx).locks := by
  rw [exclusives, countP_filter]
  refine countP_congr fun c _ => ?_
  simp only [Bool.and_eq_true, and_iff_left_iff_imp]
  exact CtxFlags.exclusive_of_locks

lemma Exclusive.of_exclusives (h : s.Exclusive flags)
    (hc : exclusives flags thread.chain = exclusives flags (s.threads t).chain) :
    (s.setThread t thread).Exclusive flags := by
  have hall : ∀ u, exclusives flags ((s.setThread t thread).threads u).chain =
      exclusives flags (s.threads u).chain := by
    intro u
    rw [chain_setThread]
    split_ifs with hu
    · rw [hc, hu]
    · rfl
  have hmem : ∀ u c, (flags c).exclusive →
      (c ∈ ((s.setThread t thread).threads u).chain ↔ c ∈ (s.threads u).chain) := by
    intro u c he
    rw [← mem_exclusives he, hall, mem_exclusives he]
  refine ⟨fun u c he => ?_, fun u v c he hu hv => ?_, fun c => ?_, fun u c hl hu => ?_, fun u hu => ?_, h.free⟩
  · rw [← count_exclusives he, hall, count_exclusives he]
    exact h.once u c he
  · exact h.alone u v c he ((hmem u c he).mp hu) ((hmem v c he).mp hv)
  · refine (h.busy c).trans (and_congr_right fun he => exists_congr fun u => ?_)
    exact (hmem u c he).symm
  · exact h.owner u c hl ((hmem u c (CtxFlags.exclusive_of_locks hl)).mp hu)
  · rw [← countP_exclusives, hall, countP_exclusives]
    exact h.count u hu

def Takes (flags : κ → CtxFlags) (s : Busy κ) (t : ℕ) (ctx : κ) (owner : Option ℕ) (count : ℕ) : Prop :=
  if (flags ctx).locks then
    owner = some t ∧ count = s.singleInstanceCount + 1 ∧ (s.singleInstanceThread = none ∨ s.singleInstanceThread = some t)
  else owner = s.singleInstanceThread ∧ count = s.singleInstanceCount

lemma Exclusive.count_of_own (h : s.Exclusive flags)
    (ho : s.singleInstanceThread = none ∨ s.singleInstanceThread = some t) :
    s.singleInstanceCount = (s.threads t).chain.countP fun ctx => (flags ctx).locks := by
  rcases ho with ho | ho
  · rw [h.free.mp ho]
    symm
    rw [countP_eq_zero]
    intro c hc hl
    simp [h.owner t c hl hc] at ho
  · exact h.count t ho

lemma Exclusive.enter (h : s.Exclusive flags) (he : (flags ctx).exclusive) (hb : s.busy ctx = false)
    (hk : s.Takes flags t ctx owner count) :
    ({ s with singleInstanceThread := owner, singleInstanceCount := count }.enter t ctx).Exclusive flags := by
  have hno : ∀ u, ctx ∉ (s.threads u).chain := fun u hm => by simpa [hb] using (h.busy ctx).mpr ⟨he, u, hm⟩
  have hchain : ∀ u, (({ s with singleInstanceThread := owner, singleInstanceCount := count }.enter t ctx).threads u).chain =
      if u = t then ctx :: (s.threads t).chain else (s.threads u).chain := fun u => chain_setThread u _
  have hmem : ∀ u c, (c ∈ if u = t then ctx :: (s.threads t).chain else (s.threads u).chain) ↔
      u = t ∧ c = ctx ∨ c ∈ (s.threads u).chain := by
    intro u c
    by_cases hut : u = t <;> simp [hut]
  refine ⟨fun u c hce => ?_, fun u v c hce hu hv => ?_, fun c => ?_, fun u c hl hu => ?_, fun u hu => ?_, ?_⟩
  · rw [hchain]
    split_ifs
    · by_cases hcc : c = ctx
      · subst hcc
        simp [count_eq_zero.mpr (hno t)]
      · rw [count_cons_of_ne (Ne.symm hcc)]
        exact h.once t c hce
    · exact h.once u c hce
  · rw [hchain, hmem] at hu hv
    obtain ⟨rfl, rfl⟩ | hu := hu
    · exact (hv.resolve_right (hno v)).1.symm
    · obtain ⟨-, rfl⟩ | hv := hv
      · exact absurd hu (hno u)
      · exact h.alone u v c hce hu hv
  · simp only [hchain, hmem]
    by_cases hcc : c = ctx
    · subst hcc
      simp only [Busy.enter, setThread_busy, update_self, true_iff]
      exact ⟨he, t, .inl ⟨rfl, trivial⟩⟩
    · simp [Busy.enter, setThread_busy, h.busy c, hcc, and_false, false_or]
  · change owner = some u
    rw [hchain, hmem] at hu
    rw [Takes] at hk
    obtain ⟨rfl, rfl⟩ | hu := hu
    · rw [if_pos hl] at hk
      exact hk.1
    have ho := h.owner u c hl hu
    split_ifs at hk
    · obtain ⟨rfl, -, hn | hn⟩ := hk
      · simp [hn] at ho
      · rw [← hn, ho]
    · rw [hk.1, ho]
  · change count = _
    rw [hchain]
    rw [Takes] at hk
    split_ifs at hk with hlocks
    · obtain ⟨rfl, rfl, hn⟩ := hk
      obtain rfl := Option.some.inj hu
      simp [hlocks, h.count_of_own hn]
    obtain ⟨rfl, rfl⟩ := hk
    rw [h.count u hu]
    split_ifs with hut
    · subst hut
      simp [hlocks]
    · rfl
  · change owner = none ↔ count = 0
    rw [Takes] at hk
    split_ifs at hk
    · simp [hk.1, hk.2.1]
    · rw [hk.1, hk.2]
      exact h.free

def Gives (flags : κ → CtxFlags) (s : Busy κ) (ctx : κ) (owner : Option ℕ) (count : ℕ) : Prop :=
  if (flags ctx).locks then
    owner = (if count = 0 then none else s.singleInstanceThread) ∧ count + 1 = s.singleInstanceCount
  else owner = s.singleInstanceThread ∧ count = s.singleInstanceCount

lemma Exclusive.leave {rest : List κ} (h : s.Exclusive flags) (he : (flags ctx).exclusive)
    (hc : (s.threads t).chain = ctx :: rest) (hk : s.Gives flags ctx owner count) :
    (Busy.setThread ⟨owner, count, update s.busy ctx false, s.threads⟩ t ⟨.running, rest⟩).Exclusive flags := by
  have hin : ctx ∈ (s.threads t).chain := by simp [hc]
  have hmem : ∀ u c, (c ∈ if u = t then rest else (s.threads u).chain) ↔ c ≠ ctx ∧ c ∈ (s.threads u).chain := by
    intro u c
    split_ifs with hut
    · subst hut
      have := h.once u ctx he
      rw [hc, count_cons_self] at this
      have hrest : ctx ∉ rest := count_eq_zero.mp (by omega)
      rw [hc, mem_cons]
      exact ⟨fun hu => ⟨fun hcc => hrest (hcc ▸ hu), .inr hu⟩, fun ⟨hne, hu⟩ => hu.resolve_left hne⟩
    · refine (and_iff_right_of_imp ?_).symm
      rintro hu rfl
      exact hut (h.alone u t c he hu hin)
  refine ⟨fun u c hce => ?_, fun u v c hce hu hv => ?_, fun c => ?_, fun u c hl hu => ?_, fun u hu => ?_, ?_⟩
  · rw [chain_setThread]
    split_ifs
    · refine Nat.le_trans ?_ (h.once t c hce)
      rw [hc]
      exact count_le_count_cons
    · exact h.once u c hce
  · rw [chain_setThread, hmem] at hu hv
    exact h.alone u v c hce hu.2 hv.2
  · simp only [chain_setThread, hmem]
    by_cases hcc : c = ctx
    · simp [hcc]
    · simp [setThread_busy, h.busy c, ne_eq, hcc, not_false_eq_true, true_and]
  · rw [chain_setThread] at hu
    change owner = some u
    have ho := h.owner u c hl ((hmem u c).mp hu).2
    rw [Gives] at hk
    split_ifs at hk with hlocks h0
    · -- the count says that no other context is left
      have hn := h.count t (h.owner t ctx hlocks hin)
      obtain rfl := Option.mem_unique ho (h.owner t ctx hlocks hin)
      rw [if_pos rfl] at hu
      rw [hc, countP_cons, if_pos hlocks] at hn
      have := countP_eq_zero.mp (by omega : rest.countP (fun ctx => (flags ctx).locks) = 0) c hu
      exact absurd hl this
    · rw [hk.1, ho]
    · rw [hk.1, ho]
  · rw [chain_setThread]
    rw [Gives] at hk
    split_ifs at hk with hlocks h0
    · simp [hk.1] at hu
    · have ho := h.owner t ctx hlocks hin
      have hn := h.count t ho
      rw [hk.1, ho] at hu
      obtain rfl := Option.some.inj hu
      rw [← hk.2, hc, countP_cons, if_pos hlocks] at hn
      rw [if_pos rfl]
      exact Nat.add_right_cancel hn
    · rw [hk.2, h.count u (hk.1 ▸ hu)]
      split_ifs with hut
      · simp [hut, hc, hlocks]
      · rfl
  · rw [Gives] at hk
    split_ifs at hk with hlocks h0
    · simp [hk.1, h0]
    · simp [hk.1, h0, h.owner t ctx hlocks hin]
    · rw [hk.1, hk.2]
      exact h.free

structure Good (flags : κ → CtxFlags) (s : Busy κ) : Prop where
  exclusive : s.Exclusive flags
  waits : s.Waits flags

lemma Good.setThread {w : Wait κ} (h : s.Good flags)
    (hw : match w with
      | .running => True
      | .lock ctx => (flags ctx).locks
      | .busy ctx => (flags ctx).exclusive ∧ ¬(flags ctx).locks) :
    (s.setThread t ⟨w, (s.threads t).chain⟩).Good flags :=
  ⟨h.exclusive.of_exclusives rfl, h.waits.setThread hw⟩

lemma Good.enter (h : s.Good flags) (he : (flags ctx).exclusive) (hb : s.busy ctx = false)
    (hk : s.Takes flags t ctx owner count) :
    ({ s with singleInstanceThread := owner, singleInstanceCount := count }.enter t ctx).Good flags :=
  ⟨h.exclusive.enter he hb hk, Waits.setThread h.waits trivial⟩

lemma trySetBusyLocked_spec (owner : Option ℕ) (count : ℕ) (h : s.Good flags) (he : (flags ctx).exclusive)
    (hk : s.Takes flags t ctx owner count) :
    ∃ r, { s with singleInstanceThread := owner, singleInstanceCount := count }.trySetBusyLocked flags t ctx = .ok r ∧
      r.1.Good flags ∧ (r.2 = .refused ↔ owner = some t ∧ s.busy ctx = true) := by
  rw [trySetBusyLocked]
  by_cases ho : owner = some t
  · cases hb : s.busy ctx with
    | false =>
      refine ⟨({ s with singleInstanceThread := owner, singleInstanceCount := count }.enter t ctx, .entered), ?_,
        h.enter he hb hk, by simp⟩
      simp [ho]
    | true =>
      -- the state is back to what it was: the context stays busy, the lock has the old count
      have hself : update s.busy ctx true = s.busy := by rw [← hb, update_eq_self]
      refine ⟨(s.setThread t ⟨.running, (s.threads t).chain⟩, .refused), ?_, h.setThread trivial, by simp [ho]⟩
      obtain ⟨u, hu⟩ := ((h.exclusive.busy ctx).mp hb).2
      rw [Takes] at hk
      split_ifs at hk with hl
      · have hsingle : (flags ctx).singleInstance = true := (Bool.and_eq_true _ _ ▸ hl : _ ∧ _).2
        have hown := h.exclusive.owner u ctx hl hu
        obtain ⟨-, rfl, hn | hn⟩ := hk
        · simp [hn] at hown
        have h0 : s.singleInstanceCount ≠ 0 := by
          rw [Ne, ← h.exclusive.free, hn]
          simp
        subst ho
        simp [unlockIfSingleInstance, hsingle, unlockSingleInstance, assert, hself, h0, ← hn]
      · have hsingle : (flags ctx).singleInstance = false := by
          simpa [CtxFlags.locks, show (flags ctx).concurrent = false by simpa [CtxFlags.exclusive] using he] using hl
        obtain ⟨rfl, rfl⟩ := hk
        rw [if_pos ho]
        simp [unlockIfSingleInstance, hsingle, hself]
  · have hl : ¬(flags ctx).locks := by
      intro hl
      rw [Takes, if_pos hl] at hk
      exact ho hk.1
    obtain ⟨rfl, rfl⟩ : owner = s.singleInstanceThread ∧ count = s.singleInstanceCount := by
      rwa [Takes, if_neg hl] at hk
    cases hb : s.busy ctx with
    | false => exact ⟨(s.enter t ctx, .entered), by simp [ho], h.enter he hb hk, by simp [ho]⟩
    | true =>
      refine ⟨(s.setThread t ⟨.busy ctx, (s.threads t).chain⟩, .waits), by simp [ho], h.setThread ⟨he, hl⟩, ?_⟩
      simp [ho]

lemma waitSingleInstance_spec (h : s.Good flags) (hl : (flags ctx).locks) :
    ∃ r, s.waitSingleInstance flags t ctx = .ok r ∧ r.1.Good flags ∧ r.2 ≠ .refused := by
  rw [waitSingleInstance]
  cases hn : s.singleInstanceThread with
  | some u => exact ⟨(s.setThread t ⟨.lock ctx, (s.threads t).chain⟩, .waits), by simp, h.setThread hl, by simp⟩
  | none =>
    have h0 := h.exclusive.free.mp hn
    have he := CtxFlags.exclusive_of_locks hl
    obtain ⟨r, hr, hg, href⟩ := trySetBusyLocked_spec (some t) (s.singleInstanceCount + 1) h he
      (by rw [Takes, if_pos hl]; exact ⟨rfl, rfl, .inl hn⟩)
    refine ⟨r, by simpa [assert, h0, lockSingleInstance] using hr, hg, ?_⟩
    rw [Ne, href]
    rintro ⟨-, hb⟩
    obtain ⟨u, hu⟩ := ((h.exclusive.busy ctx).mp hb).2
    simp [h.exclusive.owner u ctx hl hu] at hn

lemma trySetBusy_spec (t : ℕ) (ctx : κ) (h : s.Good flags) :
    ∃ r, s.trySetBusy flags t ctx = .ok r ∧ r.1.Good flags ∧
      (r.2 = .refused ↔ s.singleInstanceThread = some t ∧ s.busy ctx = true) := by
  rw [trySetBusy]
  cases hcon : (flags ctx).concurrent with
  | true =>
    have hne : (flags ctx).exclusive = false := by simp [CtxFlags.exclusive, hcon]
    refine ⟨(s.setThread t ⟨.running, ctx :: (s.threads t).chain⟩, .entered), by simp, ⟨?_, h.waits.setThread trivial⟩, ?_⟩
    · exact h.exclusive.of_exclusives (by simp [exclusives, hne])
    · have := mt (h.exclusive.busy ctx).mp (by simp [hne])
      simp [this]
  | false =>
    have he : (flags ctx).exclusive = true := by simp [CtxFlags.exclusive, hcon]
    cases hs : (flags ctx).singleInstance with
    | false =>
      have hl : ¬(flags ctx).locks := by simp [CtxFlags.locks, hs]
      simpa [hs] using trySetBusyLocked_spec _ _ h he (by rw [Takes, if_neg hl]; exact ⟨rfl, rfl⟩)
    | true =>
      have hl : (flags ctx).locks := by simp [CtxFlags.locks, hcon, hs]
      by_cases ho : s.singleInstanceThread = some t
      · obtain ⟨r, hr, hg, href⟩ := trySetBusyLocked_spec (some t) (s.singleInstanceCount + 1) h he
          (by rw [Takes, if_pos hl]; exact ⟨rfl, rfl, .inr ho⟩)
        exact ⟨r, by simpa [ho, lockSingleInstance] using hr, hg, by simpa [ho] using href⟩
      · obtain ⟨r, hr, hg, href⟩ := waitSingleInstance_spec h hl
        exact ⟨r, by simpa [ho] using hr, hg, by simp [ho, href]⟩

lemma wake_spec (h : s.Good flags) : ∃ r, s.wake flags t = .ok r ∧ r.1.Good flags ∧ r.2 ≠ .refused := by
  have hw := h.waits t
  rw [wake]
  cases hwait : (s.threads t).wait with
  | running => exact ⟨(s, .waits), rfl, h, by simp⟩
  | lock ctx =>
    rw [hwait] at hw
    exact waitSingleInstance_spec h hw
  | busy ctx =>
    rw [hwait] at hw
    cases hb : s.busy ctx with
    | true => exact ⟨(s, .waits), by simp [hb], h, by simp⟩
    | false =>
      refine ⟨(s.enter t ctx, .entered), by simp [hb], h.enter hw.1 hb ?_, by simp⟩
      rw [Takes, if_neg hw.2]
      exact ⟨rfl, rfl⟩

lemma clearBusy_spec {rest : List κ} (h : s.Good flags) (hc : (s.threads t).chain = ctx :: rest) :
    ∃ s', s.clearBusy flags t ctx rest = .ok s' ∧ s'.Good flags := by
  rw [clearBusy]
  cases hcon : (flags ctx).concurrent with
  | true =>
    refine ⟨s.setThread t ⟨.running, rest⟩, by simp, ?_, h.waits.setThread trivial⟩
    exact h.exclusive.of_exclusives (by simp [hc, exclusives, CtxFlags.exclusive, hcon])
  | false =>
    have he : (flags ctx).exclusive = true := by simp [CtxFlags.exclusive, hcon]
    have hin : ctx ∈ (s.threads t).chain := by simp [hc]
    have hb := (h.exclusive.busy ctx).mpr ⟨he, t, hin⟩
    have hleave : ∀ {owner count}, s.Gives flags ctx owner count →
        (Busy.setThread ⟨owner, count, update s.busy ctx false, s.threads⟩ t ⟨.running, rest⟩).Good flags := fun hk =>
      ⟨h.exclusive.leave he hc hk, Waits.setThread h.waits trivial⟩
    cases hs : (flags ctx).singleInstance with
    | false =>
      have hl : ¬(flags ctx).locks := by simp [CtxFlags.locks, hs]
      refine ⟨_, ?_, hleave (by rw [Gives, if_neg hl]; exact ⟨rfl, rfl⟩)⟩
      simp [assert, hb, unlockIfSingleInstance, hs]
    | true =>
      have hl : (flags ctx).locks := by simp [CtxFlags.locks, hcon, hs]
      have ho := h.exclusive.owner t ctx hl hin
      have h0 : 0 < s.singleInstanceCount := by
        rw [h.exclusive.count t ho, countP_pos_iff]
        exact ⟨ctx, hin, hl⟩
      refine ⟨_, ?_, hleave (by rw [Gives, if_pos hl]; exact ⟨rfl, Nat.sub_add_cancel h0⟩)⟩
      simp [assert, hb, unlockIfSingleInstance, hs, unlockSingleInstance, ho, h0]

lemma step_good (h : s.Good flags) (move : ℕ × Act κ) : ∃ s', Busy.step flags s move = .ok s' ∧ s'.Good flags := by
  obtain ⟨t, act⟩ := move
  rw [Busy.step]
  split
  · rename_i ctx _ _
    obtain ⟨r, hr, hg, -⟩ := trySetBusy_spec t ctx h
    exact ⟨r.1, by simp [hr, Except.map], hg⟩
  · obtain ⟨r, hr, hg, -⟩ := wake_spec (t := t) h
    exact ⟨r.1, by simp [hr, Except.map], hg⟩
  · rename_i hc
    exact clearBusy_spec h hc
  · exact ⟨s, rfl, h⟩

lemma init_good (flags : κ → CtxFlags) : (Busy.init κ).Good flags where
  exclusive := by
    constructor <;> simp [Busy.init]
  waits t := trivial

theorem calls_exclusive (flags : κ → CtxFlags) (moves : List (ℕ × Act κ)) :
    ∃ s, Runs.run (Busy.step flags) (Busy.init κ) moves = .ok s ∧ s.Exclusive flags := by
  obtain ⟨s, hs, hg⟩ := (Runs.Along.of_forall fun _ _ => trivial).completes (init_good flags)
    fun s move h _ => step_good h move
  exact ⟨s, hs, hg.exclusive⟩

end Busy

end Optee.Ta
