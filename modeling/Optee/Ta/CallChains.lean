import Optee.Ta.Busy

/-! Trusted applications that open sessions to each other and call each other through them. -/

set_option linter.unusedSectionVars false

namespace Optee.Ta

open Lib Function TeeResult

structure TaFlags extends CtxFlags where
  multiSession : Bool
  instanceKeepAlive : Bool

structure Ctx where
  uuid : ℕ
  instanceNo : ℕ
  deriving DecidableEq

structure Session where
  client : Option Ctx
  ctx : Ctx

inductive Kind
  | openSession
  | invokeCommand
  | closeSession
  deriving DecidableEq

/-- `calls` are the calls of entry points, also one that waits; `closing` is a session about to be closed after a
failure. -/
structure Local where
  calls : List (Kind × ℕ)
  closing : Option ℕ

structure Tas where
  busy : Busy Ctx
  /-- `tee_ctxes` with the reference counts -/
  ctxes : List (Ctx × ℕ)
  sessions : ℕ → Option Session
  nextCtx : ℕ
  nextSession : ℕ
  locals : ℕ → Local

def Tas.init : Tas := ⟨Busy.init Ctx, [], fun _ => none, 0, 0, fun _ => ⟨[], none⟩⟩

inductive Request
  | openSession (uuid : ℕ)
  | invokeCommand (id : ℕ)
  | closeSession (id : ℕ)
  /-- `tee_ta_close_session` behind a failure of `tee_ta_open_session` -/
  | closeFailed
  | wake
  | return (success : Bool)

namespace Tas

variable (tas : ℕ → TaFlags) (s : Tas) (t : ℕ)

def ctxFlags (ctx : Ctx) : CtxFlags := (tas ctx.uuid).toCtxFlags

def client : Option Ctx := (s.busy.threads t).chain.head?

def setLocal (l : Local) : Tas := { s with locals := update s.locals t l }

def addRef (ctx : Ctx) : List (Ctx × ℕ) :=
  s.ctxes.map fun c => if c.1 = ctx then (c.1, c.2 + 1) else c

def initSession (uuid : ℕ) : Option (Ctx × List (Ctx × ℕ)) :=
  match s.ctxes.find? fun c => c.1.uuid = uuid with
  | none => some (⟨uuid, s.nextCtx⟩, s.ctxes ++ [(⟨uuid, s.nextCtx⟩, 1)])
  | some (ctx, refCount) =>
    if !(tas uuid).singleInstance then some (⟨uuid, s.nextCtx⟩, s.ctxes ++ [(⟨uuid, s.nextCtx⟩, 1)])
    else if !(tas uuid).multiSession && refCount != 0 then none
    else some (ctx, s.addRef ctx)

def putCtx (ctx : Ctx) : List (Ctx × ℕ) :=
  let flags := tas ctx.uuid
  (s.ctxes.map fun c => if c.1 = ctx then (c.1, c.2 - 1) else c).filter fun c =>
    c.1 ≠ ctx || c.2 ≠ 0 || (flags.instanceKeepAlive && flags.singleInstance)

def settle (kind : Kind) (id : ℕ) (calls : List (Kind × ℕ)) (r : Busy Ctx × Outcome) : TeeResult Tas :=
  match r.2, kind with
  | .refused, .openSession => .ok ({ s with busy := r.1 }.setLocal t ⟨calls, some id⟩)
  | .refused, _ => .error .panic
  | _, _ => .ok ({ s with busy := r.1 }.setLocal t ⟨(kind, id) :: calls, none⟩)

def call (kind : Kind) (id : ℕ) (ctx : Ctx) : TeeResult Tas := do
  let r ← s.busy.trySetBusy (ctxFlags tas) t ctx
  s.settle t kind id (s.locals t).calls r

def openSession (uuid : ℕ) : TeeResult Tas :=
  match s.initSession tas uuid with
  | none => .ok s
  | some (ctx, ctxes) =>
    let session : Session := ⟨s.client t, ctx⟩
    { s with
      ctxes := ctxes
      nextCtx := s.nextCtx + 1
      sessions := update s.sessions s.nextSession (some session)
      nextSession := s.nextSession + 1 }.call tas t .openSession s.nextSession ctx

def ownSession (id : ℕ) : Option Session := (s.sessions id).filter fun session => session.client = s.client t

def finish (kind : Kind) (id : ℕ) (calls : List (Kind × ℕ)) (success : Bool) : Tas :=
  match kind with
  | .openSession => s.setLocal t ⟨calls, if success then none else some id⟩
  | .invokeCommand => s.setLocal t ⟨calls, none⟩
  | .closeSession =>
    { s with
      sessions := update s.sessions id none
      ctxes := (s.sessions id).elim s.ctxes fun session => s.putCtx tas session.ctx }.setLocal t ⟨calls, none⟩

def callSession (kind : Kind) (id : ℕ) : Option Session → TeeResult Tas
  | none => .ok s
  | some session => s.call tas t kind id session.ctx

def returnFrom (success : Bool) : TeeResult Tas :=
  match (s.busy.threads t).chain, (s.locals t).calls with
  | ctx :: rest, (kind, id) :: calls => do
    let busy ← s.busy.clearBusy (ctxFlags tas) t ctx rest
    .ok ({ s with busy := busy }.finish tas t kind id calls success)
  | _, _ => .ok s

def wake : TeeResult Tas :=
  match (s.locals t).calls with
  | (kind, id) :: calls => do
    let r ← s.busy.wake (ctxFlags tas) t
    s.settle t kind id calls r
  | [] => .ok s

def step (s : Tas) (move : ℕ × Request) : TeeResult Tas :=
  let t := move.1
  match (s.busy.threads t).wait, (s.locals t).closing, move.2 with
  | .running, none, .openSession uuid => s.openSession tas t uuid
  | .running, none, .invokeCommand id => s.callSession tas t .invokeCommand id (s.ownSession t id)
  | .running, none, .closeSession id => s.callSession tas t .closeSession id (s.ownSession t id)
  | .running, some id, .closeFailed => s.callSession tas t .closeSession id (s.sessions id)
  | .running, none, .return success => s.returnFrom tas t success
  | .running, _, _ => .ok s
  | _, _, .wake => s.wake tas t
  | _, _, _ => .ok s

/-- No call of a busy context of the own chain, and none of a busy one by the owner of the single-instance lock. -/
def MayCall (kind : Kind) (ctx : Ctx) : Prop :=
  s.busy.busy ctx = true →
    ctx ∉ (s.busy.threads t).chain ∧ (kind ≠ .openSession → s.busy.singleInstanceThread ≠ some t)

instance (kind : Kind) (ctx : Ctx) : Decidable (s.MayCall t kind ctx) := inferInstanceAs (Decidable (_ → _ ∧ _))

def Apart (s : Tas) (move : ℕ × Request) : Prop :=
  let t := move.1
  match (s.locals t).closing, move.2 with
  | none, .openSession uuid => ∀ c ∈ s.initSession tas uuid, s.MayCall t .openSession c.1
  | none, .invokeCommand id => ∀ session ∈ s.ownSession t id, s.MayCall t .invokeCommand session.ctx
  | none, .closeSession id => ∀ session ∈ s.ownSession t id, s.MayCall t .closeSession session.ctx
  | some id, .closeFailed => ∀ session ∈ s.sessions id, s.MayCall t .closeSession session.ctx
  | _, _ => True

instance : ∀ move, Decidable (s.Apart tas move)
  | (_, _) => by
    unfold Apart
    dsimp only
    split <;> infer_instance

end Tas

namespace Busy

variable {κ : Type} [DecidableEq κ] {flags : κ → CtxFlags} {s : Busy κ} {t : ℕ} {ctx : κ}

def NoSelfWait (s : Busy κ) : Prop := ∀ t ctx, (s.threads t).wait = .busy ctx → ctx ∉ (s.threads t).chain

lemma NoSelfWait.setThread {thread : Thread κ} (h : s.NoSelfWait)
    (ht : ∀ ctx, thread.wait = .busy ctx → ctx ∉ thread.chain) : (s.setThread t thread).NoSelfWait := by
  intro u c
  by_cases hu : u = t
  · subst hu
    simpa using ht c
  · simpa [hu] using h u c

lemma unlockIfSingleInstance_threads {s' : Busy κ} (h : s.unlockIfSingleInstance flags t ctx = .ok s') :
    s'.threads = s.threads := by
  rw [unlockIfSingleInstance] at h
  split_ifs at h
  · obtain ⟨-, -, h⟩ := bind_eq_ok.mp h
    obtain ⟨-, -, h⟩ := bind_eq_ok.mp h
    cases h
    rfl
  · cases h
    rfl

variable {r : Busy κ × Outcome}

lemma trySetBusyLocked_noSelfWait (h : s.NoSelfWait)
    (hfree : s.singleInstanceThread ≠ some t → s.busy ctx = true → ctx ∉ (s.threads t).chain)
    (hr : s.trySetBusyLocked flags t ctx = .ok r) : r.1.NoSelfWait := by
  rw [trySetBusyLocked] at hr
  split_ifs at hr with ho hb hb
  · obtain ⟨s', hs', hr⟩ := bind_eq_ok.mp hr
    cases hr
    refine NoSelfWait.setThread ?_ (fun _ hc => by cases hc)
    rwa [unlockIfSingleInstance_threads hs']
  · cases hr
    exact NoSelfWait.setThread h (fun _ hc => by cases hc)
  · cases hr
    refine NoSelfWait.setThread h fun c hc => ?_
    cases hc
    exact hfree ho hb
  · cases hr
    exact NoSelfWait.setThread h (fun _ hc => by cases hc)

lemma waitSingleInstance_noSelfWait (h : s.NoSelfWait) (hr : s.waitSingleInstance flags t ctx = .ok r) :
    r.1.NoSelfWait := by
  rw [waitSingleInstance] at hr
  split_ifs at hr
  · cases hr
    exact NoSelfWait.setThread h (fun _ hc => by cases hc)
  · obtain ⟨-, -, hr⟩ := bind_eq_ok.mp hr
    exact trySetBusyLocked_noSelfWait (s := { s with singleInstanceThread := some t }.lockSingleInstance) h
      (fun hne => absurd rfl hne) hr

lemma trySetBusy_noSelfWait (h : s.NoSelfWait) (hfree : s.busy ctx = true → ctx ∉ (s.threads t).chain)
    (hr : s.trySetBusy flags t ctx = .ok r) : r.1.NoSelfWait := by
  rw [trySetBusy] at hr
  split_ifs at hr
  · cases hr
    exact NoSelfWait.setThread h (fun _ hc => by cases hc)
  · exact trySetBusyLocked_noSelfWait h (fun _ => hfree) hr
  · exact trySetBusyLocked_noSelfWait (s := s.lockSingleInstance) h (fun _ => hfree) hr
  · exact waitSingleInstance_noSelfWait h hr

lemma wake_noSelfWait (h : s.NoSelfWait) (hr : s.wake flags t = .ok r) : r.1.NoSelfWait := by
  rw [wake] at hr
  split at hr
  · cases hr
    exact h
  · exact waitSingleInstance_noSelfWait h hr
  split_ifs at hr
  · cases hr
    exact h
  · cases hr
    exact NoSelfWait.setThread h (fun _ hc => by cases hc)

lemma clearBusy_noSelfWait {rest : List κ} {s' : Busy κ} (h : s.NoSelfWait)
    (hr : s.clearBusy flags t ctx rest = .ok s') : s'.NoSelfWait := by
  rw [clearBusy] at hr
  split_ifs at hr
  · cases hr
    exact NoSelfWait.setThread h (fun _ hc => by cases hc)
  obtain ⟨-, -, hr⟩ := bind_eq_ok.mp hr
  obtain ⟨s1, hs1, hr⟩ := bind_eq_ok.mp hr
  cases hr
  refine NoSelfWait.setThread ?_ (fun _ hc => by cases hc)
  rw [NoSelfWait]
  rwa [unlockIfSingleInstance_threads hs1]

end Busy

namespace Tas

variable {tas : ℕ → TaFlags} {s : Tas} {t : ℕ}

structure Sound (tas : ℕ → TaFlags) (s : Tas) : Prop where
  good : s.busy.Good (ctxFlags tas)
  noSelfWait : s.busy.NoSelfWait

variable {kind : Kind} {id : ℕ}

lemma settle_sound {calls : List (Kind × ℕ)} {r : Busy Ctx × Outcome} (hg : r.1.Good (ctxFlags tas))
    (hn : r.1.NoSelfWait) (hr : r.2 = .refused → kind = .openSession) :
    ∃ s', s.settle t kind id calls r = .ok s' ∧ s'.Sound tas := by
  unfold settle
  cases ho : r.2 with
  | entered | waits => exact ⟨{ s with busy := r.1 }.setLocal t _, rfl, ⟨hg, hn⟩⟩
  | refused =>
    cases hr ho
    exact ⟨{ s with busy := r.1 }.setLocal t _, rfl, ⟨hg, hn⟩⟩

lemma call_sound {ctx : Ctx} (h : s.Sound tas) (hmay : s.MayCall t kind ctx) :
    ∃ s', s.call tas t kind id ctx = .ok s' ∧ s'.Sound tas := by
  obtain ⟨r, hr, hg, href⟩ := Busy.trySetBusy_spec t ctx h.good
  have hn := Busy.trySetBusy_noSelfWait h.noSelfWait (fun hb => (hmay hb).1) hr
  have hkind : r.2 = .refused → kind = .openSession := by
    intro hrefused
    obtain ⟨ho, hb⟩ := href.mp hrefused
    by_contra hkind
    exact (hmay hb).2 hkind ho
  obtain ⟨s', hs', hsound⟩ := settle_sound hg hn hkind
  exact ⟨s', by rw [call, hr]; exact hs', hsound⟩

lemma callSession_sound {session : Option Session} (h : s.Sound tas) (hmay : ∀ x ∈ session, s.MayCall t kind x.ctx) :
    ∃ s', s.callSession tas t kind id session = .ok s' ∧ s'.Sound tas := by
  cases session with
  | none => exact ⟨s, rfl, h⟩
  | some x => exact call_sound h (hmay x rfl)

lemma openSession_sound {uuid : ℕ} (h : s.Sound tas)
    (hmay : ∀ c ∈ s.initSession tas uuid, s.MayCall t .openSession c.1) :
    ∃ s', s.openSession tas t uuid = .ok s' ∧ s'.Sound tas := by
  rw [openSession]
  cases hinit : s.initSession tas uuid with
  | none => exact ⟨s, rfl, h⟩
  | some c => exact call_sound ⟨h.good, h.noSelfWait⟩ (hmay c hinit)

lemma finish_sound (h : s.Sound tas) (kind : Kind) (id : ℕ) (calls : List (Kind × ℕ)) (success : Bool) :
    (s.finish tas t kind id calls success).Sound tas := by
  cases kind with
  | openSession | invokeCommand | closeSession => exact ⟨h.good, h.noSelfWait⟩

lemma returnFrom_sound (h : s.Sound tas) (success : Bool) :
    ∃ s', s.returnFrom tas t success = .ok s' ∧ s'.Sound tas := by
  rw [returnFrom]
  split
  · rename_i ctx rest kind id calls hchain hcalls
    obtain ⟨b, hb, hg⟩ := Busy.clearBusy_spec h.good hchain
    exact ⟨_, by rw [hb]; rfl, finish_sound ⟨hg, Busy.clearBusy_noSelfWait h.noSelfWait hb⟩ kind id calls success⟩
  · exact ⟨s, rfl, h⟩

lemma wake_sound (h : s.Sound tas) : ∃ s', s.wake tas t = .ok s' ∧ s'.Sound tas := by
  rw [wake]
  split
  · obtain ⟨r, hr, hg, href⟩ := Busy.wake_spec h.good
    obtain ⟨s', hs', hsound⟩ := settle_sound hg (Busy.wake_noSelfWait h.noSelfWait hr)
      fun hrefused => absurd hrefused href
    exact ⟨s', by rw [hr]; exact hs', hsound⟩
  · exact ⟨s, rfl, h⟩

lemma step_sound {move : ℕ × Request} (h : s.Sound tas) (hapart : s.Apart tas move) :
    ∃ s', Tas.step tas s move = .ok s' ∧ s'.Sound tas := by
  obtain ⟨t, r⟩ := move
  rw [Apart] at hapart
  rw [step]
  cases hwait : (s.busy.threads t).wait with
  | running =>
    cases hclosing : (s.locals t).closing with
    | none =>
      rw [hclosing] at hapart
      cases r with
      | openSession uuid => exact openSession_sound h hapart
      | invokeCommand id | closeSession id => exact callSession_sound h hapart
      | closeFailed | wake => exact ⟨s, rfl, h⟩
      | «return» success => exact returnFrom_sound h success
    | some id =>
      rw [hclosing] at hapart
      cases r with
      | closeFailed => exact callSession_sound h hapart
      | _ => exact ⟨s, rfl, h⟩
  | lock ctx =>
    cases r with
    | wake => exact wake_sound h
    | _ => exact ⟨s, rfl, h⟩
  | busy ctx =>
    cases r with
    | wake => exact wake_sound h
    | _ => exact ⟨s, rfl, h⟩

lemma init_sound (tas : ℕ → TaFlags) : Tas.init.Sound tas := ⟨Busy.init_good _, nofun⟩

end Tas

open Tas

theorem calls_never_panic (tas : ℕ → TaFlags) (moves : List (ℕ × Request))
    (hapart : Runs.Along (Tas.step tas) (Tas.Apart tas) Tas.init moves) :
    ∃ s, Runs.run (Tas.step tas) Tas.init moves = .ok s ∧ s.busy.NoSelfWait := by
  obtain ⟨s, hs, hsound⟩ := hapart.completes (init_sound tas) fun s move h hm => step_sound h hm
  exact ⟨s, hs, hsound.noSelfWait⟩

def toyTas : ℕ → TaFlags := fun _ => ⟨⟨false, true⟩, true, false⟩

def toyNested : List (ℕ × Request) :=
  [(0, .openSession 0), (0, .return true), (0, .invokeCommand 0), (0, .openSession 1), (0, .return true),
    (0, .invokeCommand 1), (0, .return true), (0, .closeSession 1), (0, .return true), (0, .return true)]

theorem calls_never_panic_nested :
    ∃ s, Runs.run (Tas.step toyTas) Tas.init toyNested = .ok s ∧ s.busy.NoSelfWait :=
  calls_never_panic toyTas toyNested (by decide)

def toySelf : List (ℕ × Request) :=
  [(0, .openSession 0), (0, .return true), (0, .invokeCommand 0), (0, .openSession 0), (0, .closeFailed)]

def toyCrosswise : List (ℕ × Request) :=
  [(0, .openSession 0), (0, .return true), (0, .openSession 1), (0, .return true), (0, .invokeCommand 1),
    (0, .openSession 0), (0, .return true), (0, .return true), (0, .invokeCommand 0), (0, .openSession 1),
    (0, .return true), (0, .invokeCommand 3), (0, .invokeCommand 2)]

theorem calls_panic :
    TeeResult.error? (Runs.run (Tas.step toyTas) Tas.init toySelf) = some .panic ∧
      TeeResult.error? (Runs.run (Tas.step toyTas) Tas.init toyCrosswise) = some .panic := by
  decide

end Optee.Ta
