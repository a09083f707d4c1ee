import Mathlib.Algebra.GroupWithZero.Nat
import Optee.Ta.CallChains

/-! The contexts of TAs over the sessions that use them. -/

namespace Optee.Ta.Contexts

inductive Fault
  | useAfterDestroy
  | assertion
  | panic
  deriving DecidableEq

structure TaCtx where
  uuid : ℕ
  flags : TaFlags
  refCount : ℕ
  panicked : Bool
  initializing : Bool
  listed : Bool
  destroyed : Bool

/-- `owner` is the context of the TA with the session, none for the normal world; `given`, recorded, its own context. -/
structure TaSession where
  owner : Option ℕ
  ctx : Option ℕ
  listed : Bool
  opening : Bool
  lock : Option ℕ
  given : Option ℕ

inductive Pc
  | idle
  /-- in `tee_ta_init_session_with_context` -/
  | initializing (s uuid : ℕ)
  /-- there was no context to use -/
  | missing (s uuid : ℕ)
  /-- in `tee_ta_init_user_ta_session`, with the context in the list -/
  | loading (s c : ℕ)
  /-- the context could not be loaded and is not in the list any more -/
  | discarding (s c : ℕ)
  /-- before the session is freed in `tee_ta_init_session` -/
  | failed (s : ℕ)
  /-- in `tee_ta_open_session`, before `s->ts_sess.ctx` is read -/
  | opened (s : ℕ)
  | entering (s c : ℕ)
  /-- behind `tee_ta_put_session`, with the session to be closed if the call was not a success -/
  | put (s : ℕ) (success : Bool)
  /-- in `tee_ta_invoke_command`, before `sess->ts_sess.ctx` is read -/
  | invoking (s : ℕ)
  | calling (s c : ℕ)
  /-- the context has been seen panicked -/
  | dying (s : ℕ)
  /-- in `destroy_ta_ctx_from_session`, before the mutex is taken -/
  | tearing (s : ℕ) (c : Option ℕ)
  /-- before `destroy_context` -/
  | torn (s c : ℕ)
  /-- before `s->ts_sess.ctx = NULL` -/
  | clearing (s : ℕ)
  /-- before the session is put at the end of a call -/
  | returning (s : ℕ)
  /-- in `tee_ta_close_session`, before `sess->ts_sess.ctx` is read -/
  | closing (s : ℕ)
  | leaving (s c : ℕ)
  /-- in `destroy_session`; with `entered` the context is marked busy -/
  | unlinking (s : ℕ) (c : Option ℕ) (entered : Bool)
  /-- before `tee_ta_clear_busy` -/
  | left (s c : ℕ)
  /-- before `ctx->ref_count--` -/
  | releasing (s c : ℕ)
  /-- before `destroy_context` -/
  | destroying (c : ℕ)

structure Tas where
  ctxes : List TaCtx
  sessions : List TaSession
  pcs : List Pc

inductive Action
  | openSession (owner : Option ℕ) (uuid : ℕ)
  | invokeCommand (s : ℕ)
  | closeSession (s : ℕ)
  /-- `check_params` or `check_client` fails -/
  | refused
  /-- a new context, for a TA that has to be loaded or not -/
  | create (flags : TaFlags) (load : Bool)
  /-- there is no such TA -/
  | notFound
  | loaded (ok : Bool)
  /-- an access to the context in hand -/
  | touch
  /-- the TA panics -/
  | panics
  /-- the call of the entry point is over -/
  | return (success : Bool)
  /-- the only thing that the thread can do next -/
  | go

namespace Tas

def init (threads : ℕ) : Tas := ⟨[], [], List.replicate threads .idle⟩

variable (st : Tas) (t : ℕ)

def setPc (pc : Pc) : Tas := { st with pcs := st.pcs.set t pc }

def setSession (s : ℕ) (f : TaSession → TaSession) : Tas := { st with sessions := st.sessions.modify s f }

def setCtx (c : ℕ) (f : TaCtx → TaCtx) : Tas := { st with ctxes := st.ctxes.modify c f }

def deref (c : ℕ) : Except Fault TaCtx :=
  match st.ctxes[c]? with
  | none => .error .useAfterDestroy
  | some ctx => if ctx.destroyed then .error .useAfterDestroy else .ok ctx

def contextFind (uuid : ℕ) : Option ℕ := st.ctxes.findIdx? fun ctx => ctx.listed && ctx.uuid = uuid

def initSessionWithContext (s uuid : ℕ) : Except Fault Tas :=
  match st.contextFind uuid with
  | none => .ok (st.setPc t (.missing s uuid))
  | some c => do
    let ctx ← st.deref c
    if ctx.initializing then .ok (st.setPc t (.initializing s uuid))
    else if !ctx.flags.singleInstance then .ok (st.setPc t (.missing s uuid))
    else if !ctx.flags.multiSession && ctx.refCount ≠ 0 then .ok (st.setPc t (.failed s))
    else .ok (((st.setCtx c fun ctx => { ctx with refCount := ctx.refCount + 1 }).setSession s fun session =>
      { session with ctx := some c, given := some c }).setPc t (.opened s))

def addSession (session : TaSession) : Tas := { st with sessions := st.sessions ++ [session] }

def addCtx (ctx : TaCtx) : Tas := { st with ctxes := st.ctxes ++ [ctx] }

def openSession (owner : Option ℕ) (uuid : ℕ) : Except Fault Tas :=
  (st.addSession ⟨owner, none, true, true, none, none⟩).initSessionWithContext t st.sessions.length uuid

def create (s uuid : ℕ) (flags : TaFlags) (load : Bool) : Tas :=
  ((st.addCtx ⟨uuid, flags, 1, false, load, true, false⟩).setSession s fun session =>
    { session with ctx := some st.ctxes.length, given := some st.ctxes.length }).setPc t
      (if load then .loading s st.ctxes.length else .opened s)

def loaded (s c : ℕ) (ok : Bool) : Except Fault Tas := do
  let _ ← st.deref c
  if ok then .ok ((st.setCtx c fun ctx => { ctx with initializing := false }).setPc t (.opened s))
  else .ok (((st.setCtx c fun ctx => { ctx with listed := false }).setSession s fun session =>
    { session with ctx := none }).setPc t (.discarding s c))

def destroyContext (c : ℕ) (pc : Pc) : Except Fault Tas := do
  let _ ← st.deref c
  .ok ((st.setCtx c fun ctx => { ctx with destroyed := true }).setPc t pc)

def readCtx (s : ℕ) (null : Pc) (dead alive : ℕ → Pc) : Except Fault Tas :=
  match st.sessions[s]? with
  | none => .ok st
  | some session =>
    match session.ctx with
    | none => .ok (st.setPc t null)
    | some c => do
      let ctx ← st.deref c
      .ok (st.setPc t (if ctx.panicked then dead c else alive c))

def getSession (s : ℕ) (pc : Pc) : Tas :=
  match st.sessions[s]? with
  | none => st
  | some session =>
    if session.listed && session.lock = none then
      (st.setSession s fun session => { session with lock := some t }).setPc t pc
    else st

def putSession (s : ℕ) : Tas := (st.setSession s fun session => { session with lock := none }).setPc t .idle

def scanned (session : TaSession) : Bool :=
  session.listed && match session.owner with
    | none => true
    | some c => st.ctxes[c]?.any fun ctx => ctx.listed

def hit (s c i : ℕ) (session : TaSession) : Bool := i ≠ s && st.scanned session && session.ctx = some c

def tearDown (s : ℕ) : Option ℕ → Except Fault Tas
  | none => .error .panic
  | some c => do
    let ctx ← st.deref c
    let count := 1 + (st.sessions.mapIdx fun i session => if st.hit s c i session then 1 else 0).sum
    if count = ctx.refCount then
      .ok (({ st with
        sessions := st.sessions.mapIdx fun i session => if st.hit s c i session then { session with ctx := none } else session
      }.setCtx c fun ctx => { ctx with listed := false }).setPc t (.torn s c))
    else .error .assertion

def destroySession (s : ℕ) (c : Option ℕ) (entered : Bool) : Tas :=
  match st.sessions[s]? with
  | none => st
  | some session =>
    if session.opening then st
    else (st.setSession s fun session => { session with listed := false }).setPc t
      (match c with
        | none => .idle
        | some c => if entered then .left s c else .releasing s c)

def release (s c : ℕ) : Except Fault Tas := do
  let ctx ← st.deref c
  if ctx.refCount = 0 then .error .panic
  else
    let last := ctx.refCount = 1 && !(ctx.flags.instanceKeepAlive && ctx.flags.singleInstance)
    .ok (((st.setCtx c fun ctx => { ctx with refCount := ctx.refCount - 1, listed := ctx.listed && !last }).setSession s
      fun session => { session with given := none }).setPc t (if last then .destroying c else .idle))

def returnOpen (s c : ℕ) (success : Bool) : Except Fault Tas := do
  let ctx ← st.deref c
  .ok ((st.setSession s fun session => { session with opening := false }).setPc t (.put s (success && !ctx.panicked)))

def returnInvoke (s c : ℕ) : Except Fault Tas := do
  let ctx ← st.deref c
  .ok (st.setPc t (if ctx.panicked then .dying s else .returning s))

def returnClose (s c : ℕ) : Except Fault Tas := do
  let _ ← st.deref c
  .ok (st.setPc t (.unlinking s (some c) true))

def closeOpened (s : ℕ) : Tas :=
  if st.sessions[s]?.any fun session => session.listed then st.getSession t s (.closing s) else st.setPc t .idle

end Tas

def Pc.hand : Pc → Option ℕ
  | .loading _ c | .discarding _ c | .entering _ c | .calling _ c | .torn _ c | .leaving _ c | .left _ c | .releasing _ c
  | .destroying c => some c
  | .tearing _ c | .unlinking _ c _ => c
  | _ => none

namespace Tas

variable (st : Tas) (t : ℕ)

def touch (pc : Pc) : Except Fault Tas :=
  match pc.hand with
  | none => .ok st
  | some c => do
    let _ ← st.deref c
    .ok st

def panics : Pc → Except Fault Tas
  | .entering _ c | .calling _ c | .leaving _ c => do
    let _ ← st.deref c
    .ok (st.setCtx c fun ctx => { ctx with panicked := true })
  | _ => .ok st

def go : Pc → Except Fault Tas
  | .initializing s uuid => st.initSessionWithContext t s uuid
  | .discarding s c => st.destroyContext t c (.failed s)
  | .failed s => .ok ((st.setSession s fun session => { session with listed := false }).setPc t .idle)
  | .opened s => st.readCtx t s (.put s false) (fun _ => .put s false) (.entering s)
  | .put _ true => .ok (st.setPc t .idle)
  | .put s false => .ok (st.closeOpened t s)
  | .invoking s => st.readCtx t s (.returning s) (fun _ => .dying s) (.calling s)
  | .dying s => .ok (st.setPc t (.tearing s (st.sessions[s]?.bind TaSession.ctx)))
  | .tearing s c => st.tearDown t s c
  | .torn s c => st.destroyContext t c (.clearing s)
  | .clearing s => .ok ((st.setSession s fun session => { session with ctx := none }).setPc t (.returning s))
  | .returning s => .ok (st.putSession t s)
  | .closing s => st.readCtx t s (.unlinking s none false) (fun c => .unlinking s (some c) false) (.leaving s)
  | .unlinking s c entered => .ok (st.destroySession t s c entered)
  | .left s c => do
    let _ ← st.deref c
    .ok (st.setPc t (.releasing s c))
  | .releasing s c => st.release t s c
  | .destroying c => st.destroyContext t c .idle
  | _ => .ok st

def act : Pc → Action → Except Fault Tas
  | .idle, .openSession owner uuid => st.openSession t owner uuid
  | .idle, .invokeCommand s => .ok (st.getSession t s (.invoking s))
  | .idle, .closeSession s => .ok (st.getSession t s (.closing s))
  | .missing s uuid, .create flags load => .ok (st.create t s uuid flags load)
  | .missing s _, .notFound => .ok (st.setPc t (.failed s))
  | .loading s c, .loaded ok => st.loaded t s c ok
  | .opened _, .refused => .ok (st.setPc t .idle)
  | .invoking s, .refused => .ok (st.setPc t (.returning s))
  | .closing s, .refused => .ok (st.setPc t (.returning s))
  | .entering s c, .return success => st.returnOpen t s c success
  | .calling s c, .return _ => st.returnInvoke t s c
  | .leaving s c, .return _ => st.returnClose t s c
  | pc, .panics => st.panics pc
  | pc, .touch => st.touch pc
  | pc, .go => st.go t pc
  | _, _ => .ok st

def step (st : Tas) (move : ℕ × Action) : Except Fault Tas :=
  match st.pcs[move.1]? with
  | none => .ok st
  | some pc => st.act move.1 pc move.2

end Tas

end Optee.Ta.Contexts
