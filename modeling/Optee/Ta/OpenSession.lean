import Optee.Ta.CallChains
import Optee.Ta.SessionList

/-! What `tee_ta_open_session` leaves behind when it fails. -/

namespace Optee.Ta.OpenSession

open List SessionList.Sessions

inductive Fault
  | panic
  /-- for a reference to the session that is never given up -/
  | blocked

structure TaCtx where
  uuid : ℕ
  flags : TaFlags
  secureDataPath : Bool
  refCount : ℕ
  panicked : Bool
  busy : Bool

structure Param where
  memref : Bool
  size : ℕ
  sdpMem : Bool

inductive Entry
  | success
  | failed
  | panicked

structure Request where
  uuid : ℕ
  param : List Param
  /-- whether there is memory for the session -/
  calloc : Bool
  /-- the flags of a new context, if it can be created -/
  create : Option (TaFlags × Bool)
  entry : Entry

structure Config where
  secureDataPath : Bool
  hasSingleInstanceLock : Bool

/-- What there is after a call, how often it freed the session and whether it read it after that. -/
structure Left where
  success : Bool
  openSessions : List UInt32
  ctxes : List TaCtx
  frees : ℕ
  stale : Bool

def newSessionIdFrom (ids : List UInt32) (saved : UInt32) : ℕ → UInt32 → UInt32
  | 0, _ => 0
  | fuel + 1, id =>
    if id ∉ ids then id else if nextId id = saved then 0 else newSessionIdFrom ids saved fuel (nextId id)

def newSessionId (ids : List UInt32) : UInt32 :=
  let id := (ids.getLast?.map nextId).getD 1
  newSessionIdFrom ids id (2 ^ 32) id

/-- The context for a session with its new reference, in front of it and behind it those of the list. -/
def target (req : Request) (ctxes : List TaCtx) : Option (List TaCtx × TaCtx × List TaCtx) :=
  let created := req.create.map fun (flags, sdp) => (ctxes, ⟨req.uuid, flags, sdp, 1, false, false⟩, [])
  match ctxes.takeWhile (·.uuid ≠ req.uuid), ctxes.dropWhile (·.uuid ≠ req.uuid) with
  | before, ctx :: after =>
    if !ctx.flags.singleInstance then created
    else if !ctx.flags.multiSession && ctx.refCount ≠ 0 then none
    else some (before, { ctx with refCount := ctx.refCount + 1 }, after)
  | _, [] => created

def checkParams (cfg : Config) (ctx : TaCtx) (param : List Param) : Bool :=
  !cfg.secureDataPath || ctx.secureDataPath || param.all fun p => !p.memref || p.size = 0 || !p.sdpMem

def TaCtx.refuses (cfg : Config) (ctx : TaCtx) : Bool :=
  !ctx.flags.concurrent && (ctx.flags.singleInstance || cfg.hasSingleInstanceLock) && ctx.busy

def TaCtx.keepAlive (ctx : TaCtx) : Bool := ctx.flags.instanceKeepAlive && ctx.flags.singleInstance

def TaCtx.release (ctx : TaCtx) : List TaCtx :=
  if ctx.refCount = 1 && !ctx.keepAlive then [] else [{ ctx with refCount := ctx.refCount - 1 }]

@[simp] def closeSession (cfg : Config) (openSessions : List UInt32) (id : UInt32) (refCount : ℕ) (ctx : TaCtx) :
    Except Fault Left :=
  if id ∉ openSessions then .ok ⟨false, openSessions, [ctx], 0, false⟩
  else if !ctx.panicked && ctx.refuses cfg then .error .panic
  else if refCount + 1 ≠ 1 then .error .blocked
  else if ctx.refCount = 0 then .error .panic
  else .ok ⟨false, openSessions.erase id, ctx.release, 1, false⟩

/-- From `check_params` on; `tee_ta_put_session` gives up the only reference. -/
@[simp] def enter (cfg : Config) (req : Request) (openSessions : List UInt32) (id : UInt32) (ctx : TaCtx) :
    Except Fault Left :=
  if !checkParams cfg ctx req.param then .ok ⟨false, openSessions, [ctx], 0, false⟩
  else if ctx.panicked then closeSession cfg openSessions id 1 ctx
  else if ctx.refuses cfg then closeSession cfg openSessions id 0 ctx
  else
    match req.entry with
    | .success => .ok ⟨true, openSessions, [ctx], 0, false⟩
    | .panicked => closeSession cfg openSessions id 0 { ctx with panicked := true }
    | .failed => do
      let l ← closeSession cfg openSessions id 0 ctx
      -- `s->err_origin` is read
      .ok { l with stale := l.frees ≠ 0 }

def openSession (cfg : Config) (req : Request) (openSessions : List UInt32) (ctxes : List TaCtx) : Except Fault Left :=
  let id := newSessionId openSessions
  if !req.calloc then .ok ⟨false, openSessions, ctxes, 0, false⟩
  else if id = 0 then .ok ⟨false, openSessions, ctxes, 1, false⟩
  else
    match target req ctxes with
    | none => .ok ⟨false, (openSessions ++ [id]).erase id, ctxes, 1, false⟩
    | some (before, ctx, after) => do
      let l ← enter cfg req (openSessions ++ [id]) id ctx
      .ok { l with ctxes := before ++ l.ctxes ++ after }

def TaCtx.count (ctx : TaCtx) : ℕ × ℕ := (ctx.uuid, ctx.refCount)

/-- A call that fails gives back the session, and leaves no context that was not there with as many references. -/
@[simp] def Clean (req : Request) (openSessions : List UInt32) (ctxes : List TaCtx) : Except Fault Left → Prop
  | .error _ => False
  | .ok l => l.success = true ∨ l.openSessions = openSessions ∧
      (l.ctxes.map TaCtx.count).Sublist (ctxes.map TaCtx.count) ∧ l.frees = req.calloc.toNat ∧ l.stale = false

/-- A session that is set up is opened by its TA, or the TA panics and is not a new one that is kept alive. -/
def Harmless (cfg : Config) (req : Request) (openSessions : List UInt32) (ctxes : List TaCtx) : Prop :=
  req.calloc = true → newSessionId openSessions ≠ 0 → ∀ before ctx after, target req ctxes = some (before, ctx, after) →
    checkParams cfg ctx req.param = true ∧ ctx.panicked = false ∧ ctx.refuses cfg = false ∧
      match req.entry with
      | .success => True
      | .panicked => ¬(before = ctxes ∧ ctx.keepAlive = true)
      | .failed => False

variable {cfg : Config} {req : Request} {ids : List UInt32} {ctxes before after : List TaCtx} {ctx : TaCtx} {id : UInt32}

lemma newSessionIdFrom_not_mem {saved : UInt32} {fuel : ℕ} (h : newSessionIdFrom ids saved fuel id ≠ 0) :
    newSessionIdFrom ids saved fuel id ∉ ids := by
  induction fuel generalizing id with
  | zero => exact absurd rfl h
  | succ fuel ih =>
    unfold newSessionIdFrom at h ⊢
    split_ifs at h ⊢ with hid
    · exact absurd rfl h
    · exact ih h
    · exact hid

lemma target_spec (h : target req ctxes = some (before, ctx, after)) :
    (before = ctxes ∧ after = [] ∧ ctx.refCount = 1) ∨
      ∃ old, ctxes = before ++ old :: after ∧ ctx = { old with refCount := old.refCount + 1 } := by
  have hcreate : req.create.map (fun (flags, sdp) => (ctxes, (⟨req.uuid, flags, sdp, 1, false, false⟩ : TaCtx), [])) =
      some (before, ctx, after) → before = ctxes ∧ after = [] ∧ ctx.refCount = 1 := by
    intro h
    obtain ⟨_, -, he⟩ := Option.map_eq_some_iff.mp h
    cases he
    exact ⟨rfl, rfl, rfl⟩
  unfold target at h
  split at h
  next old rest hdrop =>
    split_ifs at h
    · exact .inl (hcreate h)
    · cases h
      refine .inr ⟨old, ?_, rfl⟩
      rw [← hdrop, takeWhile_append_dropWhile]
  next => exact .inl (hcreate h)

lemma count_release (h : target req ctxes = some (before, ctx, after)) :
    ((before ++ { ctx with panicked := true }.release ++ after).map TaCtx.count).Sublist (ctxes.map TaCtx.count) ↔
      ¬(before = ctxes ∧ ctx.keepAlive = true) := by
  have hkept : { ctx with panicked := true }.keepAlive = ctx.keepAlive := rfl
  obtain ⟨rfl, rfl, hone⟩ | ⟨old, rfl, rfl⟩ := target_spec h
  · cases hkeep : ctx.keepAlive <;> rw [TaCtx.release, hkept, hkeep] <;> simp [hone]
  · rw [TaCtx.release]
    split_ifs <;> simp [TaCtx.count]

def toyRequest (entry : Entry) : Request := ⟨0, [⟨true, 1, true⟩], true, some (⟨⟨false, false⟩, false, false⟩, false), entry⟩

end Optee.Ta.OpenSession
