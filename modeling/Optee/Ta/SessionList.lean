import Mathlib.Algebra.Group.Nat.Defs
import Mathlib.Tactic.Common

/-! The list of the sessions that the normal world has open, and the requests on it. -/

namespace Optee.Ta.SessionList

open Function

inductive Fault
  | useAfterFree
  | assertion
  deriving DecidableEq

structure TaSession where
  id : UInt32
  refCount : ℕ
  lockThread : Option ℕ
  unlink : Bool
  freed : Bool

inductive Entry
  | success
  | failed
  | dead
  deriving DecidableEq

inductive Purpose
  | invoke
  | cancel
  | close (csess : ℕ) (origin : Bool)
  deriving DecidableEq

inductive Pc
  | idle
  /-- in `tee_ta_init_session`, behind the insertion in the list -/
  | initializing (s : ℕ)
  /-- in `tee_ta_open_session`, up to `tee_ta_put_session` -/
  | opened (s : ℕ)
  | entered (s : ℕ) (res : Entry)
  /-- in `entry_open_session`, before `s->id` is read -/
  | returning (s : ℕ)
  /-- in `entry_close_session`, behind `tee_ta_find_session` -/
  | found (s : ℕ)
  /-- before the call to `tee_ta_get_session` in `tee_ta_close_session` -/
  | getting (id : UInt32) (csess : ℕ) (origin : Bool)
  /-- for `s->lock_cv` in `tee_ta_get_session` -/
  | waiting (s : ℕ) (p : Purpose)
  /-- with the session, and the lock unless it is for a cancellation -/
  | got (s : ℕ) (p : Purpose)
  /-- for `s->refc_cv` in `tee_ta_unlink_session` -/
  | unlinking (s : ℕ) (p : Purpose)
  /-- before `free(s)` in `destroy_session` -/
  | removed (s : ℕ) (p : Purpose)
  /-- before `s->err_origin` is read, with the session closed -/
  | origin (s : ℕ)
  deriving DecidableEq

structure Sessions where
  heap : ℕ → TaSession
  allocated : ℕ
  openSessions : List ℕ
  pcs : List Pc

namespace Sessions

variable (st : Sessions)

def init (threads : ℕ) : Sessions :=
  ⟨fun _ => ⟨0, 0, none, false, false⟩, 0, [], List.replicate threads .idle⟩

def setPc (t : ℕ) (pc : Pc) : Sessions := { st with pcs := st.pcs.set t pc }

def set (n : ℕ) (s : TaSession) : Sessions := { st with heap := update st.heap n s }

def deref (n : ℕ) : Except Fault TaSession := if (st.heap n).freed then .error .useAfterFree else .ok (st.heap n)

def check (p : Prop) [Decidable p] : Except Fault Unit := if p then .ok () else .error .assertion

def findSession (id : UInt32) : List ℕ → Except Fault (Option ℕ)
  | [] => .ok none
  | n :: rest => do
    let s ← st.deref n
    if s.id = id then .ok (some n) else findSession id rest

def nextId (id : UInt32) : UInt32 := if id + 1 = 0 then 1 else id + 1

def newSessionIdFrom (saved : UInt32) : ℕ → UInt32 → Except Fault UInt32
  | 0, _ => .ok 0
  | fuel + 1, id => do
    let found ← st.findSession id st.openSessions
    if found = none then .ok id
    else if nextId id = saved then .ok 0
    else newSessionIdFrom saved fuel (nextId id)

def firstId : Except Fault UInt32 :=
  match st.openSessions.getLast? with
  | none => .ok 1
  | some n => do
    let last ← st.deref n
    .ok (nextId last.id)

def newSessionId : Except Fault UInt32 := do
  let id ← st.firstId
  st.newSessionIdFrom id (2 ^ 32) id

def initSession (t : ℕ) : Except Fault Sessions := do
  let id ← st.newSessionId
  if id = 0 then .ok st
  else
    let st := st.set st.allocated ⟨id, 1, none, false, false⟩
    .ok ({ st with allocated := st.allocated + 1, openSessions := st.openSessions ++ [st.allocated] }.setPc t
      (.initializing st.allocated))

def free (n : ℕ) : Except Fault Sessions := do
  let s ← st.deref n
  .ok (st.set n { s with freed := true })

def remove (n : ℕ) : Sessions := { st with openSessions := st.openSessions.erase n }

def initFailed (t n : ℕ) : Except Fault Sessions := do
  let st ← (st.remove n).free n
  .ok (st.setPc t .idle)

def decSessionRefCount (n : ℕ) : Except Fault Sessions := do
  let s ← st.deref n
  check (s.refCount > 0)
  .ok (st.set n { s with refCount := s.refCount - 1 })

def putSession (t n : ℕ) : Except Fault Sessions := do
  let s ← st.deref n
  (st.set n { s with lockThread := if s.lockThread = some t then none else s.lockThread }).decSessionRefCount n

def finish : Purpose → Pc
  | .close csess true => .origin csess
  | _ => .idle

def lock (t n : ℕ) (p : Purpose) : Except Fault Sessions := do
  let s ← st.deref n
  if s.unlink then
    let st ← st.decSessionRefCount n
    .ok (st.setPc t (finish p))
  else if s.lockThread ≠ none then .ok (st.setPc t (.waiting n p))
  else .ok ((st.set n { s with lockThread := some t }).setPc t (.got n p))

def getSession (t : ℕ) (id : UInt32) (p : Purpose) : Except Fault Sessions := do
  let found ← st.findSession id st.openSessions
  match found with
  | none => .ok (st.setPc t (finish p))
  | some n =>
    let s ← st.deref n
    if s.unlink then .ok (st.setPc t (finish p))
    else
      let st := st.set n { s with refCount := s.refCount + 1 }
      if p = .cancel then .ok (st.setPc t (.got n p))
      else
        check (s.lockThread ≠ some t)
        st.lock t n p

def unlinkSession (t n : ℕ) (p : Purpose) : Except Fault Sessions := do
  let s ← st.deref n
  check (s.refCount ≥ 1)
  check (s.lockThread = some t)
  check (s.unlink = false)
  .ok ((st.set n { s with unlink := true }).setPc t (.unlinking n p))

def removeSession (t n : ℕ) (p : Purpose) : Except Fault Sessions := do
  let s ← st.deref n
  if s.refCount ≠ 1 then .ok st else .ok ((st.remove n).setPc t (.removed n p))

def closeSession (t n : ℕ) (origin : Bool) : Except Fault Sessions := do
  let s ← st.deref n
  .ok (st.setPc t (.getting s.id n origin))

def putAndFinish (t n : ℕ) (p : Purpose) : Except Fault Sessions := do
  let st ← st.putSession t n
  .ok (st.setPc t (finish p))

end Sessions

inductive Action
  | openSession
  | closeSession (id : UInt32)
  | invokeCommand (id : UInt32)
  | cancel (id : UInt32)
  /-- the lookup of the TA ends -/
  | initialized (ok : Bool)
  /-- `check_params` fails -/
  | badParams
  /-- the TA has panicked before it is entered -/
  | targetDead
  | entered (res : Entry)
  /-- `check_client` fails -/
  | refused
  /-- an access to the session in hand -/
  | touch
  /-- the only thing that the thread can do next -/
  | go

def Pc.hand : Pc → Option ℕ
  | .idle => none
  | .initializing s | .opened s | .entered s _ | .returning s | .found s | .getting _ s _ | .waiting s _ | .got s _
  | .unlinking s _ | .removed s _ | .origin s => some s

namespace Sessions

variable (st : Sessions) (t : ℕ)

def touch (pc : Pc) : Except Fault Sessions :=
  match pc.hand with
  | none => .ok st
  | some n => do
    let _ ← st.deref n
    .ok st

def go : Pc → Except Fault Sessions
  | .entered n .success => do
    let _ ← st.deref n
    .ok (st.setPc t (.returning n))
  | .entered n res => st.closeSession t n (res = .failed)
  | .returning n => do
    let _ ← st.deref n
    .ok (st.setPc t .idle)
  | .found n => st.closeSession t n false
  | .getting id csess origin => st.getSession t id (.close csess origin)
  | .waiting n p => st.lock t n p
  | .got n (.close csess origin) => st.unlinkSession t n (.close csess origin)
  | .got n p => st.putAndFinish t n p
  | .unlinking n p => st.removeSession t n p
  | .removed n p => do
    let st ← st.free n
    .ok (st.setPc t (finish p))
  | .origin n => do
    let _ ← st.deref n
    .ok (st.setPc t .idle)
  | _ => .ok st

def act : Pc → Action → Except Fault Sessions
  | .idle, .openSession => st.initSession t
  | .idle, .closeSession id => do
    let found ← st.findSession id st.openSessions
    .ok (st.setPc t (found.elim .idle .found))
  | .idle, .invokeCommand id => st.getSession t id .invoke
  | .idle, .cancel id => st.getSession t id .cancel
  | .initializing n, .initialized true => do
    let _ ← st.deref n
    .ok (st.setPc t (.opened n))
  | .initializing n, .initialized false => st.initFailed t n
  | .opened n, .badParams => do
    let _ ← st.deref n
    .ok (st.setPc t .idle)
  | .opened n, .targetDead => st.closeSession t n false
  | .opened n, .entered res => do
    let st ← st.putSession t n
    .ok (st.setPc t (.entered n res))
  | .got n (.close csess origin), .refused => st.putAndFinish t n (.close csess origin)
  | pc, .touch => st.touch pc
  | pc, .go => st.go t pc
  | _, _ => .ok st

def step (st : Sessions) (move : ℕ × Action) : Except Fault Sessions :=
  match st.pcs[move.1]? with
  | none => .ok st
  | some pc => st.act move.1 pc move.2

end Sessions

end Optee.Ta.SessionList
