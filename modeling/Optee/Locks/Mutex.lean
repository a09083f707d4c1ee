import Optee.TeeResult

/-! The mutex of the core with its readers, its wait queue and the condition variables linked to it. -/

namespace Optee.Locks

inductive Mode
  | read
  | write
  deriving DecidableEq

structure Wqe where
  handle : ℕ
  done : Bool
  waitRead : Bool
  cv : Option ℕ
  deriving DecidableEq

@[ext] structure Hold where
  reads : ℕ
  writes : ℕ
  deriving DecidableEq

inductive Pc
  | idle
  /-- The condition variable of `condvar_wait` has been linked to the mutex. -/
  | linked (cv : ℕ)
  /-- The mutex of the condition variable to signal has been read. -/
  | promoting (cv : ℕ) (onlyOne : Bool)
  /-- In `wq_wake_next`, from the second round on with readers as the type to wake; then the thread returns or waits. -/
  | waking (wakeRead : Bool) (next : Option Mode)
  /-- In `wq_wait_final`, to lock the mutex afterwards. -/
  | sleeping (mode : Mode)
  /-- Woken up and off the queue, about to try again. -/
  | retry (mode : Mode)
  deriving DecidableEq

structure Thread where
  pc : Pc
  hold : Hold
  /-- What the thread held when it called the `condvar_wait` it is in. -/
  before : Option Hold

structure Mutex where
  state : Int16
  wq : List Wqe
  /-- The condition variables whose mutex is this one. -/
  condvars : List ℕ
  threads : List Thread
  /-- What was held before and after each `condvar_wait` that has returned. -/
  waits : List (Hold × Hold)

inductive Panic
  | state

def Hold.none : Hold := ⟨0, 0⟩

def Hold.count (h : Hold) : Mode → ℕ
  | .read => h.reads
  | .write => h.writes

def Hold.add (h : Hold) : Mode → Hold
  | .read => { h with reads := h.reads + 1 }
  | .write => { h with writes := h.writes + 1 }

def Hold.sub (h : Hold) : Mode → Hold
  | .read => { h with reads := h.reads - 1 }
  | .write => { h with writes := h.writes - 1 }

def Hold.mode (h : Hold) : Mode := if h.writes = 0 then .read else .write

def wakeRound (wakeRead : Bool) : List Wqe → Option (List Wqe × Bool)
  | [] => none
  | w :: ws =>
    if w.cv = none ∧ w.done = false ∧ (wakeRead → w.waitRead) then some ({ w with done := true } :: ws, w.waitRead)
    else (wakeRound wakeRead ws).map fun (ws, r) => (w :: ws, r)

def wqPromoteCondvar (cv : ℕ) (onlyOne : Bool) : List Wqe → List Wqe
  | [] => []
  | w :: ws =>
    if w.cv = some cv then { w with cv := none } :: (if onlyOne then ws else wqPromoteCondvar cv onlyOne ws)
    else w :: wqPromoteCondvar cv onlyOne ws

def canLock (state : Int16) : Mode → Bool
  | .read => state ≠ -1
  | .write => state = 0

def locked (state : Int16) : Mode → Int16
  | .read => state + 1
  | .write => -1

namespace Mutex

variable (m : Mutex)

def setThread (i : ℕ) (t : Thread) : Mutex := { m with threads := m.threads.set i t }

def take (i : ℕ) (t : Thread) (mode : Mode) : Mutex :=
  { m with
    state := locked m.state mode
    threads := m.threads.set i ⟨.idle, t.hold.add mode, none⟩
    waits := (t.before.map fun h => (h, t.hold.add mode)).toList ++ m.waits }

def lock (i : ℕ) (t : Thread) (mode : Mode) : Mutex :=
  if canLock m.state mode then m.take i t mode
  else
    { m with
      wq := m.wq ++ [⟨i, false, mode = .read, none⟩]
      threads := m.threads.set i { t with pc := .sleeping mode } }

def trylock (i : ℕ) (t : Thread) (mode : Mode) : Mutex := if canLock m.state mode then m.take i t mode else m

def unlock (i : ℕ) (t : Thread) : Except Panic Mutex :=
  if m.state = 0 then .error .state
  else .ok { m with state := 0, threads := m.threads.set i { t with pc := .waking false none, hold := t.hold.sub .write } }

def readUnlock (i : ℕ) (t : Thread) : Except Panic Mutex :=
  if m.state ≤ 0 then .error .state
  else
    let pc := if m.state - 1 = 0 then .waking false none else .idle
    .ok { m with state := m.state - 1, threads := m.threads.set i { t with pc, hold := t.hold.sub .read } }

def condvarWait (i : ℕ) (t : Thread) (cv : ℕ) : Except Panic Mutex :=
  if m.state = 0 then .error .state
  else
    let mode := if m.state > 0 then .read else .write
    let state := if m.state > 1 then m.state - 1 else 0
    let pc := if state = 0 then .waking false (some mode) else .sleeping mode
    .ok
      { m with
        state
        wq := m.wq ++ [⟨i, false, m.state > 0, some cv⟩]
        threads := m.threads.set i ⟨pc, t.hold.sub t.hold.mode, some t.hold⟩ }

def afterWake : Option Mode → Pc
  | none => .idle
  | some mode => .sleeping mode

def wake (i : ℕ) (t : Thread) (wakeRead : Bool) (next : Option Mode) : Mutex :=
  match wakeRound wakeRead m.wq with
  | none => m.setThread i { t with pc := afterWake next }
  | some (wq, true) => { m with wq, threads := m.threads.set i { t with pc := .waking true next } }
  | some (wq, false) => { m with wq, threads := m.threads.set i { t with pc := afterWake next } }

def waitFinal (i : ℕ) (t : Thread) (mode : Mode) : Mutex :=
  match m.wq.find? (·.handle = i) with
  | some w =>
    if w.done then { m with wq := m.wq.erase w, threads := m.threads.set i { t with pc := .retry mode } } else m
  | none => m

end Mutex

inductive Action
  | lock (mode : Mode)
  | trylock (mode : Mode)
  | unlock (mode : Mode)
  | condvarWait (cv : ℕ)
  | condvarSignal (cv : ℕ) (onlyOne : Bool)
  /-- Go on with the call the thread is in. -/
  | go
  deriving DecidableEq

def call (m : Mutex) (i : ℕ) (t : Thread) : Action → Except Panic Mutex
  | .lock mode => .ok (m.lock i t mode)
  | .trylock mode => .ok (m.trylock i t mode)
  | .unlock .write => if t.hold.writes = 0 then .ok m else m.unlock i t
  | .unlock .read => if t.hold.reads = 0 then .ok m else m.readUnlock i t
  | .condvarWait cv =>
    if t.hold = .none then .ok m
    else .ok { m with condvars := cv :: m.condvars, threads := m.threads.set i { t with pc := .linked cv } }
  | .condvarSignal cv onlyOne =>
    if t.hold ≠ .none ∧ cv ∈ m.condvars then .ok (m.setThread i { t with pc := .promoting cv onlyOne }) else .ok m
  | .go => .ok m

def goOn (m : Mutex) (i : ℕ) (t : Thread) : Except Panic Mutex :=
  match t.pc with
  | .idle => .ok m
  | .linked cv => m.condvarWait i t cv
  | .promoting cv onlyOne =>
    .ok { m with wq := wqPromoteCondvar cv onlyOne m.wq, threads := m.threads.set i { t with pc := .idle } }
  | .waking wakeRead next => .ok (m.wake i t wakeRead next)
  | .sleeping mode => .ok (m.waitFinal i t mode)
  | .retry mode => .ok (m.lock i t mode)

def step (m : Mutex) (e : ℕ × Action) : Except Panic Mutex :=
  match m.threads[e.1]? with
  | none => .ok m
  | some t => if t.pc = .idle then call m e.1 t e.2 else if e.2 = .go then goOn m e.1 t else .ok m

def init (n : ℕ) : Mutex := ⟨0, [], [], List.replicate n ⟨.idle, .none, none⟩, []⟩

end Optee.Locks
