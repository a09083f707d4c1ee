import Mathlib.Algebra.Group.Nat.Defs
import Optee.Lib.BitString
import Optee.Lib.Runs

/-! Shared memory objects of the FF-A with the SPMC at S-EL1. -/

namespace Optee.Mm.Ffa

open Lib

/-- A `struct mobj_ffa`; `index` is the bit of its cookie, `refs` the references handed out and not put. -/
structure Obj where
  index : ℕ
  numPages : ℕ
  size : ℕ
  pageOffset : ℕ
  refc : ℕ
  registeredByCookie : Bool
  unregisteredByCookie : Bool
  freed : Bool
  refs : ℕ
  deriving DecidableEq

def Obj.cookie (o : Obj) : ℕ := 2 ^ 44 + o.index

inductive Pc
  | idle
  /-- The thread has made the object and has still to push it. -/
  | made (r : ℕ)
  /-- `mobj_put` has brought the count to zero, `ffa_inactivate` has still to take the lock. -/
  | inactivate (r : ℕ)
  /-- The object has been taken off the lists, its cookie is to be released. -/
  | delete (r : ℕ)
  | free (r : ℕ)
  deriving DecidableEq

structure World where
  objs : List Obj
  shmBits : List Bool
  shmHead : List ℕ
  shmInactiveHead : List ℕ
  threads : List Pc
  deriving DecidableEq

inductive Fault
  | panic
  | assertion
  | useAfterFree
  deriving DecidableEq

def numShms : ℕ := 64
def smallPageSize : ℕ := 4096

def check (p : Prop) [Decidable p] : Except Fault Unit := if p then .ok () else .error .assertion

def access (objs : List Obj) (r : ℕ) : Except Fault Obj :=
  match objs[r]? with
  | some o => if o.freed then .error .useAfterFree else .ok o
  | none => .error .useAfterFree

def findInList (objs : List Obj) (cookie : ℕ) : List ℕ → Except Fault (Option (ℕ × Obj))
  | [] => .ok none
  | r :: rs => do
    let o ← access objs r
    if o.cookie = cookie then .ok (some (r, o)) else findInList objs cookie rs

namespace World

variable (w : World)

def setPc (t : ℕ) (pc : Pc) : World := { w with threads := w.threads.set t pc }

def setObj (r : ℕ) (o : Obj) : World := { w with objs := w.objs.set r o }

def newObj (numPages i : ℕ) : Obj := ⟨i, numPages, numPages * smallPageSize % 2 ^ 32, 0, 0, false, false, false, 0⟩

def addObj (t numPages i : ℕ) : World :=
  { w with
    objs := w.objs ++ [newObj numPages i]
    shmBits := BitString.set w.shmBits i
    threads := w.threads.set t (.made w.objs.length) }

def sel1SpmcNew (t numPages : ℕ) (memory : Bool) : World :=
  if numPages = 0 ∨ memory = false then w
  else if BitString.firstClear w.shmBits < numShms then w.addObj t numPages (BitString.firstClear w.shmBits)
  else w

def pushToInactive (t r : ℕ) : Except Fault World := do
  let o ← access w.objs r
  check (r ∉ w.shmInactiveHead)
  check ((← findInList w.objs o.cookie w.shmInactiveHead) = none)
  check ((← findInList w.objs o.cookie w.shmHead) = none)
  .ok { w with shmInactiveHead := r :: w.shmInactiveHead, threads := w.threads.set t .idle }

def getActive (r : ℕ) (o : Obj) (internalOffs : ℕ) : World :=
  if o.pageOffset = internalOffs then
    w.setObj r { o with refc := if o.refc = 0 then 1 else (o.refc + 1) % 2 ^ 32, refs := o.refs + 1 }
  else w

def activate (r : ℕ) (o : Obj) (internalOffs : ℕ) : Except Fault World := do
  check (o.refc = 0)
  let size := (o.size + o.pageOffset) % 2 ^ 64
  check (size % smallPageSize = 0)
  let o :=
    { o with
      unregisteredByCookie := false
      registeredByCookie := true
      refc := 1
      size := (size + 2 ^ 64 - internalOffs) % 2 ^ 64
      pageOffset := internalOffs
      refs := o.refs + 1 }
  .ok { w.setObj r o with shmInactiveHead := w.shmInactiveHead.erase r, shmHead := r :: w.shmHead }

def getByCookie (cookie internalOffs : ℕ) : Except Fault World :=
  if internalOffs ≥ smallPageSize then .ok w
  else do
    match ← findInList w.objs cookie w.shmHead with
    | some (r, o) => .ok (w.getActive r o internalOffs)
    | none =>
      match ← findInList w.objs cookie w.shmInactiveHead with
      | some (r, o) => w.activate r o internalOffs
      | none => .ok w

def mobjPut (t r : ℕ) : Except Fault World :=
  match w.objs[r]? with
  | none => .ok w
  | some o =>
    if o.refs = 0 then .ok w
    else do
      let o ← access w.objs r
      check (o.refc ≠ 0)
      let w := w.setObj r { o with refc := o.refc - 1, refs := o.refs - 1 }
      .ok (if o.refc = 1 then w.setPc t (.inactivate r) else w)

def ffaInactivate (t r : ℕ) : Except Fault World := do
  let o ← access w.objs r
  if o.refc ≠ 0 then .ok (w.setPc t .idle)
  else if r ∈ w.shmHead then
    .ok
      { w with
        shmHead := w.shmHead.erase r
        shmInactiveHead := r :: w.shmInactiveHead
        threads := w.threads.set t .idle }
  else .error .panic

def unregisterByCookie (cookie : ℕ) : Except Fault World := do
  match ← findInList w.objs cookie w.shmHead with
  | some _ => .ok w
  | none =>
    match ← findInList w.objs cookie w.shmInactiveHead with
    | some (r, o) =>
      if o.unregisteredByCookie then .ok w else .ok (w.setObj r { o with unregisteredByCookie := true })
    | none => .ok w

def sel1SpmcReclaim (t cookie : ℕ) : Except Fault World := do
  match ← findInList w.objs cookie w.shmHead with
  | some _ => .ok w
  | none =>
    match ← findInList w.objs cookie w.shmInactiveHead with
    | some (r, o) =>
      if o.registeredByCookie ∧ o.unregisteredByCookie = false then .ok w
      else .ok { w with shmInactiveHead := w.shmInactiveHead.erase r, threads := w.threads.set t (.delete r) }
    | none => .ok w

def sel1SpmcDelete (t r : ℕ) : Except Fault World := do
  let o ← access w.objs r
  check (o.index < numShms)
  check (BitString.test w.shmBits o.index = true)
  .ok { w with shmBits := BitString.clear w.shmBits o.index, threads := w.threads.set t (.free r) }

def freeObj (t r : ℕ) : Except Fault World := do
  let o ← access w.objs r
  .ok ((w.setObj r { o with freed := true }).setPc t .idle)

end World

inductive Event
  | new (numPages : ℕ) (memory : Bool)
  | getByCookie (cookie internalOffs : ℕ)
  | put (r : ℕ)
  | unregisterByCookie (cookie : ℕ)
  | reclaim (cookie : ℕ)
  /-- Go on with the call the thread is in; a new object is pushed. -/
  | go

def step (w : World) (e : ℕ × Event) : Except Fault World :=
  match w.threads[e.1]?, e.2 with
  | some .idle, .new numPages memory => .ok (w.sel1SpmcNew e.1 numPages memory)
  | some .idle, .getByCookie cookie internalOffs => w.getByCookie cookie internalOffs
  | some .idle, .put r => w.mobjPut e.1 r
  | some .idle, .unregisterByCookie cookie => w.unregisterByCookie cookie
  | some .idle, .reclaim cookie => w.sel1SpmcReclaim e.1 cookie
  | some (.made r), .go => w.pushToInactive e.1 r
  | some (.inactivate r), .go => w.ffaInactivate e.1 r
  | some (.delete r), .go => w.sel1SpmcDelete e.1 r
  | some (.free r), .go => w.freeObj e.1 r
  | _, _ => .ok w

def init (n : ℕ) : World := ⟨[], List.replicate numShms false, [], [], List.replicate n .idle⟩

end Optee.Mm.Ffa
