import Mathlib.Algebra.Group.Nat.Defs
import Optee.Lib.Runs

/-! Registered shared memory. -/

namespace Optee.Mm.RegShm

/-- A `struct mobj_reg_shm`; `refs` are the references handed out and not put, but for that of the cookie. -/
structure Obj where
  cookie : ℕ
  refc : ℕ
  guarded : Bool
  releasing : Bool
  releaseFrees : Bool
  freed : Bool
  refs : ℕ
  deriving DecidableEq

inductive Pc
  | idle
  /-- The lookup has found the object, `mobj_get` is to come. -/
  | found (r : ℕ)
  /-- The count has reached zero, `mobj_reg_shm_free` is to come. -/
  | freeing (r : ℕ) (next : Bool)
  /-- `mobj_reg_shm_free` has seen a guarded object. -/
  | freeGuarded (r : ℕ) (next : Bool)
  /-- `mobj_reg_shm_free` has seen an object that is released by cookie. -/
  | freeOther (r : ℕ) (next : Bool)
  /-- The object has been marked, `mobj_put` is to come. -/
  | releasePut (r : ℕ)
  | releaseWait (r : ℕ)
  deriving DecidableEq

structure World where
  objs : List Obj
  regShmList : List ℕ
  threads : List Pc
  /-- The objects for which `mobj_reg_shm_release_by_cookie` has returned with success. -/
  released : List ℕ
  deriving DecidableEq

inductive Fault
  | panic
  | assertion
  | useAfterFree
  deriving DecidableEq

def access (objs : List Obj) (r : ℕ) : Except Fault Obj :=
  match objs[r]? with
  | some o => if o.freed then .error .useAfterFree else .ok o
  | none => .error .useAfterFree

def regShmFind (objs : List Obj) (cookie : ℕ) : List ℕ → Except Fault (Option (ℕ × Obj))
  | [] => .ok none
  | r :: rs => do
    let o ← access objs r
    if o.cookie = cookie then .ok (some (r, o)) else regShmFind objs cookie rs

def after (r : ℕ) (next : Bool) : Pc := if next then .releaseWait r else .idle

namespace World

variable (w : World) (t : ℕ)

def setPc (pc : Pc) : World := { w with threads := w.threads.set t pc }

def set (r : ℕ) (o : Obj) (pc : Pc) : World := { w with objs := w.objs.set r o, threads := w.threads.set t pc }

def alloc (cookie : ℕ) : World :=
  { w with
    objs := w.objs ++ [⟨cookie, 1, true, false, false, false, 1⟩]
    regShmList := w.objs.length :: w.regShmList }

def unguard (r : ℕ) : Except Fault World :=
  match w.objs[r]? with
  | none => .ok w
  | some o =>
    if o.refs = 0 ∨ o.guarded = false then .ok w
    else do
      let o ← access w.objs r
      .ok (w.set t r { o with guarded := false, refs := o.refs - 1 } .idle)

def getByCookie (cookie : ℕ) : Except Fault World := do
  match ← regShmFind w.objs cookie w.regShmList with
  | some (r, _) => .ok (w.setPc t (.found r))
  | none => .ok w

def mobjGet (r : ℕ) : Except Fault World := do
  let o ← access w.objs r
  if o.refc = 0 then .error .panic
  else .ok (w.set t r { o with refc := (o.refc + 1) % 2 ^ 32, refs := o.refs + 1 } .idle)

def mobjPut (r : ℕ) : Except Fault World :=
  match w.objs[r]? with
  | none => .ok w
  | some o =>
    if o.refs = 0 then .ok w
    else do
      let o ← access w.objs r
      if o.refc = 0 then .error .assertion
      else
        let pc := if o.refc = 1 then .freeing r false else .idle
        .ok (w.set t r { o with refc := o.refc - 1, refs := o.refs - 1 } pc)

def regShmFree (r : ℕ) (next : Bool) : Except Fault World := do
  let o ← access w.objs r
  .ok (w.setPc t (if o.guarded ∧ o.releasing = false then .freeGuarded r next else .freeOther r next))

def freeHelper (r : ℕ) (o : Obj) (pc : Pc) : World :=
  { w.set t r { o with freed := true } pc with regShmList := w.regShmList.erase r }

def freeGuarded (r : ℕ) (next : Bool) : Except Fault World := do
  let o ← access w.objs r
  .ok (w.freeHelper t r o (after r next))

def freeOther (r : ℕ) (next : Bool) : Except Fault World := do
  let o ← access w.objs r
  .ok (w.set t r { o with releaseFrees := true } (after r next))

def releaseByCookie (cookie : ℕ) : Except Fault World := do
  match ← regShmFind w.objs cookie w.regShmList with
  | none => .ok w
  | some (r, o) =>
    if o.guarded ∨ o.releasing then .ok w else .ok (w.set t r { o with releasing := true } (.releasePut r))

def releasePut (r : ℕ) : Except Fault World := do
  let o ← access w.objs r
  if o.refc = 0 then .error .assertion
  else
    let pc := if o.refc = 1 then .freeing r true else .releaseWait r
    .ok (w.set t r { o with refc := o.refc - 1 } pc)

def releaseWait (r : ℕ) : Except Fault World := do
  let o ← access w.objs r
  if o.releaseFrees then .ok { w.freeHelper t r o .idle with released := r :: w.released } else .ok w

end World

inductive Event
  | alloc (cookie : ℕ)
  | unguard (r : ℕ)
  | getByCookie (cookie : ℕ)
  | put (r : ℕ)
  | releaseByCookie (cookie : ℕ)
  /-- Go on with the call the thread is in. -/
  | go

def step (w : World) (e : ℕ × Event) : Except Fault World :=
  match w.threads[e.1]?, e.2 with
  | some .idle, .alloc cookie => .ok (w.alloc cookie)
  | some .idle, .unguard r => w.unguard e.1 r
  | some .idle, .getByCookie cookie => w.getByCookie e.1 cookie
  | some .idle, .put r => w.mobjPut e.1 r
  | some .idle, .releaseByCookie cookie => w.releaseByCookie e.1 cookie
  | some (.found r), .go => w.mobjGet e.1 r
  | some (.freeing r next), .go => w.regShmFree e.1 r next
  | some (.freeGuarded r next), .go => w.freeGuarded e.1 r next
  | some (.freeOther r next), .go => w.freeOther e.1 r next
  | some (.releasePut r), .go => w.releasePut e.1 r
  | some (.releaseWait r), .go => w.releaseWait e.1 r
  | _, _ => .ok w

def init (n : ℕ) : World := ⟨[], [], List.replicate n .idle, []⟩

end Optee.Mm.RegShm
