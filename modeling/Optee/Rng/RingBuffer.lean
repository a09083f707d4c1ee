import Mathlib.Data.Fin.Basic
import Mathlib.Logic.Function.Basic
import Mathlib.Tactic.Common

/-! The ring buffer of entropy events. -/

namespace Optee.Rng

structure Event where
  snum : UInt8
  pnum : UInt8
  data : List UInt8

/-- `stop` is `end`. -/
structure RingBuffer where
  elem : Fin 8 → Event
  begin : Fin 8
  stop : Fin 8

def RingBuffer.zero : RingBuffer := ⟨fun _ => ⟨0, 0, []⟩, 0, 0⟩

open RingBuffer

/-- At most `RING_BUF_DATA_SIZE` bytes are kept. -/
def cut (e : Event) : Event := { e with data := e.data.take 4 }

def pushRingBuffer (r : RingBuffer) (e : Event) : RingBuffer × Bool :=
  let nextBegin := r.begin + 1
  if nextBegin = r.stop then (r, false)
  else ({ r with elem := Function.update r.elem nextBegin (cut e), begin := nextBegin }, true)

def popRingBuffer (r : RingBuffer) : Option (Event × RingBuffer) :=
  if r.begin = r.stop then none else some (r.elem r.stop, { r with stop := r.stop + 1 })

variable {r : RingBuffer} {hashed : Event → Bool} {stored : List Event}

lemma popRingBuffer_lt {e : Event} {r' : RingBuffer} (h : popRingBuffer r = some (e, r')) :
    (r'.begin - r'.stop).val < (r.begin - r.stop).val := by
  have hsub : ∀ b s : Fin 8, b ≠ s → (b - (s + 1)).val < (b - s).val := by decide
  rw [popRingBuffer] at h
  split at h
  · cases h
  next hne =>
    cases h
    exact hsub _ _ hne

/-- `hashed` tells which updates of a pool's hash succeed. -/
def addEvent (hashed : Event → Bool) (e : Event) : Bool := e.pnum < 32 && hashed e

def drainRingBuffer (hashed : Event → Bool) (r : RingBuffer) : List Event × RingBuffer :=
  match hpop : popRingBuffer r with
  | none => ([], r)
  | some (e, r') =>
    -- a length of 0 stands for an empty buffer
    if e.data = [] then ([], r')
    else if addEvent hashed e then
      let (es, r'') := drainRingBuffer hashed r'
      (e :: es, r'')
    else ([e], r')
termination_by (r.begin - r.stop).val
decreasing_by exact popRingBuffer_lt hpop

inductive Op
  | push (e : Event)
  | drain (hashed : Event → Bool)

def Op.isPush : Op → Bool
  | push _ => true
  | drain _ => false

def NoneLost : RingBuffer → List Event → List Op → Prop
  | _, _, [] => True
  | r, stored, .push e :: ops =>
    let (r', kept) := pushRingBuffer r e
    NoneLost r' (if kept then stored ++ [cut e] else stored) ops
  | r, stored, .drain hashed :: ops =>
    let (es, r') := drainRingBuffer hashed r
    es = stored ∧ NoneLost r' [] ops

structure Unread (r : RingBuffer) : Prop where
  begin : r.begin ≠ 0
  stop : r.stop = 0
  first : (r.elem 0).data = []

lemma Unread.push (h : Unread r) (e : Event) : Unread (pushRingBuffer r e).1 := by
  rw [pushRingBuffer, h.stop]
  split
  · exact h
  next hfull =>
    refine ⟨hfull, rfl, ?_⟩
    dsimp only
    rw [Function.update_of_ne (Ne.symm hfull)]
    exact h.first

lemma Unread.drain (h : Unread r) : (drainRingBuffer hashed r).1 = [] := by
  have hpop : popRingBuffer r = some (r.elem 0, { r with stop := 0 + 1 }) := by
    rw [popRingBuffer, if_neg (h.stop ▸ h.begin), h.stop]
  unfold drainRingBuffer
  split
  · rfl
  next e r' he =>
    rw [hpop] at he
    cases he
    rw [if_pos h.first]

lemma unread_zero_push (e : Event) : Unread (pushRingBuffer zero e).1 := ⟨by simp [pushRingBuffer, zero], rfl, rfl⟩

lemma drainRingBuffer_zero : drainRingBuffer hashed zero = ([], zero) := by
  rw [drainRingBuffer]
  rfl

lemma Unread.noneLost_iff (h : Unread r) (hstored : stored ≠ []) (ops : List Op) :
    NoneLost r stored ops ↔ ∀ op ∈ ops, op.isPush = true := by
  induction ops generalizing r stored with
  | nil => exact ⟨nofun, fun _ => trivial⟩
  | cons op ops ih =>
    rw [List.forall_mem_cons]
    cases op with
    | push e =>
      have hmore : (if (pushRingBuffer r e).2 then stored ++ [cut e] else stored) ≠ [] := by
        split
        · simp
        · exact hstored
      exact (ih (h.push e) hmore).trans (and_iff_right rfl).symm
    | drain hashed =>
      refine ⟨fun hlost => absurd ?_ hstored, fun hall => nomatch hall.1⟩
      exact hlost.1.symm.trans h.drain

theorem none_lost_iff (ops : List Op) :
    NoneLost zero [] ops ↔ ops.Pairwise fun a b => a.isPush = true → b.isPush = true := by
  induction ops with
  | nil => exact ⟨fun _ => .nil, fun _ => trivial⟩
  | cons op ops ih =>
    rw [List.pairwise_cons]
    cases op with
    | push e =>
      refine ((unread_zero_push e).noneLost_iff (List.cons_ne_nil _ _) ops).trans
        ⟨fun hall => ⟨fun b hb _ => hall b hb, ?_⟩, fun hall b hb => hall.1 b hb rfl⟩
      exact List.pairwise_of_forall_mem_list fun a _ b hb _ => hall b hb
    | drain hashed =>
      rw [NoneLost, drainRingBuffer_zero]
      exact ⟨fun hall => ⟨fun _ _ hpush => (nomatch hpush), ih.mp hall.2⟩, fun hall => ⟨rfl, ih.mpr hall.2⟩⟩

/-- The slot before that of the event is read. -/
theorem first_event_lost : ¬NoneLost zero [] [.push ⟨1, 0, [7]⟩, .drain fun _ => true] := by
  intro hlost
  cases hlost.1.symm.trans (unread_zero_push ⟨1, 0, [7]⟩).drain

end Optee.Rng
