import Mathlib.Data.Int.Notation
import Mathlib.Logic.Function.Basic
import Mathlib.Tactic.Common

/-! Databases of handles, which grow when they are full. -/

namespace Optee.Ldelf.Handles

variable {α : Type}

/-- A call on a database, with the outcome of `realloc`. -/
inductive Op (α : Type)
  | get (ptr : Option α) (realloc : Bool)
  | put (handle : ℤ)
  | lookup (handle : ℤ)

inductive Out (α : Type)
  | handle (h : ℤ)
  | ptr (p : Option α)

def handleLookup (ptrs : List (Option α)) (handle : ℤ) : Option α :=
  if handle < 0 then none else ptrs[handle.toNat]?.join

def grow (ptrs : List (Option α)) : List (Option α) :=
  ptrs ++ List.replicate (if ptrs.length = 0 then 4 else ptrs.length) none

def handleGet (ptrs : List (Option α)) (realloc : Bool) : Option α → ℤ × List (Option α)
  | none => (-1, ptrs)
  | some ptr =>
    let n := ptrs.findIdx Option.isNone
    if n < ptrs.length then (n, ptrs.set n (some ptr))
    else if realloc then (n, (grow ptrs).set n (some ptr))
    else (-1, ptrs)

def handlePut (ptrs : List (Option α)) (handle : ℤ) : Option α × List (Option α) :=
  (handleLookup ptrs handle, if handle < 0 then ptrs else ptrs.set handle.toNat none)

def call (ptrs : List (Option α)) : Op α → Out α × List (Option α)
  | .get ptr realloc => (handleGet ptrs realloc ptr).map .handle id
  | .put handle => (handlePut ptrs handle).map .ptr id
  | .lookup handle => (.ptr (handleLookup ptrs handle), ptrs)

/-- The calls on a map from handles to pointers: a handle that is given out was free. -/
inductive Runs : (ℤ → Option α) → List (Op α × Out α) → Prop
  | done (m) : Runs m []
  | given {m h a b rest} (hpos : 0 ≤ h) (hfree : m h = none) (hrest : Runs (Function.update m h (some a)) rest) :
    Runs m ((.get (some a) b, .handle h) :: rest)
  | refused {m ptr b rest} (hno : ptr = none ∨ b = false) (hrest : Runs m rest) :
    Runs m ((.get ptr b, .handle (-1)) :: rest)
  | put {m h rest} (hrest : Runs (Function.update m h none) rest) : Runs m ((.put h, .ptr (m h)) :: rest)
  | lookup {m h rest} (hrest : Runs m rest) : Runs m ((.lookup h, .ptr (m h)) :: rest)

def calls (ptrs : List (Option α)) : List (Op α) → List (Op α × Out α)
  | [] => []
  | op :: ops => (op, (call ptrs op).1) :: calls (call ptrs op).2 ops

lemma lookup_set {ptrs : List (Option α)} {n : ℕ} (hn : n < ptrs.length) (p : Option α) :
    handleLookup (ptrs.set n p) = Function.update (handleLookup ptrs) n p := by
  funext h
  unfold handleLookup Function.update
  grind

lemma lookup_grow (ptrs : List (Option α)) : handleLookup (grow ptrs) = handleLookup ptrs := by
  funext h
  unfold handleLookup grow
  grind

lemma findIdx_free (ptrs : List (Option α)) : handleLookup ptrs (ptrs.findIdx Option.isNone) = none := by
  rw [handleLookup, if_neg (by omega), Int.toNat_natCast]
  cases hptr : ptrs[ptrs.findIdx Option.isNone]? with
  | none => rfl
  | some ptr =>
    obtain ⟨hlt, rfl⟩ := List.getElem?_eq_some_iff.mp hptr
    exact Option.isNone_iff_eq_none.mp (List.findIdx_getElem (w := hlt))

theorem handles_refine_map (ptrs : List (Option α)) (ops : List (Op α)) :
    Runs (handleLookup ptrs) (calls ptrs ops) := by
  induction ops generalizing ptrs with
  | nil => exact .done _
  | cons op ops ih =>
    cases op with
    | lookup handle => exact .lookup (ih ptrs)
    | put handle =>
      have hput : handleLookup (handlePut ptrs handle).2 = Function.update (handleLookup ptrs) handle none := by
        funext h
        unfold handlePut handleLookup Function.update
        grind
      exact .put (hput ▸ ih (handlePut ptrs handle).2)
    | get ptr realloc =>
      cases ptr with
      | none => exact .refused (.inl rfl) (ih ptrs)
      | some a =>
        rw [calls, call, handleGet]
        split_ifs with hlt hgrow
        · exact .given (by omega) (findIdx_free ptrs) (lookup_set hlt (some a) ▸ ih _)
        · have hlen : ptrs.findIdx Option.isNone < (grow ptrs).length := by
            have : ptrs.findIdx Option.isNone ≤ ptrs.length := List.findIdx_le_length
            unfold grow
            grind
          exact .given (by omega) (findIdx_free ptrs) (lookup_grow ptrs ▸ lookup_set hlen (some a) ▸ ih _)
        · exact .refused (.inr (Bool.eq_false_iff.mpr hgrow)) (ih ptrs)

end Optee.Ldelf.Handles
