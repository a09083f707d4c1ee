import Mathlib.Data.List.Forall2

/-! Result codes. -/

namespace Optee

open List

inductive TeeError
  | generic
  | accessDenied
  | accessConflict
  | badParameters
  | itemNotFound
  | outOfMemory
  | communication
  | security
  | shortBuffer
  | macInvalid
  | corruptObject
  | storageNoSpace
  | badState
  | badFormat
  | noData
  | panic
  deriving DecidableEq

abbrev TeeResult (α : Type) := Except TeeError α

def assert (p : Prop) [Decidable p] : TeeResult Unit := if p then .ok () else .error .panic

def orError {α : Type} (e : TeeError) : Option α → TeeResult α
  | some a => .ok a
  | none => .error e

namespace TeeResult

variable {α β : Type}

def error? : TeeResult α → Option TeeError
  | .ok _ => none
  | .error e => some e

def get : (x : TeeResult α) → x.error? = none → α
  | .ok a, _ => a

lemma eq_ok_get (x : TeeResult α) (h : x.error? = none) : x = .ok (x.get h) := by
  cases x with
  | ok a => rfl
  | error e => cases h

variable {x : TeeResult α} {f : α → TeeResult β} {xs : List α}

lemma ne_ok_of_error? {e : TeeError} (h : x.error? = some e) (a : α) : x ≠ .ok a := by
  rintro rfl
  cases h

lemma bind_eq_ok {b : β} : x >>= f = .ok b ↔ ∃ a, x = .ok a ∧ f a = .ok b := by
  cases x with
  | error e | ok a => simp [bind, Except.bind]

lemma ok_of_bind (h : (x >>= f).error? = none) : ∃ a, x = .ok a ∧ (f a).error? = none := by
  obtain ⟨a, ha, hb⟩ := bind_eq_ok.mp (eq_ok_get (x >>= f) h)
  exact ⟨a, ha, by rw [hb]; rfl⟩

@[simp] lemma ok_bind (a : α) (f : α → TeeResult β) : (Except.ok a : TeeResult α) >>= f = f a := rfl

@[simp] lemma error_bind (e : TeeError) (f : α → TeeResult β) : (Except.error e : TeeResult α) >>= f = .error e := rfl

@[simp] lemma assert_eq_ok {p : Prop} [Decidable p] {u : Unit} : assert p = .ok u ↔ p := by
  unfold assert
  split_ifs with h <;> simp [h]

lemma of_assert {p : Prop} [Decidable p] (h : (assert p).error? = none) : p := assert_eq_ok.mp (eq_ok_get _ h)

lemma assert_of {p : Prop} [Decidable p] (h : p) : assert p = .ok () := if_pos h

@[simp] lemma orError_eq_ok {e : TeeError} {x : Option α} {a : α} : orError e x = .ok a ↔ x = some a := by
  cases x <;> simp [orError]

@[simp] lemma orError_some (e : TeeError) (a : α) : orError e (some a) = .ok a := rfl

lemma mapM_eq_ok {ys : List β} : xs.mapM f = .ok ys ↔ List.Forall₂ (fun x y => f x = .ok y) xs ys := by
  induction xs generalizing ys with
  | nil =>
    rw [forall₂_nil_left_iff]
    constructor
    · intro h
      cases h
      rfl
    · rintro rfl
      rfl
  | cons x xs ih =>
    rw [mapM_cons, forall₂_cons_left_iff]
    simp only [bind_eq_ok, ih, pure, Except.pure, Except.ok.injEq]
    constructor
    · rintro ⟨y, hy, ys, hys, rfl⟩
      exact ⟨y, ys, hy, hys, rfl⟩
    · rintro ⟨y, ys, hy, hys, rfl⟩
      exact ⟨y, hy, ys, hys, rfl⟩

lemma mapM_mem {ys : List β} {y : β} (h : xs.mapM f = .ok ys) (hy : y ∈ ys) : ∃ x ∈ xs, f x = .ok y := by
  replace h := mapM_eq_ok.mp h
  induction h with
  | nil => cases hy
  | cons hx _ ih =>
    rcases mem_cons.mp hy with rfl | hy
    · exact ⟨_, mem_cons_self, hx⟩
    · obtain ⟨x, hmem, hx⟩ := ih hy
      exact ⟨x, mem_cons_of_mem _ hmem, hx⟩

lemma exists_mapM : (∃ ys, xs.mapM f = .ok ys) ↔ ∀ x ∈ xs, ∃ y, f x = .ok y := by
  induction xs with
  | nil => simp [pure, Except.pure]
  | cons x xs ih =>
    rw [forall_mem_cons, ← ih]
    simp only [mapM_cons, bind_eq_ok, pure, Except.pure]
    constructor
    · rintro ⟨_, y, hy, ys, hys, -⟩
      exact ⟨⟨y, hy⟩, ys, hys⟩
    · rintro ⟨⟨y, hy⟩, ys, hys⟩
      exact ⟨_, y, hy, ys, hys, rfl⟩

end TeeResult

end Optee
