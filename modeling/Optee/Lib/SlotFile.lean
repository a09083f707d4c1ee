import Mathlib.Tactic.Linarith

/-! Files read and written in disjoint slots. -/

namespace Optee.Lib.SlotFile

open List Function

variable {σ : Type} {D : σ → Type}

structure File (σ : Type) (D : σ → Type) where
  data : (s : σ) → D s
  len : ℕ

abbrev Write (D : σ → Type) := (s : σ) × D s

def empty (fill : (s : σ) → D s) : File σ D := ⟨fill, 0⟩

variable (stop : σ → ℕ)

def read (f : File σ D) (s : σ) : Option (D s) :=
  if stop s ≤ f.len then some (f.data s) else none

def truncate (fill : (s : σ) → D s) (n : ℕ) (f : File σ D) : File σ D :=
  ⟨fun s => if stop s ≤ n then f.data s else fill s, n⟩

variable {f : File σ D} {s : σ} {ws : List (Write D)}

lemma read_eq_some {x : D s} : read stop f s = some x ↔ stop s ≤ f.len ∧ f.data s = x := by
  simp [read]

lemma read_truncate {fill : (s : σ) → D s} {n : ℕ} {x : D s} (h : read stop f s = some x) (hn : stop s ≤ n) :
    read stop (truncate stop fill n f) s = some x := by
  rw [read_eq_some] at h ⊢
  exact ⟨hn, by simp [truncate, hn, h.2]⟩

lemma read_truncate_beyond {fill : (s : σ) → D s} {n : ℕ} (hn : n < stop s) :
    read stop (truncate stop fill n f) s = none := by
  rw [read, if_neg]
  exact Nat.not_le.mpr hn

variable [DecidableEq σ]

def write (f : File σ D) (w : Write D) : File σ D :=
  ⟨Function.update f.data w.1 w.2, max f.len (stop w.1)⟩

def writeAll (f : File σ D) (ws : List (Write D)) : File σ D := ws.foldl (write stop) f

@[simp] lemma writeAll_nil (f : File σ D) : writeAll stop f [] = f := rfl

@[simp] lemma writeAll_cons (f : File σ D) (w : Write D) (ws : List (Write D)) :
    writeAll stop f (w :: ws) = writeAll stop (write stop f w) ws := rfl

@[simp] lemma writeAll_append (f : File σ D) (ws us : List (Write D)) :
    writeAll stop f (ws ++ us) = writeAll stop (writeAll stop f ws) us := foldl_append

@[simp] lemma read_write_self (f : File σ D) (w : Write D) : read stop (write stop f w) w.1 = some w.2 := by
  rw [read_eq_some]
  exact ⟨le_max_right _ _, update_self _ _ _⟩

lemma read_write_of_ne {w : Write D} {x : D s} (hs : w.1 ≠ s) (h : read stop f s = some x) :
    read stop (write stop f w) s = some x := by
  rw [read_eq_some] at h ⊢
  exact ⟨h.1.trans (le_max_left _ _), (update_of_ne hs.symm _ _).trans h.2⟩

lemma read_writeAll {x : D s} (hs : ∀ w ∈ ws, w.1 ≠ s) (h : read stop f s = some x) :
    read stop (writeAll stop f ws) s = some x := by
  induction ws generalizing f with
  | nil => exact h
  | cons w ws ih =>
    exact ih (fun u hu => hs u (mem_cons_of_mem _ hu))
      (read_write_of_ne stop (hs w mem_cons_self) h)

lemma read_writeAll_or {x y : D s} (hs : ∀ w ∈ ws, w.1 = s → w = ⟨s, y⟩) (h : read stop f s = some x) :
    read stop (writeAll stop f ws) s = some x ∨ read stop (writeAll stop f ws) s = some y := by
  induction ws generalizing f x with
  | nil => exact Or.inl h
  | cons w ws ih =>
    have hs' : ∀ u ∈ ws, u.1 = s → u = ⟨s, y⟩ := fun u hu => hs u (mem_cons_of_mem _ hu)
    by_cases hw : w.1 = s
    · obtain rfl := hs w mem_cons_self hw
      rcases ih hs' (read_write_self stop f ⟨s, y⟩) with h | h <;> exact Or.inr h
    · exact ih hs' (read_write_of_ne stop hw h)

lemma data_writeAll (hs : ∀ w ∈ ws, w.1 ≠ s) : (writeAll stop f ws).data s = f.data s := by
  induction ws generalizing f with
  | nil => rfl
  | cons w ws ih =>
    rw [writeAll_cons, ih (fun u hu => hs u (mem_cons_of_mem _ hu))]
    exact update_of_ne (hs w mem_cons_self).symm _ _

end Optee.Lib.SlotFile
