import Mathlib.Data.List.Induction
import Mathlib.Data.Nat.Log
import Mathlib.Tactic.Linarith

/-! Binary trees addressed by paths and by heap numbers: the root is `1` and the children of
`i` are `2 * i` and `2 * i + 1`. -/

namespace Optee.Lib.HeapTree

open List

variable {α : Type}

def child (b : Bool) : BinaryTree α → BinaryTree α
  | .nil => .nil
  | .node _ l r => if b then r else l

def value? : BinaryTree α → Option α
  | .nil => none
  | .node a _ _ => some a

def setChild (b : Bool) (s : BinaryTree α) : BinaryTree α → BinaryTree α
  | .nil => .nil
  | .node a l r => if b then .node a l s else .node a s r

def sub : List Bool → BinaryTree α → BinaryTree α
  | [], t => t
  | b :: p, t => sub p (child b t)

def get? (p : List Bool) (t : BinaryTree α) : Option α := value? (sub p t)

def closest : List Bool → BinaryTree α → BinaryTree α
  | [], t => t
  | b :: p, t => match child b t with
    | .nil => t
    | .node a l r => closest p (.node a l r)

def graft : List Bool → BinaryTree α → BinaryTree α → BinaryTree α
  | [], s, _ => s
  | b :: p, s, t => setChild b (graft p s (child b t)) t

def modify (p : List Bool) (f : α → α) : BinaryTree α → BinaryTree α :=
  fun t => graft p (match sub p t with
    | .nil => .nil
    | .node a l r => .node (f a) l r) t

@[simp] lemma child_nil (b : Bool) : child b (.nil : BinaryTree α) = .nil := rfl
@[simp] lemma child_false (a : α) (l r : BinaryTree α) : child false (.node a l r) = l := rfl
@[simp] lemma child_true (a : α) (l r : BinaryTree α) : child true (.node a l r) = r := rfl

@[simp] lemma value?_nil : value? (.nil : BinaryTree α) = none := rfl
@[simp] lemma value?_node (a : α) (l r : BinaryTree α) : value? (.node a l r) = some a := rfl

variable {t s : BinaryTree α} {p q : List Bool} {a : α} {i j m : ℕ} {P : ℕ → α → Prop}

lemma value?_eq_none : value? t = none ↔ t = .nil := by
  cases t <;> simp

@[simp] lemma sub_nil (p : List Bool) : sub p (.nil : BinaryTree α) = .nil := by
  induction p with
  | nil => rfl
  | cons b p ih => simpa only [sub, child_nil] using ih

@[simp] lemma sub_empty (t : BinaryTree α) : sub [] t = t := rfl

lemma sub_append (p q : List Bool) (t : BinaryTree α) : sub (p ++ q) t = sub q (sub p t) := by
  induction p generalizing t with
  | nil => rfl
  | cons b p ih => exact ih _

lemma sub_snoc (p : List Bool) (b : Bool) (t : BinaryTree α) :
    sub (p ++ [b]) t = child b (sub p t) := sub_append p [b] t

lemma get?_append (p q : List Bool) (t : BinaryTree α) : get? (p ++ q) t = get? q (sub p t) := by
  simp [get?, sub_append]

@[simp] lemma get?_nil (p : List Bool) : get? p (.nil : BinaryTree α) = none := by simp [get?]

lemma ext_get? (h : ∀ p, get? p s = get? p t) : s = t := by
  induction s generalizing t with
  | nil =>
    have h0 := h []
    exact (value?_eq_none.mp h0.symm).symm
  | node a l r ihl ihr =>
    cases t with
    | nil => simpa [get?] using h []
    | node b l' r' =>
      have h0 : a = b := by simpa [get?] using h []
      have hl := ihl (fun p => by simpa [get?, sub] using h (false :: p))
      have hr := ihr (fun p => by simpa [get?, sub] using h (true :: p))
      rw [h0, hl, hr]

lemma closest_of_sub (h : sub p t ≠ .nil) : closest p t = sub p t := by
  induction p generalizing t with
  | nil => rfl
  | cons b p ih =>
    cases hc : child b t with
    | nil => simp [sub, hc] at h
    | node a l r =>
      simp only [sub, hc] at h ⊢
      simpa only [closest, hc] using ih h

lemma closest_of_missing {b : Bool} (q : List Bool) (h : sub p t ≠ .nil) (hb : sub (p ++ [b]) t = .nil) :
    closest (p ++ b :: q) t = sub p t := by
  induction p generalizing t with
  | nil =>
    rw [nil_append, sub, sub_empty] at hb
    simp [nil_append, closest, sub_empty, hb]
  | cons c p ih =>
    cases hc : child c t with
    | nil => simp [sub, hc] at h
    | node a l r =>
      simp only [sub, hc, cons_append] at h hb ⊢
      simpa only [closest, hc] using ih h hb

lemma exists_closest_eq_sub (p : List Bool) (h : t ≠ .nil) : ∃ q, q <+: p ∧ closest p t = sub q t ∧ sub q t ≠ .nil := by
  induction p generalizing t with
  | nil => exact ⟨[], prefix_rfl, rfl, h⟩
  | cons b p ih =>
    cases hc : child b t with
    | nil => exact ⟨[], nil_prefix, by simp [closest, hc], h⟩
    | node a l r =>
      obtain ⟨q, hq, he, hn⟩ := ih (t := .node a l r) (by simp)
      refine ⟨b :: q, cons_prefix_cons.mpr ⟨rfl, hq⟩, ?_, ?_⟩
      · simpa only [closest, sub, hc] using he
      · simpa only [sub, hc] using hn

lemma closest_append_of_missing (q : List Bool) (h : sub p t = .nil) : closest (p ++ q) t = closest p t := by
  induction p generalizing t with
  | nil =>
    subst h
    cases q <;> rfl
  | cons b p ih =>
    cases hc : child b t with
    | nil => simp [cons_append, closest, hc]
    | node a l r =>
      simpa only [cons_append, closest, hc] using ih h

lemma sub_graft_self (h : ∀ q b, p = q ++ [b] → sub q t ≠ .nil) : sub p (graft p s t) = s := by
  induction p generalizing t with
  | nil => rfl
  | cons b p ih =>
    cases t with
    | nil =>
      obtain ⟨q, c, hq⟩ : ∃ q c, b :: p = q ++ [c] :=
        ⟨(b :: p).dropLast, (b :: p).getLast (by simp), (dropLast_concat_getLast (by simp)).symm⟩
      exact absurd (sub_nil q) (h q c hq)
    | node a l r =>
      have hs : child b (graft (b :: p) s (.node a l r)) = graft p s (child b (.node a l r)) := by
        cases b <;> rfl
      rw [sub, hs]
      apply ih
      intro q c hq
      exact h (b :: q) c (by rw [hq, cons_append])

lemma get?_graft_of_not_prefix (h : ¬ p <+: q) : get? q (graft p s t) = get? q t := by
  induction p generalizing q t with
  | nil => exact absurd nil_prefix h
  | cons b p ih =>
    cases t with
    | nil => rfl
    | node a l r =>
      cases q with
      | nil => cases b <;> rfl
      | cons c q =>
        by_cases hc : c = b
        · subst hc
          have hq : ¬ p <+: q := fun hp => h (cons_prefix_cons.mpr ⟨rfl, hp⟩)
          have ih' := ih (t := child c (.node a l r)) hq
          cases c <;> simpa [get?, sub, graft, setChild] using ih'
        · cases b <;> cases c <;> simp_all [get?, sub, graft, setChild]

lemma graft_sub_self (p : List Bool) (t : BinaryTree α) : graft p (sub p t) t = t := by
  induction p generalizing t with
  | nil => rfl
  | cons b p ih =>
    cases t with
    | nil => rfl
    | node a l r => cases b <;> simp [graft, sub, setChild, ih]

lemma get?_modify (p q : List Bool) (f : α → α) (t : BinaryTree α) :
    get? q (modify p f t) = if q = p then (get? q t).map f else get? q t := by
  cases hs : sub p t with
  | nil =>
    have ht : modify p f t = t := by
      simp only [modify, hs]
      conv_rhs => rw [← graft_sub_self p t, hs]
    rw [ht]
    split_ifs with hq
    · subst hq
      simp [get?, hs]
    · rfl
  | node a l r =>
    have hparent : ∀ p' b, p = p' ++ [b] → sub p' t ≠ .nil := by
      intro p' b hp hn
      rw [hp, sub_snoc, hn] at hs
      simp at hs
    have hself : sub p (modify p f t) = .node (f a) l r := by
      simp only [modify, hs]
      exact sub_graft_self hparent
    by_cases hp : p <+: q
    · obtain ⟨r', rfl⟩ := hp
      rw [get?_append, hself, get?_append, hs]
      cases r' with
      | nil => simp [get?]
      | cons c r' =>
        cases c <;> simp [get?, sub]
    · have hq : q ≠ p := fun h => hp (h ▸ prefix_rfl)
      rw [if_neg hq]
      exact get?_graft_of_not_prefix hp

lemma get?_graft_leaf (hn : sub p t = .nil) (h : ∀ p' b, p = p' ++ [b] → sub p' t ≠ .nil) :
    get? q (graft p (.node a .nil .nil) t) = if q = p then some a else get? q t := by
  by_cases hp : p <+: q
  · obtain ⟨r, rfl⟩ := hp
    rw [get?_append, sub_graft_self h, get?_append, hn]
    cases r with
    | nil => simp [get?]
    | cons c r =>
      cases c <;> simp [get?, sub]
  · rw [if_neg (fun hq : q = p => hp (hq ▸ prefix_rfl))]
    exact get?_graft_of_not_prefix hp

lemma get?_graft_nil (hl : sub p t = .node a .nil .nil) :
    get? q (graft p .nil t) = if q = p then none else get? q t := by
  have h : ∀ p' b, p = p' ++ [b] → sub p' t ≠ .nil := by
    intro p' b hp hn
    rw [hp, sub_snoc, hn] at hl
    simp at hl
  by_cases hp : p <+: q
  · obtain ⟨r, rfl⟩ := hp
    rw [get?_append, sub_graft_self h, get?_append, hl]
    cases r with
    | nil => simp
    | cons c r =>
      cases c <;> simp [get?, sub]
  · rw [if_neg (fun hq : q = p => hp (hq ▸ prefix_rfl))]
    exact get?_graft_of_not_prefix hp

def heapPath (i : ℕ) : List Bool := (List.range i.log2).map (fun n => i.testBit (i.log2 - n - 1))

def heapId (p : List Bool) : ℕ := p.foldl (fun i b => 2 * i + b.toNat) 1

@[simp] lemma heapId_nil : heapId [] = 1 := rfl

@[simp] lemma heapId_snoc (p : List Bool) (b : Bool) : heapId (p ++ [b]) = 2 * heapId p + b.toNat := by
  simp [heapId, foldl_append]

lemma heapId_pos (p : List Bool) : 0 < heapId p := by
  induction p using List.reverseRecOn with
  | nil => simp
  | append_singleton p b ih => rw [heapId_snoc]; omega

@[simp] lemma heapPath_one : heapPath 1 = [] := rfl

lemma log2_child (i : ℕ) (hi : 0 < i) (b : Bool) : (2 * i + b.toNat).log2 = i.log2 + 1 := by
  have hp : i.log2 = i.log2 := rfl
  rw [Nat.log2_eq_iff (by omega)] at hp ⊢
  have hb : b.toNat ≤ 1 := Bool.toNat_le b
  omega

lemma heapPath_child (i : ℕ) (hi : 0 < i) (b : Bool) : heapPath (2 * i + b.toNat) = heapPath i ++ [b] := by
  have hdiv : (2 * i + b.toNat) / 2 = i := by have := Bool.toNat_le b; omega
  have hbit : (2 * i + b.toNat).testBit 0 = b := by
    cases b <;> simp [Nat.testBit_zero]
  rw [heapPath, log2_child i hi b, range_succ, map_append]
  congr 1
  · apply map_congr_left
    intro n hn
    have hn' : n < i.log2 := mem_range.mp hn
    have he : i.log2 + 1 - n - 1 = (i.log2 - n - 1) + 1 := by omega
    rw [he, Nat.testBit_succ, hdiv]
  · simp [hbit]

@[simp] lemma heapPath_heapId (p : List Bool) : heapPath (heapId p) = p := by
  induction p using List.reverseRecOn with
  | nil => simp
  | append_singleton p b ih => rw [heapId_snoc, heapPath_child _ (heapId_pos p), ih]

lemma heapId_heapPath (hi : 0 < i) : heapId (heapPath i) = i := by
  induction i using Nat.strong_induction_on with
  | h i ih =>
    by_cases h1 : i = 1
    · subst h1; simp
    · have hd : i = 2 * (i / 2) + (decide (i % 2 = 1)).toNat := by
        rcases Nat.mod_two_eq_zero_or_one i with h | h <;> simp [h] <;> omega
      rw [hd, heapPath_child _ (by omega), heapId_snoc, ih _ (by omega) (by omega)]

lemma heapPath_injective (hi : 0 < i) (hj : 0 < j) (h : heapPath i = heapPath j) : i = j := by
  rw [← heapId_heapPath hi, h, heapId_heapPath hj]

def at? (t : BinaryTree α) (i : ℕ) : Option α := get? (heapPath i) t

lemma at?_heapId (t : BinaryTree α) (p : List Bool) : at? t (heapId p) = get? p t := by
  rw [at?, heapPath_heapId]

lemma ext_at? (h : ∀ i, 0 < i → at? s i = at? t i) : s = t := by
  apply ext_get?
  intro p
  rw [← at?_heapId, ← at?_heapId]
  exact h _ (heapId_pos p)

lemma sub_child (t : BinaryTree α) (hi : 0 < i) (b : Bool) :
    sub (heapPath (2 * i + b.toNat)) t = child b (sub (heapPath i) t) := by
  rw [heapPath_child i hi, sub_snoc]

lemma at?_modify (t : BinaryTree α) (f : α → α) (hi : 0 < i) (hj : 0 < j) :
    at? (modify (heapPath i) f t) j = if j = i then (at? t j).map f else at? t j := by
  rw [at?, get?_modify]
  by_cases h : j = i
  · subst h; simp [at?]
  · rw [if_neg (fun hh => h (heapPath_injective hj hi hh)), if_neg h, at?]

def Full (t : BinaryTree α) (m : ℕ) : Prop := ∀ i, 0 < i → ((at? t i).isSome ↔ i ≤ m)

lemma Full.sub_ne_nil (h : Full t m) (hi : 0 < i) : sub (heapPath i) t ≠ .nil ↔ i ≤ m := by
  rw [← h i hi, at?, get?, Option.isSome_iff_ne_none, ne_eq, ne_eq, value?_eq_none]

lemma Full.parent (h : Full t m) (hi : 1 < i) (hm : i / 2 ≤ m) : ∀ p' b, heapPath i = p' ++ [b] → sub p' t ≠ .nil := by
  intro p' b hp
  have hi' := heapId_heapPath (i := i) (by omega)
  rw [hp, heapId_snoc] at hi'
  have := (h.sub_ne_nil (heapId_pos p')).mpr (by omega)
  rwa [heapPath_heapId] at this

lemma at?_graft_leaf (h : Full t m) (hi : 1 < i) (hm : m < i) (hp : i / 2 ≤ m) (hj : 0 < j) :
    at? (graft (heapPath i) (.node a .nil .nil) t) j = if j = i then some a else at? t j := by
  have hn : sub (heapPath i) t = .nil := by
    by_contra hc
    have := (h.sub_ne_nil (by omega)).mp hc
    omega
  rw [at?, get?_graft_leaf hn (h.parent hi hp)]
  by_cases hji : j = i
  · subst hji; simp
  · rw [if_neg (fun hh => hji (heapPath_injective hj (by omega) hh)), if_neg hji, at?]

lemma Full.graft_leaf (h : Full t m) (hm : 0 < m) : Full (graft (heapPath (m + 1)) (.node a .nil .nil) t) (m + 1) := by
  intro i hi
  rw [at?_graft_leaf h (by omega) (by omega) (by omega) hi]
  split_ifs with he
  · simp [he]
  · rw [h i hi]; omega

lemma Full.leaf (h : Full t m) (hm : 0 < m) : ∃ a, sub (heapPath m) t = .node a .nil .nil := by
  cases hs : sub (heapPath m) t with
  | nil => exact absurd hs ((h.sub_ne_nil hm).mpr le_rfl)
  | node a l r =>
    have hchild : ∀ b : Bool, child b (.node a l r) = .nil := by
      intro b
      by_contra hc
      rw [← hs, ← sub_child t hm] at hc
      have := (h.sub_ne_nil (by omega)).mp hc
      omega
    have hl := hchild false
    have hr := hchild true
    simp only [child_false, child_true] at hl hr
    exact ⟨a, by rw [hl, hr]⟩

lemma at?_graft_nil (h : Full t m) (hm : 0 < m) (hj : 0 < j) :
    at? (graft (heapPath m) .nil t) j = if j = m then none else at? t j := by
  obtain ⟨a, ha⟩ := h.leaf hm
  rw [at?, get?_graft_nil ha]
  by_cases hjm : j = m
  · subst hjm; simp
  · rw [if_neg (fun hh => hjm (heapPath_injective hj hm hh)), if_neg hjm, at?]

lemma Full.graft_nil (h : Full t (m + 1)) : Full (graft (heapPath (m + 1)) .nil t) m := by
  intro i hi
  rw [at?_graft_nil h (by omega) hi]
  split_ifs with he
  · simp only [Option.isSome_none, Bool.false_eq_true, false_iff]; omega
  · rw [h i hi]; omega

lemma Full.modify {f : α → α} (h : Full t m) (hi : 0 < i) : Full (modify (heapPath i) f t) m := by
  intro j hj
  rw [at?_modify t f hi hj, ← h j hj]
  split_ifs <;> simp

lemma Full.closest_self (h : Full t m) (hi : 0 < i) (hm : i ≤ m) : closest (heapPath i) t = sub (heapPath i) t :=
  closest_of_sub ((h.sub_ne_nil hi).mpr hm)

lemma Full.closest_next (h : Full t m) (hm : 0 < m) :
    closest (heapPath (m + 1)) t = sub (heapPath ((m + 1) / 2)) t := by
  have hd : m + 1 = 2 * ((m + 1) / 2) + (decide ((m + 1) % 2 = 1)).toNat := by
    rcases Nat.mod_two_eq_zero_or_one (m + 1) with hh | hh <;> simp [hh] <;> omega
  have hp := heapPath_child ((m + 1) / 2) (by omega) (decide ((m + 1) % 2 = 1))
  rw [← hd] at hp
  rw [hp]
  apply closest_of_missing []
  · exact (h.sub_ne_nil (by omega)).mpr (by omega)
  · rw [← hp]
    by_contra hc
    have := (h.sub_ne_nil (by omega)).mp hc
    omega

lemma Full.closest_eq (h : Full t m) (hm : 0 < m) (hi : 0 < i) :
    ∃ k, closest (heapPath i) t = sub (heapPath (i / 2 ^ k)) t ∧ 0 < i / 2 ^ k ∧ i / 2 ^ k ≤ m ∧ ∀ j < k, m < i / 2 ^ j := by
  induction i using Nat.strong_induction_on with
  | h i ih =>
    by_cases him : i ≤ m
    · exact ⟨0, by simpa using h.closest_self hi him, by simpa using hi, by simpa using him, fun j hj => by omega⟩
    have hd : 2 * (i / 2) + (decide (i % 2 = 1)).toNat = i := by
      rcases Nat.mod_two_eq_zero_or_one i with hh | hh <;> simp [hh] <;> omega
    have hpath := heapPath_child (i / 2) (by omega) (decide (i % 2 = 1))
    rw [hd] at hpath
    obtain ⟨k, hclosest, hpos, hle, hdeep⟩ := ih (i / 2) (by omega) (by omega)
    have hpow : ∀ j, i / 2 ^ (j + 1) = i / 2 / 2 ^ j := fun j => by rw [Nat.pow_succ', Nat.div_div_eq_div_mul]
    refine ⟨k + 1, ?_, hpow k ▸ hpos, hpow k ▸ hle, fun j hj => ?_⟩
    · rw [hpath, hpow, ← hclosest]
      by_cases hhalf : i / 2 ≤ m
      · rw [h.closest_self (by omega) hhalf]
        refine closest_of_missing [] ((h.sub_ne_nil (by omega)).mpr hhalf) ?_
        rw [← hpath]
        by_contra hsub
        exact him ((h.sub_ne_nil hi).mp hsub)
      · refine closest_append_of_missing _ ?_
        by_contra hsub
        exact hhalf ((h.sub_ne_nil (by omega)).mp hsub)
    · cases j with
      | zero => simpa using him
      | succ j => exact hpow j ▸ hdeep j (by omega)

def AllAt (P : ℕ → α → Prop) : ℕ → BinaryTree α → Prop
  | _, .nil => True
  | i, .node a l r => P i a ∧ AllAt P (2 * i) l ∧ AllAt P (2 * i + 1) r

lemma AllAt.child (h : AllAt P i t) (b : Bool) : AllAt P (2 * i + b.toNat) (child b t) := by
  cases t with
  | nil => trivial
  | node a l r => cases b with
    | false => exact h.2.1
    | true => exact h.2.2

lemma allAt_iff : AllAt P i t ↔ ∀ p a, get? p t = some a → P (p.foldl (fun i b => 2 * i + b.toNat) i) a := by
  constructor
  · intro h p
    induction p generalizing i t with
    | nil =>
      intro a ha
      cases t with
      | nil => simp at ha
      | node a' l r =>
        cases ha
        exact h.1
    | cons b p ih => exact ih (h.child b)
  · intro h
    induction t generalizing i with
    | nil => trivial
    | node a l r ihl ihr =>
      exact ⟨h [] a rfl, ihl (fun p => h (false :: p)), ihr (fun p => h (true :: p))⟩

lemma allAt_one_iff : AllAt P 1 t ↔ ∀ i a, 0 < i → at? t i = some a → P i a := by
  rw [allAt_iff]
  constructor
  · intro h i a hi ha
    have := h (heapPath i) a ha
    rwa [← heapId, heapId_heapPath hi] at this
  · intro h p a ha
    exact h (heapId p) a (heapId_pos p) (by rwa [at?_heapId])

def Under (i j : ℕ) : Prop := ∃ k, j / 2 ^ k = i

lemma Under.refl (i : ℕ) : Under i i := ⟨0, by simp⟩

lemma Under.of_child {b : Bool} (h : Under (2 * i + b.toNat) j) : Under i j := by
  obtain ⟨k, hk⟩ := h
  refine ⟨k + 1, ?_⟩
  have hb := Bool.toNat_le b
  rw [pow_succ, ← Nat.div_div_eq_div_mul]
  omega

lemma Under.le (h : Under i j) : i ≤ j := by
  obtain ⟨k, rfl⟩ := h
  exact Nat.div_le_self _ _

lemma Under.comparable {i' : ℕ} (h : Under i j) (h' : Under i' j) : Under i i' ∨ Under i' i := by
  obtain ⟨k, rfl⟩ := h
  obtain ⟨k', rfl⟩ := h'
  rcases le_total k k' with hk | hk
  · right
    exact ⟨k' - k, by rw [Nat.div_div_eq_div_mul, ← pow_add, Nat.add_sub_cancel' hk]⟩
  · left
    exact ⟨k - k', by rw [Nat.div_div_eq_div_mul, ← pow_add, Nat.add_sub_cancel' hk]⟩

lemma Under.left_right (hi : 0 < i) (hl : Under (2 * i) j) : ¬ Under (2 * i + 1) j := by
  intro hr
  rcases hl.comparable hr with ⟨k, hk⟩ | ⟨k, hk⟩
  · cases k with
    | zero => simp at hk
    | succ k =>
      have := Nat.div_le_self ((2 * i + 1) / 2) (2 ^ k)
      rw [pow_succ', ← Nat.div_div_eq_div_mul] at hk
      omega
  · have := Nat.div_le_self (2 * i) (2 ^ k)
    omega

end Optee.Lib.HeapTree
