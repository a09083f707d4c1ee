import Mathlib.Data.List.GetD
import Optee.Entry.Params

/-! References taken for a message against references given back. -/

namespace Optee.Entry

open List

section

variable (cfg : Config) (env : Env)

def reached : List MsgParam → List MsgParam
  | [] => []
  | p :: ps => p :: if (setParam cfg env p).error.isSome then [] else reached ps

def mobjOf (p : MsgParam) : Option Mobj := (setParam cfg env p).slot.mobj

/-- Every reference was dropped once and nothing else was, and only the four places there are were used. -/
structure Trace.Balanced (t : Trace) : Prop where
  dropped : t.dropped.Perm t.obtained
  indices : ∀ i ∈ t.indices, i < numParamsMax

/-- No more than four parameters, and the attributes of those that take a reference are a type and nothing else. -/
structure Plain (body : List MsgParam) : Prop where
  length : body.length ≤ numParamsMax
  attr : ∀ p ∈ reached cfg env body, (mobjOf cfg env p).isSome →
    p.attr &&& attrTypeMask = p.attr ∧ (cfg.coreFfa = true → cfg.coreDynShm = true)

end

variable {cfg : Config} {env : Env}

lemma copyIn_reached (cfg : Config) (env : Env) (params : List MsgParam) :
    (copyIn cfg env params).savedAttr = (reached cfg env params).map MsgParam.attr ∧
      (copyIn cfg env params).u = (reached cfg env params).map (fun p => (setParam cfg env p).slot) := by
  induction params with
  | nil => exact ⟨rfl, rfl⟩
  | cons p ps ih =>
    unfold copyIn reached
    cases herr : (setParam cfg env p).error with
    | some e => simp [herr]
    | none => simp [herr, ih.1, ih.2]

lemma reached_length_le (cfg : Config) (env : Env) (params : List MsgParam) : (reached cfg env params).length ≤ params.length := by
  induction params with
  | nil => exact Nat.le_refl _
  | cons p ps ih =>
    unfold reached
    split_ifs
    · simp
    · simpa using ih

lemma getD_rightpad {α : Type} (xs : List α) (n i : ℕ) (a b : α) (hi : i < n) :
    (xs.rightpad n a).getD i b = xs.getD i a := by
  rw [List.rightpad]
  by_cases hx : i < xs.length
  · rw [getD_append _ _ _ _ hx, getD_eq_getElem _ _ hx, getD_eq_getElem _ _ hx]
  · rw [getD_append_right _ _ _ _ (by omega), getD_eq_default xs a (by omega),
      getD_eq_getElem _ _ (by simp; omega), getElem_replicate]

lemma filterMap_range {α β : Type} (xs : List α) (f : α → Option β) :
    (List.range xs.length).filterMap (fun i => (xs[i]?).bind f) = xs.filterMap f := by
  induction xs with
  | nil => rfl
  | cons x xs ih =>
    rw [length_cons, range_succ_eq_map, filterMap_cons, filterMap_map, filterMap_cons, ← ih]
    rfl

lemma cleanupShmRefs_eq (stack : Stack) (u : List Slot) {body : List MsgParam} (hlen : body.length ≤ numParamsMax) :
    cleanupShmRefs cfg stack (copyInParams cfg env u body).savedAttr (copyInParams cfg env u body).u body.length =
      (reached cfg env body).filterMap (fun p => if putsRef cfg p.attr then mobjOf cfg env p else none) := by
  obtain ⟨hattr, hslot⟩ := copyIn_reached cfg env body
  have hreach := reached_length_le cfg env body
  have hzero : putsRef cfg 0 = false := by simp [putsRef]
  set rs := reached cfg env body
  have hturn : ∀ i ∈ List.range body.length,
      (if putsRef cfg ((copyInParams cfg env u body).savedAttr.getD i (stack.savedAttr i)) then
        ((copyInParams cfg env u body).u.getD i (stack.u i)).mobj else none) =
      (rs[i]?).bind (fun p => if putsRef cfg p.attr then mobjOf cfg env p else none) := by
    intro i hi
    have hi4 : i < numParamsMax := Nat.lt_of_lt_of_le (mem_range.mp hi) hlen
    rw [copyInParams, if_neg (Nat.not_lt.mpr hlen)]
    rw [getD_rightpad _ _ _ _ _ hi4, getD_rightpad _ _ _ _ _ hi4, hattr, hslot]
    by_cases hx : i < rs.length
    · rw [getD_eq_getElem _ _ (by simpa using hx), getD_eq_getElem _ _ (by simpa using hx),
        getElem?_eq_getElem hx]
      simp [mobjOf]
    · rw [getD_eq_default _ _ (by simpa using hx), getElem?_eq_none (by omega), hzero]
      rfl
  unfold cleanupShmRefs
  rw [filterMap_congr hturn]
  have hsplit : body.length = rs.length + (body.length - rs.length) := by omega
  rw [hsplit, range_add, filterMap_append, filterMap_map]
  have hrest : (List.range (body.length - rs.length)).filterMap
      ((fun i => (rs[i]?).bind (fun p => if putsRef cfg p.attr then mobjOf cfg env p else none)) ∘ fun x => rs.length + x) =
      [] := by
    simp
  rw [hrest, append_nil, filterMap_range]

lemma perm_filterMap_iff {α β : Type} (xs : List α) (f : α → Option β) (P : α → Bool) :
    (xs.filterMap (fun x => if P x then f x else none)).Perm (xs.filterMap f) ↔ ∀ x ∈ xs, (f x).isSome → P x := by
  constructor
  · intro h
    have hlen := h.length_eq
    have hle : ∀ ys : List α, (ys.filterMap (fun x => if P x then f x else none)).length ≤ (ys.filterMap f).length := by
      intro ys
      induction ys with
      | nil => exact Nat.le_refl _
      | cons y ys ih =>
        simp only [filterMap_cons]
        cases hP : P y <;> cases hf : f y <;> simp <;> omega
    clear h
    induction xs with
    | nil => intro x hx; cases hx
    | cons y ys ih =>
      have htail := hle ys
      cases hP : P y <;> cases hf : f y <;> simp [hP, hf] at hlen ⊢
      all_goals first | omega | exact fun x hx hsome => ih hlen x hx hsome
  · intro h
    rw [filterMap_congr]
    intro x hx
    cases hf : f x with
    | none => simp
    | some b => rw [if_pos (h x hx (by rw [hf]; rfl))]

lemma type_of_mobj {p : MsgParam} (h : (mobjOf cfg env p).isSome) :
    let type := p.attr &&& attrTypeMask
    cfg.coreFfa = true ∧ (type = 5 ∨ type = 6 ∨ type = 7) ∨
      cfg.coreFfa = false ∧ (type = 9 ∨ type = 10 ∨ type = 11 ∨ cfg.coreDynShm = true ∧ (type = 5 ∨ type = 6 ∨ type = 7)) := by
  unfold mobjOf setParam at h
  dsimp only at h ⊢
  by_cases hmeta : p.attr &&& attrMeta ≠ 0
  · rw [if_pos hmeta] at h
    cases h
  split_ifs at h with hnone hval hffa hfmem htmem hrmem
  · cases h
  · cases h
  · exact .inl ⟨hffa, hfmem⟩
  · cases h
  · refine .inr ⟨by simpa using hffa, ?_⟩
    rcases htmem with h9 | h10 | h11
    · exact .inl h9
    · exact .inr (.inl h10)
    · exact .inr (.inr (.inl h11))
  · exact .inr ⟨by simpa using hffa, .inr (.inr (.inr hrmem))⟩
  · cases h

lemma putsRef_iff {p : MsgParam} (h : (mobjOf cfg env p).isSome) :
    putsRef cfg p.attr = true ↔ p.attr &&& attrTypeMask = p.attr ∧ (cfg.coreFfa = true → cfg.coreDynShm = true) := by
  have htype := type_of_mobj h
  unfold putsRef
  rw [decide_eq_true_eq]
  constructor
  · rintro (heq | heq | heq | ⟨hdyn, heq | heq | heq⟩) <;> rw [heq] at htype ⊢
    · exact ⟨by decide, fun hffa => absurd htype (by simp [hffa]; decide)⟩
    · exact ⟨by decide, fun hffa => absurd htype (by simp [hffa]; decide)⟩
    · exact ⟨by decide, fun hffa => absurd htype (by simp [hffa]; decide)⟩
    · exact ⟨by decide, fun _ => hdyn⟩
    · exact ⟨by decide, fun _ => hdyn⟩
    · exact ⟨by decide, fun _ => hdyn⟩
  · rintro ⟨hexact, hdyn⟩
    rw [hexact] at htype
    rcases htype with ⟨hffa, hfmem⟩ | ⟨-, h9 | h10 | h11 | hrmem⟩
    · exact .inr (.inr (.inr ⟨hdyn hffa, hfmem⟩))
    · exact .inl h9
    · exact .inr (.inl h10)
    · exact .inr (.inr (.inl h11))
    · exact .inr (.inr (.inr hrmem))

theorem references_released_iff (cfg : Config) (env : Env) (stack : Stack) (call : Call) (params : List MsgParam)
    (u : List Slot) (later : Option TeeError) :
    (entry cfg env stack call params u later).Balanced ↔ ∀ body, call.body params = .ok body → Plain cfg env body := by
  unfold entry
  cases hbody : call.body params with
  | error e => exact iff_of_true ⟨List.Perm.refl _, nofun⟩ nofun
  | ok body =>
    simp only [Except.ok.injEq, forall_eq']
    by_cases hlen : body.length ≤ numParamsMax
    · have hobtained : obtained cfg env body = (reached cfg env body).filterMap (mobjOf cfg env) := by
        rw [obtained, if_neg (Nat.not_lt.mpr hlen), (copyIn_reached cfg env body).2, filterMap_map]
        rfl
      have hindices : ∀ i ∈ List.range (copyInParams cfg env u body).savedAttr.length ++ List.range body.length,
          i < numParamsMax := by
        intro i hi
        have hsaved : (copyInParams cfg env u body).savedAttr.length = numParamsMax := by
          rw [copyInParams, if_neg (Nat.not_lt.mpr hlen)]
          dsimp only
          rw [(copyIn_reached cfg env body).1, List.rightpad, length_append, length_replicate, length_map]
          have := reached_length_le cfg env body
          omega
        rcases mem_append.mp hi with hi | hi
        · rw [hsaved] at hi
          exact mem_range.mp hi
        · exact Nat.lt_of_lt_of_le (mem_range.mp hi) hlen
      have hperm := perm_filterMap_iff (reached cfg env body) (mobjOf cfg env) (fun p => putsRef cfg p.attr)
      rw [← hobtained, ← cleanupShmRefs_eq stack u hlen] at hperm
      constructor
      · rintro ⟨hdropped, -⟩
        exact ⟨hlen, fun p hp hmobj => (putsRef_iff hmobj).mp (hperm.mp hdropped p hp hmobj)⟩
      · rintro ⟨-, hattr⟩
        refine ⟨hperm.mpr (fun p hp hmobj => (putsRef_iff hmobj).mpr (hattr p hp hmobj)), ?_⟩
        rw [if_neg (Nat.not_lt.mpr hlen)]
        exact hindices
    · refine iff_of_false (fun hbalanced => ?_) (fun hplain => hlen hplain.length)
      -- the loop that gives back runs over the places behind the arrays
      have := hbalanced.indices numParamsMax (mem_append_right _ (mem_range.mpr (Nat.lt_of_not_le hlen)))
      exact Nat.lt_irrefl _ this

def toyConfig : Config := ⟨false, true, true, false⟩

def toyEnv : Env :=
  ⟨fun _ _ _ => some ⟨1, 4096⟩, ⟨⟨0, 65536⟩, 0x40000000⟩, [], fun _ => some ⟨2, 4096⟩, fun _ _ => none⟩

def toyStack : Stack := ⟨fun _ => 0, fun _ => .mem .null⟩

def noncontigParam : MsgParam := ⟨0x209, 0x80000000, 4096, 7⟩

theorem noncontig_not_released :
    (entry toyConfig toyEnv toyStack .invokeCommand [noncontigParam] [] none).obtained = [⟨1, 4096⟩] ∧
    (entry toyConfig toyEnv toyStack .invokeCommand [noncontigParam] [] none).dropped = [] ∧
    4 ∈ (entry toyConfig toyEnv toyStack .invokeCommand (List.replicate 5 ⟨0, 0, 0, 0⟩) [] none).indices := by
  decide +kernel

end Optee.Entry
