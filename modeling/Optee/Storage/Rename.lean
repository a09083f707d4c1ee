import Optee.Storage.Pobj

/-! Renaming an open object while other sessions take references to objects and give them back. -/

set_option linter.unusedSectionVars false

namespace Optee.Storage

open List

variable {κ : Type} [DecidableEq κ]

structure Others (κ : Type) where
  table : Table κ
  held : ℕ → ℕ

inductive OtherCall (κ : Type)
  | get (name : κ) (flags : Flags) (usage : Usage)
  | createFinal (id : ℕ)
  | release (id : ℕ)

namespace Others

def step (s : Others κ) : OtherCall κ → Others κ
  | .get name flags usage =>
    match s.table.get name flags usage with
    | .error _ => s
    | .ok (t, id) => ⟨t, Function.update s.held id (s.held id + 1)⟩
  | .createFinal id => { s with table := s.table.createFinal id }
  | .release id =>
    -- only a reference that was taken is given back
    if s.held id = 0 then s else ⟨s.table.release id, Function.update s.held id (s.held id - 1)⟩

def run (s : Others κ) (calls : List (OtherCall κ)) : Others κ := calls.foldl step s

def nameOf (s : Others κ) (id : ℕ) : Option κ := (s.table.pobjs.find? (·.id = id)).map Pobj.name

def release (s : Others κ) (id : ℕ) : Others κ := { s with table := s.table.release id }

end Others

/-- What `syscall_storage_obj_rename` meets, with the calls of others before the new name is reserved and around the
move. -/
structure Setting (κ : Type) where
  checks : TeeResult Unit
  room : Bool
  moved : TeeResult Unit
  memory : Bool
  before : List (OtherCall κ)
  between : List (OtherCall κ)
  after : List (OtherCall κ)

structure Outcome (κ : Type) where
  res : TeeResult Unit
  others : Others κ
  stored : κ

def reserve (s : Others κ) (new : κ) (env : Setting κ) : TeeResult (Others κ × ℕ) := do
  env.checks
  let s := s.run env.before
  if (s.table.find new).isNone && !env.room then .error .outOfMemory
  else do
    let (t, po) ← s.table.get new Flags.writeMeta .usageRename
    pure ({ s with table := t }.run env.between, po)

def storageObjRename (s : Others κ) (id : ℕ) (old new : κ) (env : Setting κ) : Outcome κ :=
  match reserve s new env with
  | .error e => ⟨.error e, s.run env.before, old⟩
  | .ok (s, po) =>
    match env.moved with
    | .error e => ⟨.error e, s.release po, old⟩
    | .ok _ =>
      let s := s.run env.after
      match s.table.rename id new env.memory with
      | .error e => ⟨.error e, s.release po, new⟩
      | .ok t => ⟨.ok (), { s with table := t }.release po, new⟩

def Outcome.Atomic (r : Outcome κ) (id : ℕ) (old new : κ) : Prop :=
  match r.res with
  | .error _ => r.stored = old ∧ r.others.nameOf id = some old
  | .ok _ => r.stored = new ∧ r.others.nameOf id = some new

structure Owned (s : Others κ) (id : ℕ) (name : κ) : Prop where
  entry : ∃ p, s.table.pobjs.filter (·.id = id) = [p] ∧ p.name = name ∧ p.refcnt = s.held id + 1
  old : id < s.table.next

variable {s : Others κ} {id : ℕ} {name new : κ} {env : Setting κ}

section Table

variable {t : Table κ} {j : ℕ} {f : Pobj κ → Pobj κ}

lemma filter_update (hf : ∀ p, (f p).id = p.id) :
    (t.update j f).pobjs.filter (·.id = id) = (t.pobjs.filter (·.id = id)).map (fun p => if p.id = j then f p else p) := by
  rw [Table.update, filter_map]
  refine congrArg (List.map _) (filter_congr fun p _ => ?_)
  by_cases hp : p.id = j
  · simp [hp, hf]
  · simp [hp]

lemma filter_release : (t.release j).pobjs.filter (·.id = id) = ((t.pobjs.filter (·.id = id)).map
    (fun p => if p.id = j then { p with refcnt := p.refcnt - 1 } else p)).filter (fun p => p.refcnt ≠ 0) := by
  rw [← filter_update (f := fun p => { p with refcnt := p.refcnt - 1 }) (fun _ => rfl)]
  rw [Table.release, filter_filter, filter_filter]
  exact filter_congr fun p _ => Bool.and_comm _ _

end Table

lemma id_of_filter {l : List (Pobj κ)} {p : Pobj κ} (h : l.filter (·.id = id) = [p]) : p.id = id := by
  have hp : p ∈ l.filter (·.id = id) := h ▸ mem_singleton_self p
  exact of_decide_eq_true (mem_filter.mp hp).2

variable {held : ℕ → ℕ}

lemma Owned.update {j : ℕ} {f : Pobj κ → Pobj κ} (h : Owned s id name) (hf : ∀ p, (f p).id = p.id)
    (hname : ∀ p, (f p).name = p.name)
    (hrefs : ∀ p, p.refcnt = s.held id + 1 → p.id = id → (if p.id = j then f p else p).refcnt = held id + 1) :
    Owned ⟨s.table.update j f, held⟩ id name := by
  obtain ⟨p, hp, hn, hr⟩ := h.entry
  refine ⟨⟨if p.id = j then f p else p, ?_, ?_, hrefs p hr (id_of_filter hp)⟩, h.old⟩
  · rw [filter_update hf, hp]
    rfl
  · split_ifs
    · exact (hname p).trans hn
    · exact hn

lemma Owned.release {j : ℕ} (h : Owned s id name) (hrefs : held id + (if id = j then 1 else 0) = s.held id) :
    Owned ⟨s.table.release j, held⟩ id name := by
  obtain ⟨p, hp, hn, hr⟩ := h.entry
  obtain rfl := id_of_filter hp
  split_ifs at hrefs with hj
  · refine ⟨⟨{ p with refcnt := p.refcnt - 1 }, ?_, hn, by simp only [hr]; omega⟩, h.old⟩
    rw [filter_release, hp, map_singleton, if_pos hj]
    exact filter_cons_of_pos (by simp only [hr, decide_eq_true_eq]; omega)
  · refine ⟨⟨p, ?_, hn, by simp only [hr]; omega⟩, h.old⟩
    rw [filter_release, hp, map_singleton, if_neg hj]
    exact filter_cons_of_pos (by simp [hr])

lemma Owned.add {creating : Bool} {flags : Flags} (h : Owned s id name) (hheld : held id = s.held id) :
    Owned ⟨s.table.add new flags creating, held⟩ id name := by
  obtain ⟨p, hp, hn, hr⟩ := h.entry
  refine ⟨⟨p, ?_, hn, hr.trans (congrArg (· + 1) hheld.symm)⟩, Nat.lt_succ_of_lt h.old⟩
  rw [Table.add, filter_append, hp, filter_cons_of_neg (by simpa using h.old.ne')]
  rfl

lemma get_cases {t t' : Table κ} {flags : Flags} {usage : Usage} {j : ℕ} (h : t.get new flags usage = .ok (t', j)) :
    t' = t.retain j ∨ t' = t.add new flags (usage = .usageCreate) ∧ j = t.next := by
  unfold Table.get at h
  split at h
  · next p _ =>
    split_ifs at h
    · cases h
      exact .inl rfl
    cases hc : checkAccess p.flags flags with
    | error e =>
      rw [hc] at h
      cases h
    | ok u =>
      rw [hc] at h
      cases h
      exact .inl rfl
  · cases h
    exact .inr ⟨rfl, rfl⟩

section

variable (h : Owned s id name)
include h

lemma Owned.step (c : OtherCall κ) : Owned (s.step c) id name := by
  unfold Others.step
  cases c with
  | get new flags usage =>
    dsimp only
    split
    · exact h
    next t j hget =>
    rcases get_cases hget with rfl | ⟨rfl, rfl⟩
    · refine h.update (fun _ => rfl) (fun _ => rfl) (fun p hr hid => ?_)
      subst hid
      by_cases hj : p.id = j
      · subst hj
        simp [hr]
      · simp [hj, hr]
    · exact h.add (Function.update_of_ne h.old.ne _ _)
  | createFinal j =>
    refine h.update (fun _ => rfl) (fun _ => rfl) (fun p hr _ => ?_)
    split_ifs <;> exact hr
  | release j =>
    dsimp only
    split_ifs with hj
    · exact h
    refine h.release ?_
    by_cases hid : id = j
    · subst hid
      simp
      omega
    · simp [hid]

lemma Owned.run (calls : List (OtherCall κ)) : Owned (s.run calls) id name := by
  induction calls generalizing s with
  | nil => exact h
  | cons c calls ih => exact ih (h.step c)

lemma Owned.find : ∃ p, s.table.pobjs.find? (·.id = id) = some p ∧ p.name = name ∧ p.refcnt = s.held id + 1 := by
  obtain ⟨p, hp, hn⟩ := h.entry
  refine ⟨p, ?_, hn⟩
  rw [← head?_filter, hp]
  rfl

lemma Owned.nameOf : s.nameOf id = some name := by
  obtain ⟨p, hp, hn, -⟩ := h.find
  rw [Others.nameOf, hp]
  exact congrArg some hn

lemma Owned.rename : Owned { s with table := s.table.update id (fun p => { p with name := new }) } id new := by
  obtain ⟨p, hp, -, hr⟩ := h.entry
  refine ⟨⟨{ p with name := new }, ?_, rfl, hr⟩, h.old⟩
  rw [filter_update (f := fun p => { p with name := new }) (fun _ => rfl), hp, map_singleton, if_pos (id_of_filter hp)]

lemma Owned.reserve {s' : Others κ} {po : ℕ} (hr : reserve s new env = .ok (s', po)) :
    Owned s' id name ∧ id ≠ po ∧ name ≠ new := by
  obtain ⟨_, -, hr⟩ := TeeResult.bind_eq_ok.mp hr
  dsimp only at hr
  split_ifs at hr
  obtain ⟨⟨t, j⟩, hget, hpure⟩ := TeeResult.bind_eq_ok.mp hr
  cases hpure
  have hbefore := h.run env.before
  unfold Table.get at hget
  split at hget
  · next p _ =>
    -- the flags of the reservation conflict with every object that is there
    have hconflict : checkAccess p.flags Flags.writeMeta = .error .accessConflict := by simp [checkAccess, Flags.writeMeta]
    rw [if_neg (by decide), hconflict] at hget
    split_ifs at hget <;> cases hget
  · next hnone =>
    cases hget
    refine ⟨(hbefore.add rfl).run env.between, hbefore.old.ne, ?_⟩
    rintro rfl
    obtain ⟨p, hp, hn, -⟩ := hbefore.find
    rw [Table.find, getLast?_eq_none_iff, filter_eq_nil_iff] at hnone
    exact hnone p (mem_of_find?_eq_some hp) (by simpa using hn)

end

theorem rename_atomic_iff {old new : κ} (h : Owned s id old) (env : Setting κ) :
    (storageObjRename s id old new env).Atomic id old new ↔
      ∀ s' po, reserve s new env = .ok (s', po) → env.moved = .ok () → env.memory = true ∧ (s'.run env.after).held id = 0 := by
  unfold storageObjRename
  cases hr : Storage.reserve s new env with
  | error e => exact ⟨fun _ _ _ h => (by cases h), fun _ => ⟨rfl, (h.run env.before).nameOf⟩⟩
  | ok r =>
    obtain ⟨s', po⟩ := r
    obtain ⟨hs, hpo, hne⟩ := h.reserve hr
    have hrelease : ∀ {u : Others κ} {n : κ}, Owned u id n → (u.release po).nameOf id = some n := fun hu =>
      (hu.release (by rw [if_neg hpo, Nat.add_zero])).nameOf
    cases hm : env.moved with
    | error e => exact ⟨fun _ _ _ _ h => (by cases h), fun _ => ⟨rfl, hrelease hs⟩⟩
    | ok u =>
      have hafter := hs.run env.after
      obtain ⟨p, hp, hn, hrefs⟩ := hafter.find
      have hcond : (∀ s'' po', (.ok (s', po) : TeeResult (Others κ × ℕ)) = .ok (s'', po') → (.ok u : TeeResult Unit) = .ok () →
          env.memory = true ∧ (s''.run env.after).held id = 0) ↔ env.memory = true ∧ (s'.run env.after).held id = 0 :=
        ⟨fun h => h s' po rfl rfl, fun h _ _ heq _ => (by cases heq; exact h)⟩
      rw [hcond]
      dsimp only
      rw [Table.rename, hp]
      dsimp only
      by_cases hone : p.refcnt ≠ 1
      · rw [if_pos hone]
        exact ⟨fun hat => absurd hat.1.symm hne, fun hc => absurd (hrefs.trans (by rw [hc.2])) hone⟩
      rw [if_neg hone]
      cases henv : env.memory with
      | false => exact ⟨fun hat => absurd hat.1.symm hne, fun hc => (by cases hc.1)⟩
      | true => exact ⟨fun _ => ⟨rfl, by omega⟩, fun _ => ⟨rfl, hrelease hafter.rename⟩⟩

/-! An object that its owner has open for renaming. -/

def toyPobj : Others ℕ := ⟨⟨[⟨0, 7, Flags.writeMeta, 1, false⟩], 1⟩, fun _ => 0⟩

def toySetting (after : List (OtherCall ℕ)) : Setting ℕ := ⟨.ok (), true, .ok (), true, [], [], after⟩

theorem rename_undisturbed : (storageObjRename toyPobj 0 7 8 (toySetting [])).Atomic 0 7 8 :=
  have howned : Owned toyPobj 0 7 := ⟨⟨_, rfl, rfl, rfl⟩, Nat.one_pos⟩
  (rename_atomic_iff howned (toySetting [])).mpr (fun s' po hr _ => by cases hr; exact ⟨rfl, rfl⟩)

def toyDisturbed : Outcome ℕ := storageObjRename toyPobj 0 7 8 (toySetting [.get 7 Flags.none .usageEnum])

theorem rename_during_enumeration :
    toyDisturbed.res = .error .badState ∧ toyDisturbed.stored = 8 ∧ toyDisturbed.others.nameOf 0 = some 7 := by
  decide

end Optee.Storage
