import Optee.ReeFs.DirEffects

/-! The table of persistent objects in use, and the flags that decide who may share one. -/

set_option linter.unusedSectionVars false

namespace Optee.Storage

open List

structure Flags where
  accessRead : Bool
  accessWrite : Bool
  accessWriteMeta : Bool
  shareRead : Bool
  shareWrite : Bool
  overwrite : Bool

def Flags.none : Flags := ⟨false, false, false, false, false, false⟩

def Flags.writeMeta : Flags := { Flags.none with accessWriteMeta := true }

inductive Usage
  | usageOpen
  | usageRename
  | usageCreate
  | usageEnum
  deriving DecidableEq

structure Pobj (κ : Type) where
  id : ℕ
  name : κ
  flags : Flags
  refcnt : ℕ
  creating : Bool

def checkAccess (o n : Flags) : TeeResult Unit :=
  if o.accessWriteMeta || n.accessWriteMeta then .error .accessConflict
  else if (o.accessRead || n.accessRead) && !(n.shareRead && o.shareRead) then .error .accessConflict
  else if n.shareRead != o.shareRead then .error .accessConflict
  else if (o.accessWrite || n.accessWrite) && !(n.shareWrite && o.shareWrite) then .error .accessConflict
  else if n.shareWrite != o.shareWrite then .error .accessConflict
  else .ok ()

structure Table (κ : Type) where
  pobjs : List (Pobj κ)
  next : ℕ

namespace Table

variable {κ : Type} [DecidableEq κ] (t : Table κ)

def update (id : ℕ) (f : Pobj κ → Pobj κ) : Table κ :=
  { t with pobjs := t.pobjs.map (fun p => if p.id = id then f p else p) }

def retain (id : ℕ) : Table κ := t.update id (fun p => { p with refcnt := p.refcnt + 1 })

def find (name : κ) : Option (Pobj κ) := (t.pobjs.filter (·.name = name)).getLast?

def add (name : κ) (flags : Flags) (creating : Bool) : Table κ :=
  ⟨t.pobjs ++ [⟨t.next, name, flags, 1, creating⟩], t.next + 1⟩

def get (name : κ) (flags : Flags) (usage : Usage) : TeeResult (Table κ × ℕ) :=
  match t.find name with
  | some p =>
    if usage = .usageEnum then .ok (t.retain p.id, p.id)
    else if p.creating || (usage = .usageCreate && !flags.overwrite) then .error .accessConflict
    else do
      checkAccess p.flags flags
      pure (t.retain p.id, p.id)
  | none => .ok (t.add name flags (usage = .usageCreate), t.next)

def createFinal (id : ℕ) : Table κ := t.update id (fun p => { p with creating := false })

def release (id : ℕ) : Table κ :=
  let t := t.update id (fun p => { p with refcnt := p.refcnt - 1 })
  { t with pobjs := t.pobjs.filter (fun p => p.refcnt ≠ 0) }

def rename (id : ℕ) (new : κ) (memory : Bool) : TeeResult (Table κ) :=
  match t.pobjs.find? (·.id = id) with
  | none => .error .badParameters
  | some p =>
    if p.refcnt ≠ 1 then .error .badState
    else if !memory then .error .outOfMemory
    else .ok (t.update id (fun p => { p with name := new }))

end Table

structure Obj where
  pobj : ℕ
  flags : Flags

structure Table.Good {κ : Type} (t : Table κ) (objs : List Obj) : Prop where
  ids : ∀ p ∈ t.pobjs, ∀ q ∈ t.pobjs, p.id = q.id → p = q
  names : ∀ p ∈ t.pobjs, ∀ q ∈ t.pobjs, p.name = q.name → p = q
  fresh : ∀ p ∈ t.pobjs, p.id < t.next
  refs : ∀ p ∈ t.pobjs, p.refcnt = objs.countP (·.pobj = p.id)
  alive : ∀ p ∈ t.pobjs, 0 < p.refcnt
  held : ∀ o ∈ objs, ∃ p ∈ t.pobjs, p.id = o.pobj
  final : ∀ p ∈ t.pobjs, p.creating = false
  exclusive : ∀ p ∈ t.pobjs, p.flags.accessWriteMeta = true → p.refcnt = 1
  writeMeta : ∀ o ∈ objs, ∀ p ∈ t.pobjs, p.id = o.pobj → o.flags.accessWriteMeta = true → p.flags.accessWriteMeta = true

namespace Table

variable {κ : Type} [DecidableEq κ] {t t' : Table κ} {name : κ} {flags : Flags} {usage : Usage} {id : ℕ} {p : Pobj κ}
  {objs : List Obj}

lemma find_some (h : t.find name = some p) : p ∈ t.pobjs ∧ p.name = name := by
  have hmem := mem_of_getLast? h
  simpa using hmem

lemma find_none (h : t.find name = none) : ∀ p ∈ t.pobjs, p.name ≠ name := by
  have hnil := getLast?_eq_none_iff.mp h
  simpa using hnil

lemma get_cases (hu : usage ≠ .usageEnum) (h : t.get name flags usage = .ok (t', id)) :
    (∃ p ∈ t.pobjs, p.name = name ∧ id = p.id ∧ t' = t.retain p.id ∧ p.flags.accessWriteMeta = false ∧
      flags.accessWriteMeta = false ∧ (usage = .usageCreate → flags.overwrite = true)) ∨
    (∀ p ∈ t.pobjs, p.name ≠ name) ∧ id = t.next ∧ t' = t.add name flags (usage = .usageCreate) := by
  unfold get at h
  split at h
  · next p hfind =>
    obtain ⟨hp, hname⟩ := find_some hfind
    rw [if_neg hu] at h
    split_ifs at h with hbusy
    obtain ⟨u, haccess, hok⟩ := TeeResult.bind_eq_ok.mp h
    cases hok
    unfold checkAccess at haccess
    split_ifs at haccess with hmeta
    simp only [Bool.or_eq_true, not_or, Bool.not_eq_true] at hmeta
    refine .inl ⟨p, hp, hname, rfl, rfl, hmeta.1, hmeta.2, fun hcreate => ?_⟩
    simp only [hcreate, decide_true, Bool.true_and, Bool.or_eq_true, Bool.not_eq_true', not_or, Bool.not_eq_false] at hbusy
    exact hbusy.2
  · next hfind =>
    cases h
    exact .inr ⟨find_none hfind, rfl, rfl⟩

variable {f : Pobj κ → Pobj κ} {creating : Bool} {i : ℕ} {o : Obj}

lemma mem_update {q : Pobj κ} (h : q ∈ (t.update id f).pobjs) : ∃ p ∈ t.pobjs, q = if p.id = id then f p else p := by
  obtain ⟨p, hp, rfl⟩ := mem_map.mp h
  exact ⟨p, hp, rfl⟩

lemma Good.of_pobjs (h : t.Good objs) (hp : t'.pobjs = t.pobjs) (hn : t.next ≤ t'.next) : t'.Good objs := by
  obtain ⟨h1, h2, h3, h4, h5, h6, h7, h8, h9⟩ := h
  rw [← hp] at h1 h2 h3 h4 h5 h6 h7 h8 h9
  exact ⟨h1, h2, fun p hp => (h3 p hp).trans_le hn, h4, h5, h6, h7, h8, h9⟩

lemma release_retain (hp : ∀ p ∈ t.pobjs, 0 < p.refcnt) : ((t.retain id).release id).pobjs = t.pobjs := by
  unfold release retain update
  dsimp only
  rw [map_map, filter_eq_self.mpr]
  · refine (map_congr_left (fun p _ => ?_)).trans (map_id _)
    by_cases h : p.id = id
    · subst h
      simp
    · simp [h]
  · intro q hq
    obtain ⟨p, hmem, rfl⟩ := mem_map.mp hq
    have hpos := hp p hmem
    by_cases h : p.id = id
    · simp [h]
      omega
    · simp [h]
      omega

lemma release_add (hfresh : ∀ p ∈ t.pobjs, p.id < t.next) (hp : ∀ p ∈ t.pobjs, 0 < p.refcnt) :
    ((t.add name flags creating).release t.next).pobjs = t.pobjs := by
  have hmap : t.pobjs.map (fun p => if p.id = t.next then { p with refcnt := p.refcnt - 1 } else p) = t.pobjs := by
    refine (map_congr_left (fun p hmem => ?_)).trans (map_id _)
    rw [if_neg (hfresh p hmem).ne]
    rfl
  unfold release add update
  dsimp only
  rw [map_append, hmap, filter_append, filter_eq_self.mpr]
  · simp
  · intro p hmem
    have hpos := hp p hmem
    simp
    omega

lemma Good.release_get (h : t.Good objs) (hget : t.get name flags usage = .ok (t', id)) :
    (t'.release id).pobjs = t.pobjs ∧ t.next ≤ (t'.release id).next := by
  by_cases hu : usage = .usageEnum
  · unfold get at hget
    split at hget
    · rw [if_pos hu] at hget
      cases hget
      exact ⟨release_retain h.alive, le_rfl⟩
    · cases hget
      exact ⟨release_add h.fresh h.alive, Nat.le_succ _⟩
  · rcases get_cases hu hget with ⟨p, -, -, rfl, rfl, -⟩ | ⟨-, rfl, rfl⟩
    · exact ⟨release_retain h.alive, le_rfl⟩
    · exact ⟨release_add h.fresh h.alive, Nat.le_succ _⟩

lemma countP_append_self (objs : List Obj) (o : Obj) (n : ℕ) :
    (objs ++ [o]).countP (·.pobj = n) = objs.countP (·.pobj = n) + if o.pobj = n then 1 else 0 := by
  by_cases h : o.pobj = n <;> simp [h]

lemma Good.ids_update (h : t.Good objs) (q : Pobj κ) (hq : q ∈ (t.update id f).pobjs) (q' : Pobj κ)
    (hq' : q' ∈ (t.update id f).pobjs) (heq : q.id = q'.id) (hf : ∀ p, (f p).id = p.id := by exact fun _ => rfl) : q = q' := by
  obtain ⟨p, hp, rfl⟩ := mem_update hq
  obtain ⟨p', hp', rfl⟩ := mem_update hq'
  obtain rfl : p = p' := h.ids p hp p' hp' (by split_ifs at heq <;> simpa [hf] using heq)
  rfl

lemma Good.carry {objs' : List Obj} (h : t.Good objs) (hnext : t'.next = t.next)
    (hids : ∀ q ∈ t'.pobjs, ∀ q' ∈ t'.pobjs, q.id = q'.id → q = q')
    (hnames : ∀ q ∈ t'.pobjs, ∀ q' ∈ t'.pobjs, q.name = q'.name → q.id = q'.id)
    (hmem : ∀ q ∈ t'.pobjs, ∃ p ∈ t.pobjs, q.id = p.id ∧ q.flags = p.flags ∧ q.creating = p.creating ∧
      q.refcnt = objs'.countP (·.pobj = q.id) ∧ 0 < q.refcnt ∧ (p.flags.accessWriteMeta = true → q.refcnt = 1))
    (hheld : ∀ o ∈ objs', ∃ q ∈ t'.pobjs, q.id = o.pobj)
    (hobjs : ∀ o ∈ objs', o.flags.accessWriteMeta = true → o ∈ objs) : t'.Good objs' := by
  refine ⟨hids, fun q hq q' hq' heq => hids q hq q' hq' (hnames q hq q' hq' heq), fun q hq => ?_, fun q hq => ?_,
    fun q hq => ?_, hheld, fun q hq => ?_, fun q hq hmeta => ?_, fun o ho q hq hid hmeta => ?_⟩
  all_goals obtain ⟨p, hp, hid', hflags, hcreating, hrefs, hpos, hone⟩ := hmem q hq
  · rw [hid', hnext]
    exact h.fresh p hp
  · exact hrefs
  · exact hpos
  · rw [hcreating]
    exact h.final p hp
  · exact hone (hflags ▸ hmeta)
  · rw [hflags]
    exact h.writeMeta o (hobjs o ho hmeta) p hp (hid' ▸ hid) hmeta

lemma Good.retain (h : t.Good objs) (hp : p ∈ t.pobjs) (hmeta : p.flags.accessWriteMeta = false)
    (hflags : flags.accessWriteMeta = false) : (t.retain p.id).Good (objs ++ [⟨p.id, flags⟩]) := by
  have hmem : ∀ q ∈ (t.retain p.id).pobjs, ∃ q0 ∈ t.pobjs, q.id = q0.id ∧ q.name = q0.name ∧ q.flags = q0.flags ∧
      q.creating = q0.creating ∧ q.refcnt = q0.refcnt + if p.id = q0.id then 1 else 0 := by
    intro q hq
    obtain ⟨q0, hq0, rfl⟩ := mem_update hq
    refine ⟨q0, hq0, ?_⟩
    by_cases heq : q0.id = p.id
    · simp [heq]
    · simp [heq, Ne.symm heq]
  refine h.carry rfl h.ids_update (fun q hq q' hq' heq => ?_) (fun q hq => ?_) (fun o ho => ?_)
    fun o ho hmeta' => ?_
  · obtain ⟨q0, hq0, hid, hname, -⟩ := hmem q hq
    obtain ⟨q1, hq1, hid', hname', -⟩ := hmem q' hq'
    rw [hid, hid', h.names q0 hq0 q1 hq1 (by rw [← hname, ← hname', heq])]
  · obtain ⟨q0, hq0, hid, -, hfl, hcreating, hcnt⟩ := hmem q hq
    have hpos := h.alive q0 hq0
    refine ⟨q0, hq0, hid, hfl, hcreating, ?_, by omega, fun hq' => ?_⟩
    · rw [hcnt, hid, countP_append_self, h.refs q0 hq0]
    · have hne : p.id ≠ q0.id := by
        intro heq
        rw [← h.ids p hp q0 hq0 heq, hmeta] at hq'
        cases hq'
      rw [hcnt, if_neg hne, h.exclusive q0 hq0 hq']
  · have hex : ∃ q0 ∈ t.pobjs, q0.id = o.pobj := by
      rcases mem_append.mp ho with ho | ho
      · exact h.held o ho
      · rw [mem_singleton.mp ho]
        exact ⟨p, hp, rfl⟩
    obtain ⟨q0, hq0, hid⟩ := hex
    refine ⟨_, mem_map_of_mem hq0, ?_⟩
    split_ifs <;> exact hid
  · rcases mem_append.mp ho with ho | ho
    · exact ho
    · rw [mem_singleton.mp ho, hflags] at hmeta'
      cases hmeta'

lemma Good.add (h : t.Good objs) (hname : ∀ p ∈ t.pobjs, p.name ≠ name) :
    (t.add name flags false).Good (objs ++ [⟨t.next, flags⟩]) := by
  have hne : ∀ q ∈ t.pobjs, q.id ≠ t.next := fun q hq => (h.fresh q hq).ne
  have hcount : objs.countP (·.pobj = t.next) = 0 := by
    rw [countP_eq_zero]
    intro o ho
    obtain ⟨p, hp, hid⟩ := h.held o ho
    simpa [← hid] using hne p hp
  have hcases : ∀ q ∈ (t.add name flags false).pobjs, q ∈ t.pobjs ∨ q = ⟨t.next, name, flags, 1, false⟩ := by
    simpa [Table.add] using hq
  refine ⟨?_, ?_, ?_, ?_, ?_, ?_, ?_, ?_, ?_⟩
  · intro q hq q' hq' heq
    rcases hcases q hq with hq | rfl <;> rcases hcases q' hq' with hq' | rfl
    · exact h.ids q hq q' hq' heq
    · exact absurd heq (hne q hq)
    · exact absurd heq.symm (hne q' hq')
    · rfl
  · intro q hq q' hq' heq
    rcases hcases q hq with hq | rfl <;> rcases hcases q' hq' with hq' | rfl
    · exact h.names q hq q' hq' heq
    · exact absurd heq (hname q hq)
    · exact absurd heq.symm (hname q' hq')
    · rfl
  · intro q hq
    rcases hcases q hq with hq | rfl
    · exact (h.fresh q hq).trans (Nat.lt_succ_self _)
    · exact Nat.lt_succ_self _
  · intro q hq
    rw [countP_append_self]
    rcases hcases q hq with hq | rfl
    · rw [if_neg (hne q hq).symm, h.refs q hq, add_zero]
    · rw [if_pos rfl, hcount]
  · intro q hq
    rcases hcases q hq with hq | rfl
    · exact h.alive q hq
    · exact Nat.one_pos
  · intro o ho
    rcases mem_append.mp ho with ho | ho
    · obtain ⟨p, hp, hid⟩ := h.held o ho
      exact ⟨p, mem_append_left _ hp, hid⟩
    · rw [mem_singleton.mp ho]
      exact ⟨_, mem_append_right _ (mem_singleton_self _), rfl⟩
  · intro q hq
    rcases hcases q hq with hq | rfl
    · exact h.final q hq
    · rfl
  · intro q hq hmeta
    rcases hcases q hq with hq | rfl
    · exact h.exclusive q hq hmeta
    · rfl
  · intro o ho q hq hid hmeta
    rcases mem_append.mp ho with ho | ho
    · rcases hcases q hq with hq | rfl
      · exact h.writeMeta o ho q hq hid hmeta
      · obtain ⟨p, hp, hid'⟩ := h.held o ho
        exact absurd (hid'.trans hid.symm) (hne p hp)
    · rw [mem_singleton.mp ho] at hid hmeta
      rcases hcases q hq with hq | rfl
      · exact absurd hid (hne q hq)
      · exact hmeta

lemma Good.get_open (h : t.Good objs) (hget : t.get name flags .usageOpen = .ok (t', id)) :
    t'.Good (objs ++ [⟨id, flags⟩]) ∧ ∃ p ∈ t'.pobjs, p.id = id ∧ p.name = name := by
  rcases get_cases (by decide) hget with ⟨p, hp, hname, rfl, rfl, hmeta, hflags, -⟩ | ⟨hname, rfl, rfl⟩
  · exact ⟨h.retain hp hmeta hflags, _, mem_map_of_mem hp, by rw [if_pos rfl], by rw [if_pos rfl, hname]⟩
  · exact ⟨h.add hname, _, mem_append_right _ (mem_singleton_self _), rfl, rfl⟩

lemma createFinal_of_final (id : ℕ) (h : ∀ p ∈ t.pobjs, p.creating = false) : (t.createFinal id).pobjs = t.pobjs := by
  refine (map_congr_left (fun p hp => ?_)).trans (map_id _)
  split_ifs with hid
  · rw [← h p hp]
    rfl
  · rfl

lemma Good.get_create (h : t.Good objs) (hget : t.get name flags .usageCreate = .ok (t', id)) :
    (t'.createFinal id).Good (objs ++ [⟨id, flags⟩]) ∧ ∃ p ∈ (t'.createFinal id).pobjs, p.id = id ∧ p.name = name := by
  rcases get_cases (by decide) hget with ⟨p, hp, hname, rfl, rfl, hmeta, hflags, -⟩ | ⟨hname, rfl, rfl⟩
  · have hgood := h.retain hp hmeta hflags
    have hsame := createFinal_of_final p.id hgood.final
    refine ⟨hgood.of_pobjs hsame le_rfl, ?_⟩
    rw [hsame]
    exact ⟨_, mem_map_of_mem hp, by rw [if_pos rfl], by rw [if_pos rfl, hname]⟩
  · have hsame : ((t.add name flags true).createFinal t.next).pobjs = (t.add name flags false).pobjs := by
      unfold createFinal update Table.add
      dsimp only
      rw [map_append]
      congr 1
      · exact createFinal_of_final _ h.final
      · simp
    refine ⟨(h.add hname).of_pobjs hsame le_rfl, ?_⟩
    change ∃ p ∈ ((t.add name flags true).createFinal t.next).pobjs, _
    rw [hsame]
    exact ⟨_, mem_append_right _ (mem_singleton_self _), rfl, rfl⟩

lemma countP_eraseIdx_of {α : Type} {xs : List α} {x : α} (h : xs[i]? = some x) (P : α → Bool) :
    xs.countP P = (xs.eraseIdx i).countP P + if P x then 1 else 0 := by
  obtain ⟨hlt, rfl⟩ := List.getElem?_eq_some_iff.mp h
  rw [← (getElem_cons_eraseIdx_perm hlt).countP_eq, countP_cons]

lemma countP_eraseIdx (ho : objs[i]? = some o) (n : ℕ) :
    objs.countP (·.pobj = n) = (objs.eraseIdx i).countP (·.pobj = n) + if o.pobj = n then 1 else 0 := by
  simpa using countP_eraseIdx_of ho (fun o => decide (o.pobj = n))

lemma mem_release {q : Pobj κ} (h : q ∈ (t.release id).pobjs) :
    ∃ p ∈ t.pobjs, q.id = p.id ∧ q.name = p.name ∧ q.flags = p.flags ∧ q.creating = p.creating ∧ 0 < q.refcnt ∧
      q.refcnt = p.refcnt - if id = p.id then 1 else 0 := by
  obtain ⟨hq, hpos⟩ := mem_filter.mp h
  obtain ⟨p, hp, rfl⟩ := mem_update hq
  refine ⟨p, hp, ?_⟩
  have hne := of_decide_eq_true hpos
  by_cases heq : p.id = id
  · rw [if_pos heq] at hne ⊢
    exact ⟨rfl, rfl, rfl, rfl, pos_of_ne_zero hne, by rw [if_pos heq.symm]⟩
  · rw [if_neg heq] at hne ⊢
    exact ⟨rfl, rfl, rfl, rfl, pos_of_ne_zero hne, by rw [if_neg (Ne.symm heq), Nat.sub_zero]⟩

lemma mem_release_of (hp : p ∈ t.pobjs) (hpos : 1 < p.refcnt ∨ p.id ≠ id ∧ 0 < p.refcnt) :
    ∃ q ∈ (t.release id).pobjs, q.id = p.id ∧ q.name = p.name := by
  refine ⟨_, mem_filter.mpr ⟨mem_map_of_mem hp, ?_⟩, ?_, ?_⟩
  · split_ifs with heq
    · rcases hpos with hpos | ⟨hne, -⟩
      · simp only [ne_eq, decide_not, Bool.not_eq_true', decide_eq_false_iff_not]
        omega
      · exact absurd heq hne
    · simp only [ne_eq, decide_not, Bool.not_eq_true', decide_eq_false_iff_not]
      omega
  · split_ifs <;> rfl
  · split_ifs <;> rfl

lemma Good.release (h : t.Good objs) (ho : objs[i]? = some o) : (t.release o.pobj).Good (objs.eraseIdx i) := by
  refine h.carry rfl (fun q hq q' hq' => h.ids_update q (mem_filter.mp hq).1 q' (mem_filter.mp hq').1)
    (fun q hq q' hq' heq => ?_) (fun q hq => ?_) (fun o' ho' => ?_) fun o' ho' _ => mem_of_mem_eraseIdx ho'
  · obtain ⟨p, hp, hid, hname, -⟩ := mem_release hq
    obtain ⟨p', hp', hid', hname', -⟩ := mem_release hq'
    rw [hid, hid', h.names p hp p' hp' (by rw [← hname, ← hname', heq])]
  · obtain ⟨p, hp, hid, -, hflags, hcreating, hpos, hcnt⟩ := mem_release hq
    refine ⟨p, hp, hid, hflags, hcreating, ?_, hpos, fun hmeta => ?_⟩
    · rw [hcnt, hid, h.refs p hp, countP_eraseIdx ho, Nat.add_sub_cancel]
    · have hone := h.exclusive p hp hmeta
      omega
  · obtain ⟨p, hp, hid⟩ := h.held o' (mem_of_mem_eraseIdx ho')
    have hcount : 0 < (objs.eraseIdx i).countP (·.pobj = p.id) := countP_pos_iff.mpr ⟨o', ho', by simp [hid]⟩
    have hrefs := h.refs p hp
    rw [countP_eraseIdx ho] at hrefs
    have hpos : 1 < p.refcnt ∨ p.id ≠ o.pobj ∧ 0 < p.refcnt := by
      by_cases heq : o.pobj = p.id
      · rw [if_pos heq] at hrefs
        exact .inl (by omega)
      · exact .inr ⟨Ne.symm heq, h.alive p hp⟩
    obtain ⟨q, hq, hqid, -⟩ := mem_release_of hp hpos
    exact ⟨q, hq, hqid.trans hid⟩

lemma Good.setName (id : ℕ) (h : t.Good objs) (hname : ∀ p ∈ t.pobjs, p.name ≠ name) :
    (t.update id ({ · with name })).Good objs := by
  have hmem : ∀ q ∈ (t.update id ({ · with name })).pobjs, ∃ p ∈ t.pobjs, q.id = p.id ∧ q.refcnt = p.refcnt ∧
      q.flags = p.flags ∧ q.creating = p.creating ∧ q.name = if p.id = id then name else p.name := by
    intro q hq
    obtain ⟨p, hp, rfl⟩ := mem_update hq
    refine ⟨p, hp, ?_⟩
    split_ifs <;> exact ⟨rfl, rfl, rfl, rfl, rfl⟩
  refine h.carry rfl h.ids_update (fun q hq q' hq' heq => ?_) (fun q hq => ?_) (fun o ho => ?_)
    fun _ ho _ => ho
  · obtain ⟨p, hp, hid, -, -, -, hn⟩ := hmem q hq
    obtain ⟨p', hp', hid', -, -, -, hn'⟩ := hmem q' hq'
    rw [hn, hn'] at heq
    rw [hid, hid']
    split_ifs at heq with h1 h2 h2
    · rw [h1, h2]
    · exact absurd heq.symm (hname p' hp')
    · exact absurd heq (hname p hp)
    · rw [h.names p hp p' hp' heq]
  · obtain ⟨p, hp, hid, hcnt, hflags, hcreating, -⟩ := hmem q hq
    rw [hid, hcnt]
    exact ⟨p, hp, rfl, hflags, hcreating, h.refs p hp, h.alive p hp, h.exclusive p hp⟩
  · obtain ⟨p, hp, hid⟩ := h.held o ho
    refine ⟨_, mem_map_of_mem hp, ?_⟩
    split_ifs <;> exact hid

lemma update_add (hne : t.next ≠ id) :
    (t.add name flags creating).update id f = (t.update id f).add name flags creating := by
  simp [Table.add, update, hne]

lemma Good.rename {new : κ} {t1 : Table κ} {n : ℕ} (h : t.Good objs) (ho : o ∈ objs)
    (hmeta : o.flags.accessWriteMeta = true) (hget : t.get new Flags.writeMeta .usageRename = .ok (t1, n)) :
    (∀ p ∈ t.pobjs, p.name ≠ new) ∧ ∃ t2, t1.rename o.pobj new true = .ok t2 ∧
      (t2.release n).pobjs = (t.update o.pobj ({ · with name := new })).pobjs ∧ t.next ≤ (t2.release n).next := by
  obtain ⟨p, hp, hid⟩ := h.held o ho
  have hne : t.next ≠ o.pobj := by
    rw [← hid]
    exact (h.fresh p hp).ne'
  rcases get_cases (by decide) hget with ⟨-, -, -, -, -, -, hfalse, -⟩ | ⟨hname, rfl, rfl⟩
  · cases hfalse
  have hgood := h.setName o.pobj hname
  refine ⟨hname, (t.add new Flags.writeMeta false).update o.pobj ({ · with name := new }), ?_, ?_, Nat.le_succ _⟩
  · unfold Table.rename
    split
    · next hnone => exact absurd hid (by simpa using find?_eq_none.mp hnone p (mem_append_left _ hp))
    next q hq =>
    have hqid : q.id = o.pobj := by simpa using find?_some hq
    have hqmem : q ∈ t.pobjs := by
      rcases mem_append.mp (mem_of_find?_eq_some hq) with hmem | hmem
      · exact hmem
      · rw [mem_singleton.mp hmem] at hqid
        exact absurd hqid hne
    rw [if_neg (not_not.mpr (h.exclusive q hqmem (h.writeMeta o ho q hqmem hqid hmeta)))]
    rfl
  · rw [update_add hne]
    exact release_add hgood.fresh hgood.alive

def Keeps (t t' : Table κ) : Prop := ∀ q ∈ t'.pobjs, ∀ p ∈ t.pobjs, p.id = q.id → p.name = q.name

lemma Good.keeps_get (h : t.Good objs) (hu : usage ≠ .usageEnum) (hget : t.get name flags usage = .ok (t', id)) :
    t.Keeps t' := by
  intro q hq p hp hid
  rcases get_cases hu hget with ⟨p', -, -, rfl, rfl, -⟩ | ⟨-, rfl, rfl⟩
  · obtain ⟨q0, hq0, rfl⟩ := mem_update hq
    obtain rfl : p = q0 := h.ids p hp q0 hq0 (by split_ifs at hid <;> exact hid)
    split_ifs <;> rfl
  · rcases mem_append.mp hq with hq | hq
    · rw [h.ids p hp q hq hid]
    · rw [mem_singleton.mp hq] at hid
      exact absurd hid (h.fresh p hp).ne

lemma Keeps.createFinal (h : t.Keeps t') : t.Keeps (t'.createFinal id) := by
  intro q hq p hp hid
  obtain ⟨q0, hq0, rfl⟩ := mem_update hq
  have hname := h q0 hq0 p hp (by split_ifs at hid <;> exact hid)
  split_ifs <;> exact hname

end Table

end Optee.Storage
