import Optee.Storage.Pobj

/-! Who shares a persistent object: only the flags of the first reference are kept. -/

set_option linter.unusedSectionVars false

namespace Optee.Storage

open ReeFs.Calls List

abbrev Key (Fops : Type) := Name × Fops

variable {κ : Type}

structure Ref (κ : Type) where
  pobj : ℕ
  key : κ
  flags : Flags
  usage : Usage

structure Shares (κ : Type) where
  table : Table κ
  refs : List (Ref κ)

def Shares.init : Shares κ := ⟨⟨[], 0⟩, []⟩

inductive PobjCall (κ : Type)
  | get (key : κ) (flags : Flags) (usage : Usage) (memory : Bool)
  | createFinal (i : ℕ)
  | release (i : ℕ)

variable [DecidableEq κ]

def Shares.step (s : Shares κ) : PobjCall κ → Shares κ
  | .get key flags usage memory =>
    if (s.table.find key).isNone && !memory then s
    else match s.table.get key flags usage with
      | .error _ => s
      | .ok (table, id) => ⟨table, s.refs ++ [⟨id, key, flags, usage⟩]⟩
  | .createFinal i =>
    match s.refs[i]? with
    | none => s
    | some r => { s with table := s.table.createFinal r.pobj }
  | .release i =>
    match s.refs[i]? with
    | none => s
    | some r => ⟨s.table.release r.pobj, s.refs.eraseIdx i⟩

structure Agree (f g : Flags) : Prop where
  noMeta : f.accessWriteMeta = false ∧ g.accessWriteMeta = false
  shareRead : f.shareRead = g.shareRead
  shareWrite : f.shareWrite = g.shareWrite
  read : f.accessRead = true ∨ g.accessRead = true → f.shareRead = true
  write : f.accessWrite = true ∨ g.accessWrite = true → f.shareWrite = true

variable {f g : Flags}

lemma checkAccess_eq_ok : checkAccess f g = .ok () ↔ Agree f g := by
  obtain ⟨fr, fw, fm, fsr, fsw, fo⟩ := f
  constructor
  · intro h
    unfold checkAccess at h
    split_ifs at h with hmeta hread hshare hwrite hshare'
    refine ⟨?_, ?_, ?_, ?_, ?_⟩ <;> simp_all
  · rintro ⟨⟨hf, hg⟩, hr, hw, hread, hwrite⟩
    unfold checkAccess
    cases fsr <;> cases fsw <;> simp_all

lemma Agree.symm (h : Agree f g) : Agree g f :=
  ⟨h.noMeta.symm, h.shareRead.symm, h.shareWrite.symm, fun hr => h.shareRead ▸ h.read hr.symm,
    fun hw => h.shareWrite ▸ h.write hw.symm⟩

lemma Agree.of_common {k : Flags} (hg : Agree f g) (hk : Agree f k) : Agree g k := by
  refine ⟨⟨hg.noMeta.2, hk.noMeta.2⟩, hg.shareRead.symm.trans hk.shareRead, hg.shareWrite.symm.trans hk.shareWrite, ?_, ?_⟩
  · rw [← hg.shareRead]
    rintro (hr | hr)
    · exact hg.read (.inr hr)
    · exact hk.read (.inr hr)
  · rw [← hg.shareWrite]
    rintro (hw | hw)
    · exact hg.write (.inr hw)
    · exact hk.write (.inr hw)

def Ref.Meets (a b : Ref κ) : Prop := a.pobj = b.pobj → a.usage ≠ .usageEnum → b.usage ≠ .usageEnum → Agree a.flags b.flags

structure Shares.Sound (s : Shares κ) : Prop where
  ids : s.table.pobjs.Pairwise (fun p q => p.id ≠ q.id)
  keys : s.table.pobjs.Pairwise (fun p q => p.name ≠ q.name)
  fresh : ∀ p ∈ s.table.pobjs, p.id < s.table.next
  refcnt : ∀ p ∈ s.table.pobjs, p.refcnt = s.refs.countP (·.pobj = p.id)
  held : ∀ r ∈ s.refs, ∃ p ∈ s.table.pobjs, p.id = r.pobj ∧ p.name = r.key
  -- the first one left its flags, the others were checked against them
  granted : ∀ r ∈ s.refs, ∀ p ∈ s.table.pobjs, p.id = r.pobj → r.usage ≠ .usageEnum → r.flags = p.flags ∨ Agree p.flags r.flags
  agree : s.refs.Pairwise Ref.Meets

namespace Shares.Sound

variable {s : Shares κ} {p : Pobj κ} {r : Ref κ}

section

variable (h : s.Sound)
include h

lemma update (id : ℕ) (f : Pobj κ → Pobj κ)
    (hf : ∀ p, (f p).id = p.id ∧ (f p).name = p.name ∧ (f p).flags = p.flags) :
    (s.table.update id f).pobjs.Pairwise (fun p q => p.id ≠ q.id) ∧
      (s.table.update id f).pobjs.Pairwise (fun p q => p.name ≠ q.name) ∧
      (∀ q ∈ (s.table.update id f).pobjs, ∃ p ∈ s.table.pobjs, q.id = p.id ∧ q.name = p.name ∧ q.flags = p.flags ∧
        q.refcnt = if p.id = id then (f p).refcnt else p.refcnt) ∧
      ∀ p ∈ s.table.pobjs, ∃ q ∈ (s.table.update id f).pobjs, q.id = p.id ∧ q.name = p.name := by
  have hsame : ∀ p, (if p.id = id then f p else p).id = p.id ∧ (if p.id = id then f p else p).name = p.name ∧
      (if p.id = id then f p else p).flags = p.flags := by
    intro p
    split_ifs
    · exact hf p
    · exact ⟨rfl, rfl, rfl⟩
  refine ⟨?_, ?_, ?_, ?_⟩
  · refine pairwise_map.mpr (h.ids.imp fun {p q} hne => ?_)
    rwa [(hsame p).1, (hsame q).1]
  · refine pairwise_map.mpr (h.keys.imp fun {p q} hne => ?_)
    rwa [(hsame p).2.1, (hsame q).2.1]
  · intro q hq
    obtain ⟨p, hp, rfl⟩ := Table.mem_update hq
    refine ⟨p, hp, (hsame p).1, (hsame p).2.1, (hsame p).2.2, ?_⟩
    split_ifs <;> rfl
  · intro p hp
    exact ⟨_, mem_map_of_mem hp, (hsame p).1, (hsame p).2.1⟩

lemma retain (hp : p ∈ s.table.pobjs) (hid : r.pobj = p.id) (hkey : r.key = p.name)
    (hagree : r.usage ≠ .usageEnum → Agree p.flags r.flags) : Sound ⟨s.table.retain p.id, s.refs ++ [r]⟩ := by
  obtain ⟨hids, hkeys, hmem, hstill⟩ := h.update p.id (fun p => { p with refcnt := p.refcnt + 1 })
    (fun _ => ⟨rfl, rfl, rfl⟩)
  refine ⟨hids, hkeys, fun q hq => ?_, fun q hq => ?_, fun a ha => ?_, fun a ha q hq hqa husage => ?_, ?_⟩
  · obtain ⟨q0, hq0, hqid, -⟩ := hmem q hq
    rw [hqid]
    exact h.fresh q0 hq0
  · obtain ⟨q0, hq0, hqid, -, -, hcnt⟩ := hmem q hq
    rw [hcnt, countP_append, hqid, ← h.refcnt q0 hq0]
    by_cases heq : q0.id = p.id
    · simp [heq, hid]
    · simp [heq, hid, Ne.symm heq]
  · rcases mem_append.mp ha with ha | ha
    · obtain ⟨q, hq, hqid, hqkey⟩ := h.held a ha
      obtain ⟨q', hq', hid', hkey'⟩ := hstill q hq
      exact ⟨q', hq', hid'.trans hqid, hkey'.trans hqkey⟩
    · obtain ⟨q', hq', hid', hkey'⟩ := hstill p hp
      rw [mem_singleton.mp ha]
      exact ⟨q', hq', hid'.trans hid.symm, hkey'.trans hkey.symm⟩
  · obtain ⟨q0, hq0, hqid, -, hflags, -⟩ := hmem q hq
    rw [hflags]
    rcases mem_append.mp ha with ha | ha
    · exact h.granted a ha q0 hq0 (hqid ▸ hqa) husage
    · rw [mem_singleton.mp ha] at hqa husage ⊢
      rw [inj_on_of_nodup_map (pairwise_map.mpr h.ids) hq0 hp (hqid.symm.trans (hqa.trans hid))]
      exact .inr (hagree husage)
  · refine pairwise_append.mpr ⟨h.agree, pairwise_singleton _ _, fun a ha b hb hab hua hub => ?_⟩
    rw [mem_singleton.mp hb] at hab hub ⊢
    -- the flags of the object are what both were checked against
    rcases h.granted a ha p hp (hid.symm.trans hab.symm) hua with heq | hagree'
    · rw [heq]
      exact hagree hub
    · exact hagree'.of_common (hagree hub)

lemma add {key : κ} {flags : Flags} {usage : Usage} {creating : Bool}
    (hnew : ∀ p ∈ s.table.pobjs, p.name ≠ key) :
    Sound ⟨s.table.add key flags creating, s.refs ++ [⟨s.table.next, key, flags, usage⟩]⟩ := by
  have hne : ∀ p ∈ s.table.pobjs, p.id ≠ s.table.next := fun p hp => (h.fresh p hp).ne
  have hnone : ∀ a ∈ s.refs, a.pobj ≠ s.table.next := by
    intro a ha heq
    obtain ⟨p, hp, hid, -⟩ := h.held a ha
    exact hne p hp (hid.trans heq)
  refine ⟨?_, ?_, fun q hq => ?_, fun q hq => ?_, fun a ha => ?_, fun a ha q hq hqa husage => ?_, ?_⟩
  · refine pairwise_append.mpr ⟨h.ids, pairwise_singleton _ _, fun p hp q hq => ?_⟩
    rw [mem_singleton.mp hq]
    exact hne p hp
  · refine pairwise_append.mpr ⟨h.keys, pairwise_singleton _ _, fun p hp q hq => ?_⟩
    rw [mem_singleton.mp hq]
    exact hnew p hp
  · rcases mem_append.mp hq with hq | hq
    · exact (h.fresh q hq).trans (Nat.lt_succ_self _)
    · rw [mem_singleton.mp hq]
      exact Nat.lt_succ_self _
  · rw [countP_append]
    rcases mem_append.mp hq with hq | hq
    · rw [h.refcnt q hq]
      simp [(hne q hq).symm]
    · rw [mem_singleton.mp hq, countP_eq_zero.mpr (fun a ha => by simpa using hnone a ha)]
      simp
  · rcases mem_append.mp ha with ha | ha
    · obtain ⟨p, hp, hid⟩ := h.held a ha
      exact ⟨p, mem_append_left _ hp, hid⟩
    · rw [mem_singleton.mp ha]
      exact ⟨_, mem_append_right _ (mem_singleton_self _), rfl, rfl⟩
  · rcases mem_append.mp ha with ha | ha <;> rcases mem_append.mp hq with hq | hq
    · exact h.granted a ha q hq hqa husage
    · rw [mem_singleton.mp hq] at hqa
      exact absurd hqa.symm (hnone a ha)
    · rw [mem_singleton.mp ha] at hqa
      exact absurd hqa (hne q hq)
    · rw [mem_singleton.mp ha, mem_singleton.mp hq]
      exact .inl rfl
  · refine pairwise_append.mpr ⟨h.agree, pairwise_singleton _ _, fun a ha b hb hab => ?_⟩
    rw [mem_singleton.mp hb] at hab
    exact absurd hab (hnone a ha)

lemma createFinal (id : ℕ) : Sound { s with table := s.table.createFinal id } := by
  obtain ⟨hids, hkeys, hmem, hstill⟩ := h.update id (fun p => { p with creating := false })
    (fun _ => ⟨rfl, rfl, rfl⟩)
  refine ⟨hids, hkeys, fun q hq => ?_, fun q hq => ?_, fun a ha => ?_, fun a ha q hq hqa husage => ?_, h.agree⟩
  · obtain ⟨q0, hq0, hqid, -⟩ := hmem q hq
    rw [hqid]
    exact h.fresh q0 hq0
  · obtain ⟨q0, hq0, hqid, -, -, hcnt⟩ := hmem q hq
    rw [hcnt, hqid, ite_self]
    exact h.refcnt q0 hq0
  · obtain ⟨q, hq, hqid, hqkey⟩ := h.held a ha
    obtain ⟨q', hq', hid', hkey'⟩ := hstill q hq
    exact ⟨q', hq', hid'.trans hqid, hkey'.trans hqkey⟩
  · obtain ⟨q0, hq0, hqid, -, hflags, -⟩ := hmem q hq
    rw [hflags]
    exact h.granted a ha q0 hq0 (hqid ▸ hqa) husage

lemma release {i : ℕ} (hr : s.refs[i]? = some r) : Sound ⟨s.table.release r.pobj, s.refs.eraseIdx i⟩ := by
  obtain ⟨hids, hkeys, -, -⟩ := h.update r.pobj (fun p => { p with refcnt := p.refcnt - 1 })
    (fun _ => ⟨rfl, rfl, rfl⟩)
  have hsub : (s.refs.eraseIdx i).Sublist s.refs := eraseIdx_sublist _ _
  refine ⟨hids.filter _, hkeys.filter _, fun q hq => ?_, fun q hq => ?_, fun a ha => ?_, fun a ha q hq hqa husage => ?_,
    h.agree.sublist hsub⟩
  · obtain ⟨p, hp, hqid, -⟩ := Table.mem_release hq
    rw [hqid]
    exact h.fresh p hp
  · obtain ⟨p, hp, hqid, -, -, -, -, hcnt⟩ := Table.mem_release hq
    rw [hcnt, hqid, h.refcnt p hp, Table.countP_eraseIdx_of hr]
    simp
  · obtain ⟨p, hp, hid, hkey⟩ := h.held a (hsub.mem ha)
    have hcount : 0 < (s.refs.eraseIdx i).countP (·.pobj = p.id) := countP_pos_iff.mpr ⟨a, ha, by simp [hid]⟩
    have hrefs := h.refcnt p hp
    rw [Table.countP_eraseIdx_of hr] at hrefs
    have hpos : 1 < p.refcnt ∨ p.id ≠ r.pobj ∧ 0 < p.refcnt := by
      by_cases heq : r.pobj = p.id
      · rw [if_pos (by simpa using heq)] at hrefs
        exact .inl (by omega)
      · exact .inr ⟨Ne.symm heq, by omega⟩
    obtain ⟨q, hq, hqid, hqkey⟩ := Table.mem_release_of hp hpos
    exact ⟨q, hq, hqid.trans hid, hqkey.trans hkey⟩
  · obtain ⟨p, hp, hqid, -, hflags, -⟩ := Table.mem_release hq
    rw [hflags]
    exact h.granted a (hsub.mem ha) p hp (hqid ▸ hqa) husage

lemma step (call : PobjCall κ) : (s.step call).Sound := by
  cases call with
  | get key flags usage memory =>
    unfold Shares.step
    dsimp only
    split_ifs with hmemory
    · exact h
    split
    · exact h
    next table id hget =>
      unfold Table.get at hget
      split at hget
      · next p hfind =>
        obtain ⟨hp, hname⟩ := Table.find_some hfind
        by_cases henum : usage = .usageEnum
        · rw [if_pos henum] at hget
          cases hget
          exact h.retain hp rfl hname.symm (fun hne => absurd henum hne)
        split_ifs at hget
        obtain ⟨u, haccess, hok⟩ := TeeResult.bind_eq_ok.mp hget
        cases hok
        exact h.retain hp rfl hname.symm (fun _ => checkAccess_eq_ok.mp haccess)
      · next hfind =>
        cases hget
        exact h.add (Table.find_none hfind)
  | createFinal i =>
    unfold Shares.step
    dsimp only
    split
    · exact h
    · exact h.createFinal _
  | release i =>
    unfold Shares.step
    dsimp only
    split
    · exact h
    next r hr => exact h.release hr

lemma run (calls : List (PobjCall κ)) : (calls.foldl Shares.step s).Sound := by
  induction calls generalizing s with
  | nil => exact h
  | cons call calls ih => exact ih (h.step call)

end

end Shares.Sound

lemma Shares.sound_init : (Shares.init : Shares κ).Sound :=
  ⟨.nil, .nil, nofun, nofun, nofun, nofun, .nil⟩

theorem references_agree {Fops : Type} [DecidableEq Fops] (calls : List (PobjCall (Key Fops))) :
    let s := calls.foldl Shares.step Shares.init
    (∀ (i j : ℕ) (a b : Ref (Key Fops)), i ≠ j → s.refs[i]? = some a → s.refs[j]? = some b → a.usage ≠ .usageEnum →
      b.usage ≠ .usageEnum → a.key = b.key →
      checkAccess a.flags b.flags = .ok () ∧ a.flags.accessWriteMeta = false ∧
        (a.flags.accessRead = true → b.flags.shareRead = true) ∧ (a.flags.accessWrite = true → b.flags.shareWrite = true)) ∧
    s.table.pobjs.Pairwise (fun p q => p.name ≠ q.name) := by
  intro s
  have hs : s.Sound := Shares.sound_init.run calls
  refine ⟨fun i j a b hij ha hb hua hub hkey => ?_, hs.keys⟩
  obtain ⟨p, hp, hpid, hpkey⟩ := hs.held a (mem_of_getElem? ha)
  obtain ⟨q, hq, hqid, hqkey⟩ := hs.held b (mem_of_getElem? hb)
  have hpq : p = q := inj_on_of_nodup_map (pairwise_map.mpr hs.keys) hp hq (hpkey.trans (hkey.trans hqkey.symm))
  have hpobj : a.pobj = b.pobj := by rw [← hpid, ← hqid, hpq]
  obtain ⟨hi, rfl⟩ := List.getElem?_eq_some_iff.mp ha
  obtain ⟨hj, rfl⟩ := List.getElem?_eq_some_iff.mp hb
  have hagree : Agree s.refs[i].flags s.refs[j].flags := by
    rcases Nat.lt_or_gt_of_ne hij with hlt | hgt
    · exact pairwise_iff_getElem.mp hs.agree i j hi hj hlt hpobj hua hub
    · exact (pairwise_iff_getElem.mp hs.agree j i hj hi hgt hpobj.symm hub hua).symm
  refine ⟨checkAccess_eq_ok.mpr hagree, hagree.noMeta.1, fun hr => ?_, fun hw => ?_⟩
  · rw [← hagree.shareRead]
    exact hagree.read (.inl hr)
  · rw [← hagree.shareWrite]
    exact hagree.write (.inl hw)

end Optee.Storage
