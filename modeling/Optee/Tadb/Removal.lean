import Optee.Tadb.Reserved

/-! Removal of host files: a number freed under the mutex must not be handed out again before its file is gone. -/

namespace Optee.Tadb

open Lib Lib.ByteStrings Option TeeResult List

def Phase.removal? : Phase → Option ℕ
  | .releasing removal => removal
  | .removing number => some number
  | _ => none

def World.removal? (w : World) (c : ℕ) : Option ℕ := w.callers[c]?.bind Phase.removal?

def World.removed? (w : World) (move : ℕ × Act) : Option ℕ :=
  match w.callers[move.1]?, move.2 with
  | some (.aborting entry), .removeFile => some entry.fileNumber
  | some (.removing number), .removeFile => some number
  | _, _ => none

def World.SafeRemoval (w : World) (move : ℕ × Act) : Prop :=
  ∀ n, w.removed? move = some n → Unused w.file n ∧ ∀ c, c ≠ move.1 → w.number? c ≠ some n

def World.NoReuse (w : World) (move : ℕ × Act) : Prop :=
  match move.2 with
  | .reserve faults _ => ∀ files, w.db = some files → ∀ files', (populateFiles faults w.file files).1 = .ok files' →
      ∀ c, w.removal? c ≠ some (BitString.firstClear files')
  | _ => True

def World.Cleared (w : World) : Prop := ∀ c n, w.removal? c = some n → Unused w.file n ∧ ∀ c', w.number? c' ≠ some n

variable {w w' : World} {c : ℕ} {p p' : Phase}

lemma removal?_of_callers (hlt : c < w.callers.length) (hcallers : w'.callers = w.callers.set c p') (c' : ℕ) :
    w'.removal? c' = if c' = c then p'.removal? else w.removal? c' := by
  rw [World.removal?, World.removal?, hcallers, getElem?_set]
  by_cases h : c' = c
  · rw [if_pos h.symm, if_pos h, if_pos hlt, bind_some]
  · rw [if_neg (Ne.symm h), if_neg h]

lemma Phase.number?_of_removal {n : ℕ} (h : p.removal? = some n) : p.number? = none := by
  cases p <;> first | rfl | cases h

namespace World.Cleared

lemma update (h : w.Cleared) (hc : w.callers[c]? = some p) (hcallers : w'.callers = w.callers.set c p')
    (hfile : ∀ c' n, c' ≠ c → w.removal? c' = some n → Unused w'.file n)
    (hremoval : ∀ n, p'.removal? = some n → Unused w'.file n ∧ ∀ c', c' ≠ c → w.number? c' ≠ some n)
    (hnumber : ∀ n, p'.number? = some n → p.number? = some n ∨ ∀ c', w.removal? c' ≠ some n) : w'.Cleared := by
  have hlt : c < w.callers.length := (List.getElem?_eq_some_iff.mp hc).1
  have hnumbers : ∀ c', w'.number? c' = if c' = c then p'.number? else w.number? c' := by
    intro c'
    rw [← number?_moved w c c' p' hlt, World.number?, hcallers]
    rfl
  intro c1 n hn
  rw [removal?_of_callers hlt hcallers] at hn
  split_ifs at hn with hc1
  · refine ⟨(hremoval n hn).1, fun c2 => ?_⟩
    rw [hnumbers]
    split_ifs with hc2
    · rw [Phase.number?_of_removal hn]
      exact some_ne_none n |>.symm
    · exact (hremoval n hn).2 c2 hc2
  · refine ⟨hfile c1 n hc1 hn, fun c2 => ?_⟩
    rw [hnumbers]
    split_ifs with hc2
    · intro hn'
      rcases hnumber n hn' with hp | hp
      · exact (h c1 n hn).2 c (by rw [World.number?, hc, bind_some, hp])
      · exact hp c1 hn
    · exact (h c1 n hn).2 c2

lemma phase (h : w.Cleared) (hc : w.callers[c]? = some p) (hcallers : w'.callers = w.callers.set c p')
    (hfile : w'.file = w.file) (hremoval : p'.removal?.or p.removal? = p.removal?)
    (hnumber : p'.number?.or p.number? = p.number?) : w'.Cleared := by
  refine h.update hc hcallers (fun c' n _ hn => hfile ▸ (h c' n hn).1) (fun n hn => ?_) (fun n hn => Or.inl ?_)
  · have := h c n (by rw [World.removal?, hc, bind_some, ← hremoval, hn, some_or])
    exact ⟨hfile ▸ this.1, fun c' _ => this.2 c'⟩
  · rw [← hnumber, hn, some_or]

variable {fault : Option TeeError} {lookup : ℕ → Option TeeError} {out : WriteOutcome}

lemma enter {uuid : Uuid} (h : w.Cleared) (hc : w.callers[c]? = some .idle) (hremoval : p'.removal? = none)
    (hnumber : p'.number? = none) (hok : w.enter c uuid p' fault = .ok w') : w'.Cleared := by
  have hmoved : ∀ w1 : World, w1.file = w.file → w1.callers = w.callers → (w1.moved c p').Cleared := by
    intro w1 hfile hcallers
    have hset : (w1.moved c p').callers = w.callers.set c p' := by rw [World.moved, hcallers]
    exact h.phase hc hset hfile (by rw [hremoval, none_or]) (by rw [hnumber, none_or])
  rw [World.enter] at hok
  split_ifs at hok
  · cases hok
    exact h
  unfold World.tadbOpen at hok
  split_ifs at hok
  · simp only [bind_eq_ok, assert_eq_ok] at hok
    obtain ⟨w1, ⟨-, -, hw1⟩, hok⟩ := hok
    cases fault with
    | some e =>
      cases hw1
      cases hok
      exact h
    | none =>
      cases hw1
      cases hok
      exact hmoved _ rfl rfl
  · cases hok
    exact hmoved _ rfl rfl

lemma reserve {prop : Property} {F : PopulateFaults} (h : w.Cleared) (hw : w.Reserving)
    (hc : w.callers[c]? = some (.creating prop))
    (hread : w.db = some [] → ∀ i < w.file.length, F.read i ≠ some .itemNotFound)
    (hfree : ∀ files, w.db = some files → ∀ files', (populateFiles F w.file files).1 = .ok files' →
      ∀ c, w.removal? c ≠ some (BitString.firstClear files')) (hok : w.reserve c prop F fault = .ok w') :
    w'.Cleared := by
  obtain ⟨files, hdb⟩ := hw.exists_db hc rfl
  replace hfree := hfree files hdb
  unfold World.reserve at hok
  rw [World.db_bind hdb] at hok
  generalize hpop : populateFiles F w.file files = result at hok hfree
  obtain ⟨res, file'⟩ := result
  obtain ⟨rfl, -⟩ := populateFiles_spec hw.distinct (fun hnil => hread (by rw [hdb, hnil]))
    (fun hne => hw.marked files hdb (hw.populated files hdb hne)) hpop
  cases res with
  | error e =>
    cases hok
    exact h.phase hc rfl rfl rfl rfl
  | ok files' =>
    simp only at hok
    split at hok
    · cases hok
      exact h.phase hc rfl rfl rfl rfl
    · cases hok
      refine h.update hc rfl (fun c' n _ hn => (h c' n hn).1) (fun n hn => by cases hn) (fun n hn => Or.inr ?_)
      cases hn
      exact hfree files' rfl

lemma commit {entry : Entry} {free : ℕ → Option TeeError} (h : w.Cleared) (hw : w.Reserving)
    (hc : w.callers[c]? = some p) (hp : p.HoldsDb = true) (hlive : entry.Live)
    (hnumber : p.number? = some entry.fileNumber) (hout : ∀ e, out ≠ .landed e)
    (hok : w.commit c entry lookup free out = .ok w') : w'.Cleared := by
  have hself : w.number? c = some entry.fileNumber := by rw [World.number?, hc, bind_some, hnumber]
  obtain ⟨files, hdb⟩ := hw.exists_db hc hp
  have habort : (w.moved c (.aborting entry)).Cleared :=
    h.phase hc rfl rfl rfl (by rw [hnumber]; rfl)
  have hwritten : ∀ c' n idx, w.removal? c' = some n → Unused (written w.file idx entry) n := by
    intro c' n idx hn
    refine (h c' n hn).1.written (fun _ heq => ?_)
    exact (h c' n hn).2 c (heq ▸ hself)
  unfold World.commit at hok
  rw [World.db_bind hdb] at hok
  split at hok
  · rename_i old idx hfind
    obtain ⟨hget, huuid⟩ := findEnt_found hfind
    have hold : old.Live := fun hnull => hlive (huuid.symm.trans hnull)
    have hmem : old ∈ w.file := mem_of_getElem? hget
    cases out with
    | landed e => exact absurd rfl (hout e)
    | lost e =>
      cases hok
      exact habort
    | done =>
      cases hok
      refine h.update hc rfl (fun c' n _ hn => hwritten c' n idx hn) (fun n hn => ?_) (fun n hn => by cases hn)
      cases hn
      refine ⟨fun e he hle => ?_, fun c' _ hn => (hw.others hdb hn).2 old hmem hold rfl⟩
      rcases mem_written_live he hle with rfl | ⟨i, hi, hgi⟩
      · exact fun heq => (hw.others hdb hself).2 old hmem hold heq.symm
      · exact fun heq => hi (hw.distinct i idx e old hgi hget hle hold (Or.inr heq))
  · split at hok
    · cases hok
      exact habort
    · rename_i idx hfree
      cases out with
      | landed e => exact absurd rfl (hout e)
      | lost e =>
        cases hok
        exact habort
      | done =>
        cases hok
        exact h.update hc rfl (fun c' n _ hn => hwritten c' n idx hn) (fun n hn => by cases hn) (fun n hn => by cases hn)

lemma deleteEnt {uuid : Uuid} (h : w.Cleared) (hw : w.Reserving) (hc : w.callers[c]? = some (.deleting uuid))
    (hout : ∀ e, out ≠ .lost e) (hok : w.deleteEnt c uuid lookup out = .ok w') : w'.Cleared := by
  have huuid : uuid ≠ nullUuid := hw.named _ (mem_of_getElem? hc)
  obtain ⟨files, hdb⟩ := hw.exists_db hc rfl
  have hnull : ¬ Entry.null.Live := fun hn => hn rfl
  unfold World.deleteEnt at hok
  rw [World.db_bind hdb] at hok
  split at hok
  · cases hok
    exact h.phase hc rfl rfl rfl rfl
  rename_i entry idx hfind
  obtain ⟨hget, heq⟩ := findEnt_found hfind
  have hlive : entry.Live := fun hn => huuid (heq.symm.trans hn)
  have hwritten : ∀ c' n, c' ≠ c → w.removal? c' = some n → Unused (written w.file idx Entry.null) n :=
    fun c' n _ hn => (h c' n hn).1.written (fun hn => absurd hn hnull)
  cases out with
  | lost e => exact absurd rfl (hout e)
  | landed e =>
    cases hok
    exact h.update hc rfl hwritten (fun n hn => by cases hn) (fun n hn => by cases hn)
  | done =>
    cases hok
    refine h.update hc rfl hwritten (fun n hn => ?_) (fun n hn => by cases hn)
    cases hn
    refine ⟨fun e he hle => ?_, fun c' _ hn => (hw.others hdb hn).2 entry (mem_of_getElem? hget) hlive rfl⟩
    rcases mem_written_live he hle with rfl | ⟨i, hi, hgi⟩
    · exact absurd hle hnull
    · exact fun heq => hi (hw.distinct i idx e entry hgi hget hle hlive (Or.inr heq))

lemma put {removal : Option ℕ} (h : w.Cleared) (hc : w.callers[c]? = some (.releasing removal))
    (hok : w.tadbPut = .ok w') : (w'.moved c (removal.elim .idle .removing)).Cleared := by
  have hsame : w'.file = w.file ∧ w'.callers = w.callers := by
    simp only [World.tadbPut, bind_eq_ok, assert_eq_ok, exists_const] at hok
    obtain ⟨-, -, hok⟩ := hok
    split_ifs at hok
    all_goals
      cases hok
      exact ⟨rfl, rfl⟩
  refine h.phase hc (by rw [World.moved, hsame.2]) hsame.1 ?_ ?_
  all_goals cases removal <;> rfl

lemma step {move : ℕ × Act} (h : w.Cleared) (hw : w.Reserving) (hsound : w.Sound move) (hreuse : w.NoReuse move)
    (hok : w.step move = .ok w') : w'.Cleared := by
  obtain ⟨c, act⟩ := move
  unfold World.step at hok
  dsimp only at hok
  split at hok
  · exact h.enter ‹_› rfl rfl hok
  · exact h.reserve hw ‹_› hsound hreuse hok
  · rename_i entry iv key fault hc
    cases fault with
    | some e | none =>
      cases hok
      exact h.phase hc rfl rfl rfl rfl
  · rename_i entry pos len hc
    cases hok
    exact h.phase hc rfl rfl rfl rfl
  · rename_i entry pos tag fault lookup free out hc
    cases fault with
    | some e =>
      cases hok
      exact h.phase hc rfl rfl rfl rfl
    | none =>
      have hlive : ({ entry with tag } : Entry).Live := hw.named _ (mem_of_getElem? hc)
      exact h.commit hw hc rfl hlive rfl (fun e he => hsound.2 ⟨e, he⟩) hok
  · rename_i entry pos hc
    cases hok
    exact h.phase hc rfl rfl rfl rfl
  · rename_i entry hc
    cases hok
    exact h.phase hc rfl rfl rfl rfl
  · obtain ⟨files, -, hok⟩ := bind_eq_ok.mp hok
    cases hok
    exact h.phase ‹_› rfl rfl rfl rfl
  · exact h.enter ‹_› rfl rfl hok
  · exact h.deleteEnt hw ‹_› (fun e he => hsound ⟨e, he⟩) hok
  · exact h.enter ‹_› rfl rfl hok
  · rename_i uuid lookup fault hc
    split at hok
    all_goals
      cases hok
      exact h.phase hc rfl rfl rfl rfl
  · cases hok
    exact h.phase ‹_› rfl rfl rfl rfl
  · obtain ⟨w1, hput, hok⟩ := bind_eq_ok.mp hok
    cases hok
    exact h.put ‹_› hput
  · cases hok
    exact h.phase ‹_› rfl rfl rfl rfl
  · cases hok

lemma init (n : ℕ) : (World.init n).Cleared := by
  intro c n' hn
  obtain ⟨p, hp, hpn⟩ := bind_eq_some_iff.mp hn
  rw [eq_of_mem_replicate (mem_of_getElem? hp)] at hpn
  cases hpn

lemma safeRemoval (h : w.Cleared) (hw : w.Reserving) (move : ℕ × Act) : w.SafeRemoval move := by
  intro n hn
  unfold World.removed? at hn
  split at hn
  · rename_i entry hc hact
    have hself : w.number? move.1 = some n := by rw [World.number?, hc]; exact hn
    exact ⟨(hw.own move.1 n hself).2, fun c hne hc' => hne (hw.apart c move.1 n hc' hself)⟩
  · rename_i number hc hact
    have hself : w.removal? move.1 = some n := by rw [World.removal?, hc]; exact hn
    exact ⟨(h move.1 n hself).1, fun c _ => (h move.1 n hself).2 c⟩
  · cases hn

end World.Cleared

theorem removals_safe (n : ℕ) (moves : List (ℕ × Act))
    (hmoves : Runs.Along World.step (fun w move => w.Sound move ∧ w.NoReuse move) (World.init n) moves) :
    Runs.Along World.step World.SafeRemoval (World.init n) moves :=
  hmoves.imp_of_invariant (I := fun w => w.Reserving ∧ w.Cleared) ⟨World.Reserving.init n, World.Cleared.init n⟩
    (fun _ _ _ hs hP hok => ⟨hs.1.step hP.1 hok, hs.2.step hs.1 hP.1 hP.2 hok⟩)
    (fun _ move hs _ => hs.2.safeRemoval hs.1 move)

def toyDeleted : List (ℕ × Act) :=
  [(0, .prepare (zeroBytes 16) (zeroBytes 32) none), toyCommit 0, (0, .put), (1, .delete (toyProperty 1).uuid none),
    (1, .deleteEnt (fun _ => none) .done), (1, .put)]

theorem removals_safe_deleted : ∃ w, Runs.run World.step (World.init 2) ((toyCreate 0 1).take 2 ++ toyDeleted) = .ok w ∧
    w.removed? (1, .removeFile) = some 0 ∧ w.SafeRemoval (1, .removeFile) := by
  have hrun : TeeResult.error? (do
      let w ← Runs.run World.step (World.init 2) ((toyCreate 0 1).take 2 ++ toyDeleted)
      assert (w.removed? (1, .removeFile) = some 0)) = none := by decide +kernel
  obtain ⟨w, hw, hrun⟩ := ok_of_bind hrun
  have hcond : Runs.Along World.step (fun w move => w.Sound move ∧ w.NoReuse move) (World.init 2)
      ((toyCreate 0 1).take 2 ++ (toyDeleted ++ [(1, .removeFile)])) := by
    refine ⟨⟨trivial, trivial⟩, fun w₁ h₁ => ⟨⟨?_, ?_⟩, fun w₂ _ => Runs.Along.of_mem fun move hmove w => ?_⟩⟩
    · intro _ i _ h
      cases h
    · -- no removal is pending when the number is reserved
      have hcallers : ((World.init 2).step (0, .create (toyProperty 1) none)).map World.callers =
          .ok [.creating (toyProperty 1), .idle] := by decide +kernel
      rw [h₁] at hcallers
      intro files _ files' _ c hc
      rw [World.removal?, Except.ok.inj hcallers] at hc
      obtain ⟨p, hp, hpn⟩ := bind_eq_some_iff.mp hc
      have hmem := mem_of_getElem? hp
      rw [mem_cons, mem_singleton] at hmem
      rcases hmem with rfl | rfl <;> cases hpn
    · revert move
      simp [toyDeleted, toyCommit, World.Sound, World.NoReuse]
  rw [← append_assoc] at hcond
  exact ⟨w, hw, of_assert hrun, ((removals_safe 2 _ hcond).of_append hw).1⟩

def toyReplaced : List (ℕ × Act) :=
  toyCreate 0 1 ++ [toyCommit 0] ++ toyCreate 1 1 ++ [toyCommit 1] ++ toyCreate 2 2 ++ [(1, .put)]

theorem replaced_file_removed_late : ∃ w, Runs.run World.step (World.init 3) toyReplaced = .ok w ∧
    w.removed? (1, .removeFile) = some 0 ∧ w.number? 2 = some 0 ∧ ¬ w.SafeRemoval (1, .removeFile) := by
  have hrun : TeeResult.error? (do
      let w ← Runs.run World.step (World.init 3) toyReplaced
      assert (w.removed? (1, .removeFile) = some 0)
      assert (w.number? 2 = some 0)) = none := by decide +kernel
  obtain ⟨w, hw, hrun⟩ := ok_of_bind hrun
  obtain ⟨_, hremoved, hrun⟩ := ok_of_bind hrun
  replace hremoved := assert_eq_ok.mp hremoved
  have hnumber := of_assert hrun
  exact ⟨w, hw, hremoved, hnumber, fun h => (h 0 hremoved).2 2 (by decide) hnumber⟩

end Optee.Tadb
