import Mathlib.Data.List.Nodup
import Optee.Locks.Exclusion

/-! A free mutex with a waiter in its queue has someone who will look after it. -/

namespace Optee.Locks

open Lib.Runs Lib.Threads List Option

variable {wakeRead : Bool} {next : Option Mode}

section WaitQueue

variable {wq wq' : List Wqe}

def Wqe.Ordinary (w : Wqe) : Prop := w.done = false ∧ w.cv = none

def handles (wq : List Wqe) : List ℕ := wq.map (·.handle)

lemma wakeRound_eq_some {r : Bool} (h : wakeRound wakeRead wq = some (wq', r)) :
    handles wq' = handles wq ∧ ∃ w ∈ wq', w.done = true := by
  induction wq generalizing wq' with
  | nil => cases h
  | cons w ws ih =>
    rw [wakeRound] at h
    split at h
    · cases h
      exact ⟨rfl, _, mem_cons_self, rfl⟩
    · obtain ⟨⟨ws', r'⟩, hround, he⟩ := map_eq_some_iff.mp h
      cases he
      obtain ⟨hhandles, w', hw', hdone⟩ := ih hround
      exact ⟨congrArg (w.handle :: ·) hhandles, w', mem_cons_of_mem w hw', hdone⟩

lemma wakeRound_eq_none (h : wakeRound false wq = none) : ∀ w ∈ wq, ¬ w.Ordinary := by
  induction wq with
  | nil => nofun
  | cons w ws ih =>
    rw [wakeRound] at h
    split at h
    · cases h
    · next hskip =>
      rw [forall_mem_cons]
      exact ⟨fun hw => hskip ⟨hw.2, hw.1, nofun⟩, ih (map_eq_none_iff.mp h)⟩

lemma handles_wqPromoteCondvar (cv : ℕ) (onlyOne : Bool) : handles (wqPromoteCondvar cv onlyOne wq) = handles wq := by
  induction wq with
  | nil => rfl
  | cons w ws ih =>
    rw [wqPromoteCondvar]
    split
    · cases onlyOne with
      | true => rfl
      | false => exact congrArg (w.handle :: ·) ih
    · exact congrArg (w.handle :: ·) ih

lemma handles_erase {w : Wqe} (hw : w ∈ wq) (hnodup : (handles wq).Nodup) :
    handles (wq.erase w) = (handles wq).erase w.handle := by
  induction wq with
  | nil => cases hw
  | cons v vs ih =>
    obtain ⟨hv, hvs⟩ := nodup_cons.mp hnodup
    by_cases he : v = w
    · subst he
      simp [handles]
    have hw := (mem_cons.mp hw).resolve_left (Ne.symm he)
    have hne : v.handle ≠ w.handle := by
      intro h
      refine hv (show v.handle ∈ handles vs from ?_)
      rw [h]
      exact mem_map_of_mem hw
    rw [erase_cons_tail (by simpa using he)]
    show v.handle :: handles (vs.erase w) = (v.handle :: handles vs).erase w.handle
    rw [erase_cons_tail (by simpa using hne), ih hw hvs]

end WaitQueue

def Pc.Waits : Pc → Prop
  | .sleeping _ | .waking _ (some _) => True
  | _ => False

structure Mutex.Queued (m : Mutex) : Prop where
  nodup : (handles m.wq).Nodup
  waiting : ∀ i ∈ handles m.wq, ∃ t, m.threads[i]? = some t ∧ t.pc.Waits

namespace Mutex.Queued

variable {m m' : Mutex} {i : ℕ} {t t' : Thread}

section

variable (h : m.Queued) (ht : m.threads[i]? = some t)
include h ht

lemma move (hthreads : m'.threads = m.threads.set i t')
    (hwq : handles m'.wq = handles m.wq) (hpc : t.pc.Waits → t'.pc.Waits) : m'.Queued := by
  refine ⟨hwq ▸ h.nodup, fun j hj => ?_⟩
  obtain ⟨u, hu, hwaits⟩ := h.waiting j (hwq ▸ hj)
  rw [hthreads]
  by_cases hij : i = j
  · subst hij
    rw [ht] at hu
    cases hu
    exact ⟨t', set_self ht, hpc hwaits⟩
  · exact ⟨u, (set_other hij).trans hu, hwaits⟩

lemma not_mem (hpc : ¬ t.pc.Waits) : i ∉ handles m.wq := by
  intro hi
  obtain ⟨u, hu, hwaits⟩ := h.waiting i hi
  rw [ht] at hu
  cases hu
  exact hpc hwaits

lemma enqueue (hthreads : m'.threads = m.threads.set i t')
    (hwq : handles m'.wq = handles m.wq ++ [i]) (hpc : ¬ t.pc.Waits) (hpc' : t'.pc.Waits) : m'.Queued := by
  have hnot := h.not_mem ht hpc
  refine ⟨?_, fun j hj => ?_⟩
  · rw [hwq, nodup_append]
    exact ⟨h.nodup, nodup_singleton i, fun a ha b hb => by
      rw [mem_singleton.mp hb]
      rintro rfl
      exact hnot ha⟩
  · rw [hthreads]
    by_cases hij : i = j
    · subst hij
      exact ⟨t', set_self ht, hpc'⟩
    · obtain hj | hj := mem_append.mp (hwq ▸ hj)
      · obtain ⟨u, hu, hwaits⟩ := h.waiting j hj
        exact ⟨u, (set_other hij).trans hu, hwaits⟩
      · exact absurd (mem_singleton.mp hj).symm hij

lemma take (hpc : ¬ t.pc.Waits) {mode : Mode} : (m.take i t mode).Queued :=
  h.move ht rfl rfl fun hwaits => absurd hwaits hpc

lemma lock (hpc : ¬ t.pc.Waits) {mode : Mode} : (m.lock i t mode).Queued := by
  rw [Mutex.lock]
  split
  · exact h.take ht hpc
  · exact h.enqueue ht rfl map_append hpc trivial

end

lemma dequeue (h : m.Queued) (hthreads : m'.threads = m.threads.set i t')
    (hwq : handles m'.wq = (handles m.wq).erase i) : m'.Queued := by
  refine ⟨hwq ▸ h.nodup.erase i, fun j hj => ?_⟩
  rw [hwq] at hj
  have hij : i ≠ j := by
    rintro rfl
    exact h.nodup.not_mem_erase hj
  obtain ⟨u, hu, hwaits⟩ := h.waiting j (mem_of_mem_erase hj)
  exact ⟨u, by rw [hthreads, set_other hij, hu], hwaits⟩

end Mutex.Queued

def Mutex.Tended (m : Mutex) : Prop :=
  (∃ w ∈ m.wq, w.done = true) ∨ (∃ t ∈ m.threads, ∃ mode, t.pc = .retry mode) ∨
    ∃ t ∈ m.threads, ∃ next, t.pc = .waking false next

def Mutex.Wakes (m : Mutex) : Prop := m.state = 0 → (∃ w ∈ m.wq, w.Ordinary) → m.Tended

lemma eq_neg_one_of_add_one {a : Int16} (h : a + 1 = 0) : a = -1 := by
  have hlo := a.le_toInt
  have hhi := a.toInt_lt
  have h := congrArg Int16.toInt h
  rw [Int16.toInt_add, Int16.toInt_one, Int16.toInt_zero, Int.bmod_def] at h
  refine Int16.toInt_inj.mp (show a.toInt = -1 from ?_)
  split at h <;> omega

namespace Mutex.Wakes

variable {m m' : Mutex} {i : ℕ} {t t' : Thread} {mode : Mode}

lemma of_state (h : m.state ≠ 0) : m.Wakes := fun h0 => absurd h0 h

lemma of_pc (ht : m.threads[i]? = some t) (hthreads : m'.threads = m.threads.set i t')
    (hpc : (∃ mode, t'.pc = .retry mode) ∨ ∃ next, t'.pc = .waking false next) : m'.Wakes := by
  intro _ _
  have hmem : t' ∈ m'.threads := hthreads ▸ mem_of_getElem? (set_self ht)
  exact .inr (hpc.imp (fun h => ⟨t', hmem, h⟩) fun h => ⟨t', hmem, h⟩)

lemma take (hcan : canLock m.state mode) : (m.take i t mode).Wakes := by
  refine of_state ?_
  cases mode with
  | read =>
    intro h0
    have hne : m.state ≠ -1 := of_decide_eq_true hcan
    exact hne (eq_neg_one_of_add_one h0)
  | write => exact (by decide : (-1 : Int16) ≠ 0)

lemma lock : (m.lock i t mode).Wakes := by
  rw [Mutex.lock]
  split
  · next hcan => exact take hcan
  next hcan =>
  refine of_state ?_
  cases mode with
  | read =>
    have hstate : m.state = -1 := by simpa [canLock] using hcan
    rw [hstate]
    decide
  | write => simpa [canLock] using hcan

lemma wake (h : m.Wakes) (ht : m.threads[i]? = some t) (hpc : t.pc = .waking wakeRead next) :
    (m.wake i t wakeRead next).Wakes := by
  rw [Mutex.wake]
  split
  · next hround =>
    rintro h0 ⟨w, hw, hordinary⟩
    cases wakeRead with
    | false => exact absurd hordinary (wakeRound_eq_none hround w hw)
    | true =>
      have hkept : ∀ u ∈ m.threads, u ≠ t → u ∈ (m.setThread i { t with pc := Mutex.afterWake next }).threads := by
        intro u hu hne
        obtain ⟨j, hj⟩ := getElem?_of_mem hu
        have hij : i ≠ j := by
          rintro rfl
          exact hne (mem_unique hj ht)
        exact mem_of_getElem? ((set_other hij).trans hj)
      obtain hdone | ⟨u, hu, mode, hretry⟩ | ⟨u, hu, next', hwaking⟩ := h h0 ⟨w, hw, hordinary⟩
      · exact .inl hdone
      · refine .inr (.inl ⟨u, hkept u hu ?_, mode, hretry⟩)
        rintro rfl
        rw [hpc] at hretry
        cases hretry
      · refine .inr (.inr ⟨u, hkept u hu ?_, next', hwaking⟩)
        rintro rfl
        rw [hpc] at hwaking
        cases hwaking
  · next hround => exact fun _ _ => .inl (wakeRound_eq_some hround).2
  · next hround => exact fun _ _ => .inl (wakeRound_eq_some hround).2

end Mutex.Wakes

structure Mutex.Attended (m : Mutex) : Prop where
  sound : m.Sound
  queued : m.Queued
  wakes : m.Wakes

namespace Mutex.Attended

variable {m m' : Mutex} {i : ℕ} {t : Thread}

lemma state_ne_zero (h : m.Sound) (ht : m.threads[i]? = some t) (hold : t.hold ≠ .none) : m.state ≠ 0 := by
  intro h0
  obtain ⟨hs, -⟩ | ⟨hs, hpos, hle, -⟩ := h.holder ht hold
  · rw [h0] at hs
    cases hs
  · rw [h0, Int16.toInt_zero] at hs
    omega

section

variable (h : m.Attended) (ht : m.threads[i]? = some t)
include h ht

lemma unlock (hpc : ¬ t.pc.Waits) (hm : m.unlock i t = .ok m') : m'.Queued ∧ m'.Wakes := by
  rw [Mutex.unlock] at hm
  split at hm <;> cases hm
  exact ⟨h.queued.move ht rfl rfl fun hwaits => absurd hwaits hpc, .of_pc ht rfl (.inr ⟨none, rfl⟩)⟩

lemma readUnlock (hpc : ¬ t.pc.Waits) (hm : m.readUnlock i t = .ok m') : m'.Queued ∧ m'.Wakes := by
  rw [Mutex.readUnlock] at hm
  split at hm <;> cases hm
  refine ⟨h.queued.move ht rfl rfl fun hwaits => absurd hwaits hpc, ?_⟩
  by_cases h0 : m.state - 1 = 0
  · exact .of_pc ht rfl (.inr ⟨none, if_pos h0⟩)
  · exact .of_state h0

lemma condvarWait (hpc : ¬ t.pc.Waits) {cv : ℕ} (hm : m.condvarWait i t cv = .ok m') : m'.Queued ∧ m'.Wakes := by
  rw [Mutex.condvarWait] at hm
  split at hm <;> cases hm
  generalize (if m.state > 0 then Mode.read else .write) = mode
  generalize (if m.state > 1 then m.state - 1 else 0) = state
  split_ifs with h0
  · exact ⟨h.queued.enqueue ht rfl map_append hpc trivial, .of_pc ht rfl (.inr ⟨some mode, rfl⟩)⟩
  · exact ⟨h.queued.enqueue ht rfl map_append hpc trivial, .of_state h0⟩

lemma wake (hpc : t.pc = .waking wakeRead next) : (m.wake i t wakeRead next).Queued := by
  have hafter : t.pc.Waits → (Mutex.afterWake next).Waits := by
    rw [hpc]
    cases next <;> exact id
  have hwaking : t.pc.Waits → (Pc.waking true next).Waits := by
    rw [hpc]
    cases next <;> exact id
  rw [Mutex.wake]
  split
  · exact h.queued.move ht rfl rfl hafter
  · next hround => exact h.queued.move ht rfl (wakeRound_eq_some hround).1 hwaking
  · next hround => exact h.queued.move ht rfl (wakeRound_eq_some hround).1 hafter

lemma waitFinal (mode : Mode) : (m.waitFinal i t mode).Queued ∧ (m.waitFinal i t mode).Wakes := by
  rw [Mutex.waitFinal]
  split
  · next w hw =>
    have hhandle : w.handle = i := by simpa using find?_some hw
    split
    · refine ⟨h.queued.dequeue rfl ?_, .of_pc ht rfl (.inl ⟨mode, rfl⟩)⟩
      rw [← hhandle]
      exact handles_erase (mem_of_find?_eq_some hw) h.queued.nodup
    · exact ⟨h.queued, h.wakes⟩
  · exact ⟨h.queued, h.wakes⟩

lemma call (hpc : t.pc = .idle) {a : Action} (hm : call m i t a = .ok m') : m'.Queued ∧ m'.Wakes := by
  have hnot : ¬ t.pc.Waits := by
    rw [hpc]
    exact id
  have hsame : m.Queued ∧ m.Wakes := ⟨h.queued, h.wakes⟩
  cases a with
  | lock mode =>
    cases hm
    exact ⟨h.queued.lock ht hnot, .lock⟩
  | trylock mode =>
    cases hm
    rw [Mutex.trylock]
    split
    · next hcan => exact ⟨h.queued.take ht hnot, .take hcan⟩
    · exact hsame
  | unlock mode =>
    cases mode with
    | write =>
      rw [Locks.call] at hm
      split at hm
      · cases hm
        exact hsame
      · exact h.unlock ht hnot hm
    | read =>
      rw [Locks.call] at hm
      split at hm
      · cases hm
        exact hsame
      · exact h.readUnlock ht hnot hm
  | condvarWait cv =>
    rw [Locks.call] at hm
    split at hm
    · cases hm
      exact hsame
    · next hold =>
      have hstate := state_ne_zero h.sound ht hold
      cases hm
      exact ⟨h.queued.move ht rfl rfl fun hwaits => absurd hwaits hnot, .of_state hstate⟩
  | condvarSignal cv onlyOne =>
    rw [Locks.call] at hm
    split at hm
    · next hold =>
      have hstate := state_ne_zero h.sound ht hold.1
      cases hm
      exact ⟨h.queued.move ht rfl rfl fun hwaits => absurd hwaits hnot, .of_state hstate⟩
    · cases hm
      exact hsame
  | go =>
    cases hm
    exact hsame

lemma goOn (hm : goOn m i t = .ok m') : m'.Queued ∧ m'.Wakes := by
  have hsound := h.sound.thread i t ht
  rw [Thread.Sound] at hsound
  rw [Locks.goOn] at hm
  cases hpc : t.pc with
  | idle =>
    rw [hpc] at hm
    cases hm
    exact ⟨h.queued, h.wakes⟩
  | linked cv =>
    rw [hpc] at hm
    exact h.condvarWait ht (hpc ▸ id) hm
  | promoting cv onlyOne =>
    rw [hpc] at hm hsound
    have hstate := state_ne_zero h.sound ht hsound.2
    cases hm
    refine ⟨h.queued.move ht rfl (handles_wqPromoteCondvar cv onlyOne) fun hwaits => ?_, .of_state hstate⟩
    rw [hpc] at hwaits
    exact hwaits.elim
  | waking wakeRead next =>
    rw [hpc] at hm
    cases hm
    exact ⟨h.wake ht hpc, h.wakes.wake ht hpc⟩
  | sleeping mode =>
    rw [hpc] at hm
    cases hm
    exact h.waitFinal ht mode
  | retry mode =>
    rw [hpc] at hm
    cases hm
    exact ⟨h.queued.lock ht (hpc ▸ id), .lock⟩

end

lemma step (h : m.Attended) (e : ℕ × Action) (hno : NoOverflow m e) : ∃ m', step m e = .ok m' ∧ m'.Attended := by
  obtain ⟨m', hm, hsound⟩ := h.sound.step e hno
  suffices m'.Queued ∧ m'.Wakes from ⟨m', hm, hsound, this.1, this.2⟩
  obtain ⟨i, a⟩ := e
  rw [Locks.step] at hm
  cases ht : m.threads[i]? with
  | none =>
    simp only [ht] at hm
    cases hm
    exact ⟨h.queued, h.wakes⟩
  | some t =>
    simp only [ht] at hm
    split at hm
    · next hpc => exact h.call ht hpc hm
    · split at hm
      · exact h.goOn ht hm
      · cases hm
        exact ⟨h.queued, h.wakes⟩

end Mutex.Attended

lemma attended_init (n : ℕ) : (init n).Attended :=
  ⟨sound_init n, ⟨nodup_nil, nofun⟩, fun _ ⟨_, hw, _⟩ => by cases hw⟩

/-- A waiter of a free mutex is in the care of a woken thread that has not tried yet, or of one still to wake others. -/
def Mutex.NoLostWakeup (m : Mutex) : Prop :=
  m.state = 0 → (∃ w ∈ m.wq, w.done = false ∧ w.cv = none) →
    (∃ w ∈ m.wq, w.done = true ∧ ∃ t ∈ m.threads[w.handle]?, t.pc.Waits) ∨
    (∃ t ∈ m.threads, ∃ mode, t.pc = .retry mode) ∨
    ∃ t ∈ m.threads, ∃ wakeRead next, t.pc = .waking wakeRead next

lemma Mutex.Attended.noLostWakeup {m : Mutex} (h : m.Attended) : m.NoLostWakeup := by
  intro h0 hwaiter
  obtain ⟨w, hw, hdone⟩ | hretry | ⟨t, ht, next, hpc⟩ := h.wakes h0 hwaiter
  · exact .inl ⟨w, hw, hdone, h.queued.waiting _ (mem_map_of_mem hw)⟩
  · exact .inr (.inl hretry)
  · exact .inr (.inr ⟨t, ht, false, next, hpc⟩)

def sleeper : Thread := ⟨.sleeping .write, .none, some ⟨1, 0⟩⟩

def waitSignal : List (ℕ × Action) :=
  [(0, .condvarWait 7), (0, .go), (0, .go), (1, .condvarSignal 7 false), (1, .go)]

def forgotten (k : ℕ) : Mutex := ⟨0, [⟨0, false, false, none⟩], [7], sleeper :: reader :: List.replicate k reader, []⟩

lemma run_wait_signal {state : Int16} (h0 : state ≠ 0) (hpos : ¬ state > 0) (hone : ¬ state > 1) (k : ℕ) :
    run step ⟨state, [], [], reader :: reader :: List.replicate k reader, []⟩ waitSignal = .ok (forgotten k) := by
  have hwait : step ⟨state, [], [7], ⟨.linked 7, ⟨1, 0⟩, none⟩ :: reader :: List.replicate k reader, []⟩ (0, .go) =
      .ok ⟨0, [⟨0, false, false, some 7⟩], [7],
        ⟨.waking false (some .write), .none, some ⟨1, 0⟩⟩ :: reader :: List.replicate k reader, []⟩ := by
    simp [step, goOn, Mutex.condvarWait, h0, hpos, hone, Hold.sub, Hold.mode, Hold.none]
  exact run_cons.mpr ⟨_, rfl, run_cons.mpr ⟨_, hwait, rfl⟩⟩

lemma readLocked_add_two (k : ℕ) :
    readLocked (k + 2) 0 = ⟨Int16.ofNat (k + 2), [], [], reader :: reader :: List.replicate k reader, []⟩ := by
  simp [readLocked, replicate_succ]

lemma run_forgotten {k : ℕ} (hk : Int16.ofNat (k + 2) = -32768) (hle : k + 2 ≤ 65535) :
    run step (init (k + 2)) ((List.range' 0 (k + 2)).map (·, .lock .read) ++ waitSignal) = .ok (forgotten k) := by
  rw [init_eq_readLocked]
  refine run_append.mpr ⟨_, run_readLocked (by omega), ?_⟩
  rw [Nat.zero_add, readLocked_add_two, hk]
  exact run_wait_signal (by decide) (by decide) (by decide) k

lemma not_noLostWakeup_forgotten (k : ℕ) : ¬ (forgotten k).NoLostWakeup := by
  intro h
  have hpcs : ∀ t ∈ (forgotten k).threads, t.pc = .sleeping .write ∨ t.pc = .idle := by
    intro t ht
    obtain rfl | ht := mem_cons.mp ht
    · exact .inl rfl
    · obtain rfl := (mem_cons.mp ht).elim id eq_of_mem_replicate
      exact .inr rfl
  obtain ⟨w, hw, hdone, -⟩ | ⟨t, ht, mode, hpc⟩ | ⟨t, ht, wakeRead, next, hpc⟩ :=
    h rfl ⟨_, mem_singleton_self _, rfl, rfl⟩
  · rw [mem_singleton.mp hw] at hdone
    cases hdone
  · obtain h | h := hpcs t ht <;> rw [h] at hpc <;> cases hpc
  · obtain h | h := hpcs t ht <;> rw [h] at hpc <;> cases hpc

end Optee.Locks
