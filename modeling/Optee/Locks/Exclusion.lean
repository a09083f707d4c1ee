import Optee.Lib.Runs
import Optee.Lib.Threads
import Optee.Locks.Mutex

/-! The state of the mutex counts its holders, as long as the count of readers fits in its type. -/

namespace Optee.Locks

open Lib.Runs Lib.Threads List

lemma toInt_add_one {a : Int16} (h : a.toInt < 32767) : (a + 1).toInt = a.toInt + 1 := by
  have := a.le_toInt
  rw [Int16.toInt_add, Int16.toInt_one, Int.bmod_def]
  split <;> omega

lemma toInt_sub_one {a : Int16} (h : 0 < a.toInt) : (a - 1).toInt = a.toInt - 1 := by
  have := a.toInt_lt
  rw [Int16.toInt_sub, Int16.toInt_one, Int.bmod_def]
  split <;> omega

def Mutex.readers (m : Mutex) : ℕ := (m.threads.map (·.hold.reads)).sum

def Mutex.writers (m : Mutex) : ℕ := (m.threads.map (·.hold.writes)).sum

def Thread.Returns (t : Thread) (mode : Mode) : Prop := ∀ h ∈ t.before, t.hold.add mode = h

def Thread.Sound (t : Thread) : Prop :=
  match t.pc with
  | .idle | .waking _ none => t.before = none
  | .linked _ | .promoting _ _ => t.before = none ∧ t.hold ≠ .none
  | .waking _ (some mode) | .sleeping mode | .retry mode => t.Returns mode

structure Mutex.Sound (m : Mutex) : Prop where
  count : m.state = -1 ∧ m.writers = 1 ∧ m.readers = 0 ∨ m.state.toInt = m.readers ∧ m.writers = 0
  thread : ∀ (i : ℕ) (t : Thread), m.threads[i]? = some t → t.Sound
  waits : ∀ p ∈ m.waits, p.1 = p.2

section Sums

variable {m m' : Mutex} {i : ℕ} {t t' : Thread}

lemma writes_le_writers (ht : m.threads[i]? = some t) : t.hold.writes ≤ m.writers :=
  le_sum (·.hold.writes) (mem_of_getElem? ht)

lemma sound_set (h : m.Sound) (ht : m.threads[i]? = some t) (hthreads : m'.threads = m.threads.set i t')
    (ht' : t'.Sound) : ∀ (j : ℕ) (u : Thread), m'.threads[j]? = some u → u.Sound := by
  intro j u hu
  rw [hthreads] at hu
  obtain ⟨-, rfl⟩ | ⟨-, hu⟩ := set_cases ht hu
  · exact ht'
  · exact h.thread j u hu

end Sums

namespace Mutex.Sound

variable {m m' : Mutex} {i : ℕ} {t t' : Thread} {mode : Mode}

section

variable (h : m.Sound) (ht : m.threads[i]? = some t)
include h ht

lemma change (hthreads : m'.threads = m.threads.set i t')
    (hwaits : ∀ p ∈ m'.waits, p.1 = p.2) (ht' : t'.Sound)
    (hcount : ∀ r w, r + t.hold.reads = m.readers + t'.hold.reads → w + t.hold.writes = m.writers + t'.hold.writes →
      m'.state = -1 ∧ w = 1 ∧ r = 0 ∨ m'.state.toInt = r ∧ w = 0) : m'.Sound :=
  ⟨hcount _ _ (by rw [Mutex.readers, hthreads]; exact sum_set (·.hold.reads) ht t')
    (by rw [Mutex.writers, hthreads]; exact sum_set (·.hold.writes) ht t'), sound_set h ht hthreads ht', hwaits⟩

lemma move (hthreads : m'.threads = m.threads.set i t')
    (hstate : m'.state = m.state) (hwaits : m'.waits = m.waits) (hhold : t'.hold = t.hold) (ht' : t'.Sound) :
    m'.Sound := by
  refine h.change ht hthreads (hwaits ▸ h.waits) ht' fun r w hr hw => ?_
  rw [hhold] at hr hw
  rw [hstate, Nat.add_right_cancel hr, Nat.add_right_cancel hw]
  exact h.count

lemma take (hcan : canLock m.state mode)
    (hbound : mode = .read → m.readers < 32767) (hreturns : t.Returns mode) : (m.take i t mode).Sound := by
  refine h.change ht rfl ?_ rfl fun r w hr hw => ?_
  · intro p hp
    obtain hp | hp := mem_append.mp hp
    · obtain ⟨hold, hbefore, rfl⟩ := Option.map_eq_some_iff.mp (Option.mem_toList.mp hp)
      exact (hreturns hold hbefore).symm
    · exact h.waits p hp
  · cases mode with
    | read =>
      have hne : m.state ≠ -1 := of_decide_eq_true hcan
      obtain ⟨hs, -⟩ | ⟨hs, hwriters⟩ := h.count
      · exact absurd hs hne
      have hlt := hbound rfl
      have hstate : (m.take i t .read).state.toInt = m.state.toInt + 1 := toInt_add_one (by omega)
      simp only [Hold.add] at hr hw
      omega
    | write =>
      have h0 : m.state = 0 := of_decide_eq_true hcan
      obtain ⟨hs, -⟩ | ⟨hs, hwriters⟩ := h.count
      · rw [h0] at hs
        cases hs
      · left
        rw [h0, Int16.toInt_zero] at hs
        simp only [Hold.add] at hr hw
        exact ⟨rfl, by omega, by omega⟩

lemma lock (hbound : mode = .read → m.readers < 32767) (hreturns : t.Returns mode) : (m.lock i t mode).Sound := by
  rw [Mutex.lock]
  split
  · next hcan => exact h.take ht hcan hbound hreturns
  · exact h.move ht rfl rfl rfl rfl hreturns

lemma trylock (hbound : mode = .read → m.readers < 32767) (hreturns : t.Returns mode) : (m.trylock i t mode).Sound := by
  rw [Mutex.trylock]
  split
  · next hcan => exact h.take ht hcan hbound hreturns
  · exact h

lemma unlock (hidle : t.before = none) (hold : t.hold.writes ≠ 0) : ∃ m', m.unlock i t = .ok m' ∧ m'.Sound := by
  have hle := writes_le_writers ht
  obtain ⟨hs, hwriters, hreaders⟩ | ⟨-, hwriters⟩ := h.count
  · rw [Mutex.unlock, if_neg (by rw [hs]; decide)]
    refine ⟨_, rfl, h.change ht rfl h.waits hidle fun r w hr hw => .inr ?_⟩
    simp only [Hold.sub] at hr hw
    rw [Int16.toInt_zero]
    omega
  · omega

lemma holder (hold : t.hold ≠ .none) :
    m.state = -1 ∧ t.hold = ⟨0, 1⟩ ∧ m.writers = 1 ∧ m.readers = 0 ∨
      m.state.toInt = m.readers ∧ 0 < t.hold.reads ∧ t.hold.reads ≤ m.readers ∧ t.hold.writes = 0 ∧ m.writers = 0 := by
  have hr : t.hold.reads ≤ m.readers := le_sum (·.hold.reads) (mem_of_getElem? ht)
  have hw := writes_le_writers ht
  have hne : t.hold.reads ≠ 0 ∨ t.hold.writes ≠ 0 := by
    by_contra hnot
    obtain ⟨h0, h1⟩ := not_or.mp hnot
    exact hold (Hold.ext (not_not.mp h0) (not_not.mp h1))
  obtain ⟨hs, hwriters, hreaders⟩ | ⟨hs, hwriters⟩ := h.count
  · exact .inl ⟨hs, Hold.ext (show _ = 0 by omega) (show _ = 1 by omega), hwriters, hreaders⟩
  · exact .inr ⟨hs, by omega, hr, by omega, hwriters⟩

lemma readUnlock (hidle : t.before = none) (hold : t.hold.reads ≠ 0) : ∃ m', m.readUnlock i t = .ok m' ∧ m'.Sound := by
  obtain ⟨-, he, -⟩ | ⟨hs, hpos, hle, -, hwriters⟩ := h.holder ht fun he => hold (by rw [he]; rfl)
  · rw [he] at hold
    exact absurd rfl hold
  have hgt : ¬ m.state ≤ 0 := by
    rw [Int16.le_iff_toInt_le, Int16.toInt_zero]
    omega
  have hstate : (m.state - 1).toInt = m.state.toInt - 1 := toInt_sub_one (by omega)
  rw [Mutex.readUnlock, if_neg hgt]
  refine ⟨_, rfl, h.change ht rfl h.waits ?_ fun r w hr hw => .inr ?_⟩
  · split <;> exact hidle
  · simp only [Hold.sub] at hr hw
    show (m.state - 1).toInt = r ∧ w = 0
    omega

end

lemma sound_wait {n : Int16} {hold : Hold} {before : Option Hold}
    (h : Thread.Returns ⟨.sleeping mode, hold, before⟩ mode) :
    Thread.Sound ⟨if n = 0 then .waking false (some mode) else .sleeping mode, hold, before⟩ := by
  split <;> exact h

section

variable (ht : m.threads[i]? = some t)
include ht

lemma condvarWait (h : m.Sound) {cv : ℕ} (hold : t.hold ≠ .none) :
    ∃ m', m.condvarWait i t cv = .ok m' ∧ m'.Sound := by
  obtain ⟨hs, he, hwriters, hreaders⟩ | ⟨hs, hpos, hle, hw0, hwriters⟩ := h.holder ht hold
  · rw [Mutex.condvarWait, if_neg (by rw [hs]; decide)]
    simp only [if_neg (show ¬ m.state > 0 by rw [hs]; decide), if_neg (show ¬ m.state > 1 by rw [hs]; decide), if_true]
    refine ⟨_, rfl, h.change ht rfl h.waits ?_ fun r w hr hw => .inr ?_⟩
    · rintro hold' ⟨⟩
      rw [he]
      rfl
    · rw [he] at hr hw
      have hr : r + 0 = m.readers + 0 := hr
      have hw : w + 1 = m.writers + 0 := hw
      rw [Int16.toInt_zero]
      omega
  · have hgt : m.state > 0 := by
      rw [gt_iff_lt, Int16.lt_iff_toInt_lt, Int16.toInt_zero]
      omega
    have hstate : (if m.state > 1 then m.state - 1 else 0).toInt = m.state.toInt - 1 := by
      split
      · exact toInt_sub_one (by omega)
      · next hle =>
        rw [gt_iff_lt, Int16.lt_iff_toInt_lt, Int16.toInt_one] at hle
        rw [Int16.toInt_zero]
        omega
    have hmode : t.hold.mode = .read := if_pos hw0
    rw [Mutex.condvarWait, if_neg (by rintro he; rw [he] at hgt; cases hgt)]
    simp only [if_pos hgt, hmode]
    refine ⟨_, rfl, h.change ht rfl h.waits ?_ fun r w hr hw => .inr ?_⟩
    · refine sound_wait ?_
      rintro hold' ⟨⟩
      exact Hold.ext (Nat.sub_add_cancel hpos) rfl
    · simp only [Hold.sub] at hr hw
      show (if m.state > 1 then m.state - 1 else 0).toInt = r ∧ w = 0
      omega

lemma wake (h : m.Sound) {wakeRead : Bool} {next : Option Mode}
    (hpc : t.pc = .waking wakeRead next) : (m.wake i t wakeRead next).Sound := by
  have hsound := h.thread i t ht
  rw [Thread.Sound, hpc] at hsound
  have hafter : Thread.Sound { t with pc := Mutex.afterWake next } := by
    cases next <;> exact hsound
  have hwaking : Thread.Sound { t with pc := .waking true next } := by
    cases next <;> exact hsound
  rw [Mutex.wake]
  split
  · exact h.move ht rfl rfl rfl rfl hafter
  · exact h.move ht rfl rfl rfl rfl hwaking
  · exact h.move ht rfl rfl rfl rfl hafter

lemma waitFinal (h : m.Sound) (hreturns : t.Returns mode) :
    (m.waitFinal i t mode).Sound := by
  rw [Mutex.waitFinal]
  split
  · split
    · exact h.move ht rfl rfl rfl rfl hreturns
    · exact h
  · exact h

end

end Mutex.Sound

def TriesRead (m : Mutex) (e : ℕ × Action) : Prop :=
  ∃ t ∈ m.threads[e.1]?, t.pc = .idle ∧ (e.2 = .lock .read ∨ e.2 = .trylock .read) ∨ t.pc = .retry .read ∧ e.2 = .go

def NoOverflow (m : Mutex) (e : ℕ × Action) : Prop := TriesRead m e → m.readers < 32767

instance (m : Mutex) (e : ℕ × Action) : Decidable (NoOverflow m e) := by
  unfold NoOverflow TriesRead
  infer_instance

namespace Mutex.Sound

variable {m : Mutex} {i : ℕ} {t : Thread}

lemma call (h : m.Sound) (ht : m.threads[i]? = some t) (hpc : t.pc = .idle) {a : Action} (hno : NoOverflow m (i, a)) :
    ∃ m', call m i t a = .ok m' ∧ m'.Sound := by
  have hidle : t.before = none := by simpa only [Thread.Sound, hpc] using h.thread i t ht
  have hreturns : ∀ mode, t.Returns mode := fun mode hold hbefore => by rw [hidle] at hbefore; cases hbefore
  cases a with
  | lock mode =>
    refine ⟨_, rfl, h.lock ht ?_ (hreturns mode)⟩
    rintro rfl
    exact hno ⟨t, ht, .inl ⟨hpc, .inl rfl⟩⟩
  | trylock mode =>
    refine ⟨_, rfl, h.trylock ht ?_ (hreturns mode)⟩
    rintro rfl
    exact hno ⟨t, ht, .inl ⟨hpc, .inr rfl⟩⟩
  | unlock mode =>
    cases mode with
    | write =>
      rw [Locks.call]
      split
      · exact ⟨m, rfl, h⟩
      · next hold => exact h.unlock ht hidle hold
    | read =>
      rw [Locks.call]
      split
      · exact ⟨m, rfl, h⟩
      · next hold => exact h.readUnlock ht hidle hold
  | condvarWait cv =>
    rw [Locks.call]
    split
    · exact ⟨m, rfl, h⟩
    · next hold => exact ⟨_, rfl, h.move ht rfl rfl rfl rfl ⟨hidle, hold⟩⟩
  | condvarSignal cv onlyOne =>
    rw [Locks.call]
    split
    · next hold => exact ⟨_, rfl, h.move ht rfl rfl rfl rfl ⟨hidle, hold.1⟩⟩
    · exact ⟨m, rfl, h⟩
  | go => exact ⟨m, rfl, h⟩

lemma goOn (h : m.Sound) (ht : m.threads[i]? = some t) (hno : NoOverflow m (i, .go)) :
    ∃ m', goOn m i t = .ok m' ∧ m'.Sound := by
  have hsound := h.thread i t ht
  rw [Thread.Sound] at hsound
  rw [Locks.goOn]
  cases hpc : t.pc with
  | idle => exact ⟨m, rfl, h⟩
  | linked cv =>
    rw [hpc] at hsound
    exact h.condvarWait ht hsound.2
  | promoting cv onlyOne =>
    rw [hpc] at hsound
    exact ⟨_, rfl, h.move ht rfl rfl rfl rfl hsound.1⟩
  | waking wakeRead next => exact ⟨_, rfl, h.wake ht hpc⟩
  | sleeping mode =>
    rw [hpc] at hsound
    exact ⟨_, rfl, h.waitFinal ht hsound⟩
  | retry mode =>
    rw [hpc] at hsound
    refine ⟨_, rfl, h.lock ht ?_ hsound⟩
    rintro rfl
    exact hno ⟨t, ht, .inr ⟨hpc, rfl⟩⟩

lemma step (h : m.Sound) (e : ℕ × Action) (hno : NoOverflow m e) : ∃ m', step m e = .ok m' ∧ m'.Sound := by
  obtain ⟨i, a⟩ := e
  rw [Locks.step]
  cases ht : m.threads[i]? with
  | none => exact ⟨m, rfl, h⟩
  | some t =>
    dsimp only
    split
    · next hpc => exact h.call ht hpc hno
    split
    · next ha =>
      subst ha
      exact h.goOn ht hno
    · exact ⟨m, rfl, h⟩

end Mutex.Sound

lemma sound_init (n : ℕ) : (init n).Sound := by
  refine ⟨.inr ?_, ?_, nofun⟩
  · simp [Mutex.readers, Mutex.writers, init, Hold.none]
  · intro i t ht
    rw [eq_of_mem_replicate (mem_of_getElem? ht)]
    rfl

structure Exact (m : Mutex) : Prop where
  write : m.state = -1 ↔ m.writers = 1 ∧ m.readers = 0
  read : ∀ n : ℕ, 0 < n → (m.state.toInt = n ↔ m.readers = n ∧ m.writers = 0)
  free : m.state = 0 ↔ m.readers = 0 ∧ m.writers = 0

lemma Mutex.Sound.exact {m : Mutex} (h : m.Sound) : Exact m := by
  have hneg : m.state = -1 ↔ m.state.toInt = -1 := Int16.toInt_inj.symm
  have hzero : m.state = 0 ↔ m.state.toInt = 0 := Int16.toInt_inj.symm
  have hcount := h.count
  rw [hneg] at hcount
  refine ⟨?_, fun n hn => ?_, ?_⟩
  · rw [hneg]
    omega
  · omega
  · rw [hzero]
    omega

section Overflow

def reader : Thread := ⟨.idle, ⟨1, 0⟩, none⟩

def stranger : Thread := ⟨.idle, .none, none⟩

def readLocked (k j : ℕ) : Mutex :=
  ⟨Int16.ofNat k, [], [], List.replicate k reader ++ List.replicate j stranger, []⟩

lemma init_eq_readLocked (n : ℕ) : init n = readLocked 0 n := rfl

lemma readers_readLocked (k : ℕ) : (readLocked k 0).readers = k := by simp [Mutex.readers, readLocked, reader]

lemma writers_readLocked (k : ℕ) : (readLocked k 0).writers = 0 := by simp [Mutex.writers, readLocked, reader]

variable {k : ℕ}

lemma ofNat_ne_neg_one (hk : k < 65535) : Int16.ofNat k ≠ -1 := by
  intro h
  have h := congrArg Int16.toInt h
  rw [Int16.toInt_ofNat', show Int16.size = 65536 from rfl, Int.bmod_def, show (-1 : Int16).toInt = -1 from rfl] at h
  split at h <;> omega

lemma step_readLocked {j : ℕ} (hk : k < 65535) :
    step (readLocked k (j + 1)) (k, .lock .read) = .ok (readLocked (k + 1) j) := by
  have hget : (readLocked k (j + 1)).threads[k]? = some stranger := by simp [readLocked]
  have hset : (readLocked k (j + 1)).threads.set k reader = (readLocked (k + 1) j).threads := by
    rw [readLocked, readLocked, replicate_succ' (n := k), replicate_succ]
    simp
  have hcan : canLock (readLocked k (j + 1)).state .read := decide_eq_true (ofNat_ne_neg_one hk)
  have hstate : locked (readLocked k (j + 1)).state .read = (readLocked (k + 1) j).state :=
    (Int16.ofNat_add k 1).symm
  calc step (readLocked k (j + 1)) (k, .lock .read)
    _ = .ok ((readLocked k (j + 1)).lock k stranger .read) := by
      simp only [step, hget]
      rfl
    _ = .ok ((readLocked k (j + 1)).take k stranger .read) := by rw [Mutex.lock, if_pos hcan]
    _ = .ok (readLocked (k + 1) j) := by
      rw [Mutex.take, hstate]
      exact congrArg (fun threads => Except.ok (Mutex.mk (Int16.ofNat (k + 1)) [] [] threads [])) hset

lemma run_readLocked {j : ℕ} (h : k + j ≤ 65535) :
    run step (readLocked k j) ((List.range' k j).map (·, .lock .read)) = .ok (readLocked (k + j) 0) := by
  induction j generalizing k with
  | zero => rfl
  | succ j ih =>
    refine run_cons.mpr ⟨_, step_readLocked (by omega), ?_⟩
    rw [ih (by omega), Nat.add_right_comm, Nat.add_assoc]

end Overflow

end Optee.Locks
