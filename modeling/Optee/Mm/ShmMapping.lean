import Optee.Lib.Runs
import Optee.Lib.Threads
import Optee.TeeResult

/-! Mapping of a shared memory object into the core while threads need it. -/

namespace Optee.Mm.ShmMapping

open Lib List Threads

inductive Kind
  | regShm
  | ffa
  deriving DecidableEq

inductive Pc
  | idle
  /-- `refcount_inc` found the counter at zero, the lock is to be taken -/
  | incLock
  /-- `refcount_dec` brought the counter to zero, the lock is to be taken -/
  | decLock
  deriving DecidableEq

structure Thread where
  pc : Pc
  held : ℕ

structure Shm where
  mapcount : ℕ
  mm : Option ℕ
  live : List ℕ
  next : ℕ
  threads : List Thread

def Shm.init (n : ℕ) : Shm := ⟨0, none, [], 0, List.replicate n ⟨.idle, 0⟩⟩

inductive Act
  | refcountInc
  | incLocked (room pages : Bool)
  | refcountDec
  | decLocked
  deriving DecidableEq

namespace Shm

variable (kind : Kind) (s : Shm)

def move (t : ℕ) (thread : Thread) : Shm := { s with threads := s.threads.set t thread }

def incLocked (t : ℕ) (thread : Thread) (room pages : Bool) : TeeResult Shm :=
  -- another thread was faster: the call succeeds
  if s.mapcount ≠ 0 then .ok (s.move t ⟨.idle, thread.held + 1⟩)
  else if kind = .regShm ∧ s.mm ≠ none then .error .panic
  else if !room then .ok ({ s with mm := none }.move t ⟨.idle, thread.held⟩)
  else if !pages then .ok ({ s with mm := none, next := s.next + 1 }.move t ⟨.idle, thread.held⟩)
  else .ok ({ s with mapcount := 1, mm := some s.next, live := s.next :: s.live, next := s.next + 1 }.move t
    ⟨.idle, thread.held + 1⟩)

def unmapHelper : TeeResult Shm :=
  match s.mm with
  | none => if kind = .regShm then .error .panic else .ok s
  | some m => if m ∈ s.live then .ok { s with mm := none, live := s.live.erase m } else .error .panic

def decLocked (t : ℕ) (thread : Thread) : TeeResult Shm := do
  let s ← if kind = .ffa ∨ s.mapcount = 0 then s.unmapHelper kind else .ok s
  pure (s.move t { thread with pc := .idle })

def step (move : ℕ × Act) : TeeResult Shm :=
  match s.threads[move.1]? with
  | none => .ok s
  | some thread =>
    match thread.pc, move.2 with
    | .idle, .refcountInc =>
      if s.mapcount ≠ 0 then .ok ({ s with mapcount := s.mapcount + 1 }.move move.1 ⟨.idle, thread.held + 1⟩)
      else .ok (s.move move.1 ⟨.incLock, thread.held⟩)
    | .incLock, .incLocked room pages => s.incLocked kind move.1 thread room pages
    | .idle, .refcountDec =>
      if thread.held = 0 then .ok s
      else do
        assert (s.mapcount ≠ 0)
        pure ({ s with mapcount := s.mapcount - 1 }.move move.1
          ⟨if s.mapcount = 1 then .decLock else .idle, thread.held - 1⟩)
    | .decLock, .decLocked => s.decLocked kind move.1 thread
    | _, _ => .ok s

def holders : ℕ := (s.threads.map Thread.held).sum

structure Relied : Prop where
  mapped : ∀ thread ∈ s.threads, 0 < thread.held → ∃ m, s.mm = some m ∧ m ∈ s.live
  count : (∀ thread ∈ s.threads, thread.pc = .idle) → s.mapcount = s.holders
  noLeak : s.live = s.mm.toList

def Apart (move : ℕ × Act) : Prop :=
  move.2 = .refcountInc → s.mapcount = 0 → ∀ thread ∈ s.threads, thread.pc = .idle

instance (move : ℕ × Act) : Decidable (s.Apart move) := inferInstanceAs (Decidable (_ → _ → _))

inductive Phase (s : Shm) : Prop
  | quiet (idle : ∀ thread ∈ s.threads, thread.pc = .idle) (count : s.mapcount = s.holders)
      (mm : s.mm.isSome ↔ s.mapcount ≠ 0)
  | busy (t : ℕ) (thread : Thread) (here : s.threads[t]? = some thread)
      (others : ∀ u other, u ≠ t → s.threads[u]? = some other → other.pc = .idle)
      (count : s.mapcount = 0) (none : s.holders = 0)
      (mm : thread.pc = .incLock ∧ s.mm = .none ∨ thread.pc = .decLock ∧ s.mm.isSome)

structure Sound (s : Shm) : Prop where
  live : s.live = s.mm.toList
  phase : s.Phase

variable {kind s}

lemma holders_move (s' : Shm) {t : ℕ} {thread : Thread} (h : s.threads[t]? = some thread) (hsame : s'.threads = s.threads)
    (pc : Pc) (held : ℕ) : (s'.move t ⟨pc, held⟩).holders + thread.held = s.holders + held := by
  rw [move, hsame]
  exact sum_set Thread.held h ⟨pc, held⟩

lemma mem_move {t : ℕ} {new x : Thread} (h : x ∈ (s.move t new).threads) :
    x = new ∨ ∃ u ≠ t, s.threads[u]? = some x := by
  obtain ⟨u, hu⟩ := mem_iff_getElem?.mp h
  by_cases hut : u = t
  · subst hut
    rw [move, getElem?_set] at hu
    simp at hu
    exact .inl hu.2.symm
  · rw [move, set_other (Ne.symm hut)] at hu
    exact .inr ⟨u, hut, hu⟩

lemma idle_move {t : ℕ} {held : ℕ} (h : ∀ u other, u ≠ t → s.threads[u]? = some other → other.pc = .idle) :
    ∀ x ∈ (s.move t ⟨.idle, held⟩).threads, x.pc = .idle := by
  intro x hx
  rcases mem_move hx with rfl | ⟨u, hut, hu⟩
  · rfl
  · exact h u x hut hu

lemma Sound.leave {t : ℕ} {thread new : Thread} (hidle : ∀ x ∈ s.threads, x.pc = .idle) (hlive : s.live = s.mm.toList)
    (h : s.threads[t]? = some thread) (hcount : s.mapcount = 0) (hnone : (s.move t new).holders = 0)
    (hmm : new.pc = .incLock ∧ s.mm = none ∨ new.pc = .decLock ∧ s.mm.isSome) : (s.move t new).Sound := by
  refine ⟨hlive, .busy t new (set_self h) (fun u other hut hu => ?_) hcount hnone hmm⟩
  rw [move, set_other (Ne.symm hut)] at hu
  exact hidle other (mem_of_getElem? hu)

lemma Sound.relied (h : s.Sound) : s.Relied := by
  obtain ⟨hlive, hphase⟩ := h
  refine ⟨fun thread hmem hheld => ?_, fun hidle => ?_, hlive⟩
  · have hle := le_sum Thread.held hmem
    cases hphase with
    | busy t x here others count none mm =>
      have : s.holders = 0 := none
      unfold holders at this
      omega
    | quiet idle count mm =>
      have hne : s.mapcount ≠ 0 := by
        rw [count]
        unfold holders
        omega
      obtain ⟨m, hm⟩ := Option.isSome_iff_exists.mp (mm.mpr hne)
      exact ⟨m, hm, by rw [hlive, hm]; exact mem_singleton_self m⟩
  · cases hphase with
    | quiet idle count mm => exact count
    | busy t x here others count none mm =>
      have hx := hidle x (mem_of_getElem? here)
      rcases mm with ⟨hpc, -⟩ | ⟨hpc, -⟩ <;> rw [hpc] at hx <;> cases hx

lemma sound_init (n : ℕ) : (Shm.init n).Sound := by
  refine ⟨rfl, .quiet (fun thread hmem => ?_) ?_ (by simp [init])⟩
  · rw [eq_of_mem_replicate hmem]
  · simp [init, holders]

lemma Sound.counted (h : s.Sound) (hcount : s.mapcount ≠ 0) :
    (∀ x ∈ s.threads, x.pc = .idle) ∧ s.mapcount = s.holders ∧ s.mm.isSome := by
  cases h.phase with
  | quiet idle count mm => exact ⟨idle, count, mm.mpr hcount⟩
  | busy t' x here others count none mm => exact absurd count hcount

section Moves

variable {t : ℕ} {thread : Thread} (h : s.Sound) (hthread : s.threads[t]? = some thread)
include h hthread

lemma Sound.alone (hpc : thread.pc ≠ .idle) :
    (∀ u other, u ≠ t → s.threads[u]? = some other → other.pc = .idle) ∧ s.mapcount = 0 ∧ s.holders = 0 ∧
      (thread.pc = .incLock ∧ s.mm = none ∨ thread.pc = .decLock ∧ s.mm.isSome) := by
  cases h.phase with
  | quiet idle count mm => exact absurd (idle thread (mem_of_getElem? hthread)) hpc
  | busy t' x here others count none mm =>
    obtain rfl : t = t' := by
      by_contra hne
      exact hpc (others t thread hne hthread)
    rw [hthread] at here
    cases here
    exact ⟨others, count, none, mm⟩

lemma refcountInc_sound (hpc : thread.pc = .idle) (hapart : s.Apart (t, .refcountInc)) :
    ∃ s', s.step kind (t, .refcountInc) = .ok s' ∧ s'.Sound := by
  simp only [step, hthread, hpc]
  by_cases hcount : s.mapcount = 0
  · rw [if_neg (not_not.mpr hcount)]
    have hidle := hapart rfl hcount
    refine ⟨_, rfl, .leave hidle h.live hthread hcount ?_ (.inl ⟨rfl, ?_⟩)⟩
    · have hsum := holders_move s hthread rfl .incLock thread.held
      cases h.phase with
      | quiet idle count mm | busy t' x here others count none mm => omega
    · cases h.phase with
      | quiet idle count mm => simpa [hcount] using mm
      | busy t' x here others count none mm =>
        have hx := hidle x (mem_of_getElem? here)
        rcases mm with ⟨hpc, -⟩ | ⟨hpc, -⟩ <;> rw [hpc] at hx <;> cases hx
  · rw [if_pos hcount]
    obtain ⟨hidle, hsum, hmm⟩ := h.counted hcount
    refine ⟨_, rfl, h.live, .quiet (idle_move fun u other _ hu => hidle other (mem_of_getElem? hu)) ?_ ?_⟩
    · have hsum' := holders_move { s with mapcount := s.mapcount + 1 } hthread rfl .idle (thread.held + 1)
      simp only [move] at hsum' ⊢
      omega
    · exact iff_of_true hmm (Nat.succ_ne_zero _)

lemma incLocked_sound {room pages : Bool} (hpc : thread.pc = .incLock) :
    ∃ s', s.step kind (t, .incLocked room pages) = .ok s' ∧ s'.Sound := by
  obtain ⟨hothers, hcount, hnone, hmm⟩ := h.alone hthread (by rw [hpc]; decide)
  have hmm : s.mm = none := by
    rcases hmm with ⟨-, hmm⟩ | ⟨hdec, -⟩
    · exact hmm
    · rw [hpc] at hdec
      cases hdec
  have hlive : s.live = [] := by rw [h.live, hmm]; rfl
  simp only [step, hthread, hpc, incLocked]
  rw [if_neg (not_not.mpr hcount), if_neg (fun hbad => hbad.2 hmm)]
  split_ifs
  · have hsum := holders_move { s with mm := none } hthread rfl .idle thread.held
    refine ⟨_, rfl, hlive, .quiet (idle_move hothers) ?_ ?_⟩
    · simp only [move] at hsum ⊢
      omega
    · simp [move, hcount]
  · have hsum := holders_move { s with mm := none, next := s.next + 1 } hthread rfl .idle thread.held
    refine ⟨_, rfl, hlive, .quiet (idle_move hothers) ?_ ?_⟩
    · simp only [move] at hsum ⊢
      omega
    · simp [move, hcount]
  · have hsum := holders_move
      { s with mapcount := 1, mm := some s.next, live := s.next :: s.live, next := s.next + 1 }
      hthread rfl .idle (thread.held + 1)
    refine ⟨_, rfl, by simp [move, hlive], .quiet (idle_move hothers) ?_ ?_⟩
    · simp only [move] at hsum ⊢
      omega
    · simp [move]

lemma refcountDec_sound (hpc : thread.pc = .idle) : ∃ s', s.step kind (t, .refcountDec) = .ok s' ∧ s'.Sound := by
  simp only [step, hthread, hpc]
  by_cases hheld : thread.held = 0
  · rw [if_pos hheld]
    exact ⟨s, rfl, h⟩
  rw [if_neg hheld]
  have hle := le_sum Thread.held (mem_of_getElem? hthread)
  have hcount : s.mapcount ≠ 0 := by
    cases h.phase with
    | quiet idle count mm => unfold holders at count; omega
    | busy t' x here others count none mm => unfold holders at none; omega
  obtain ⟨hidle, hsum, hmm⟩ := h.counted hcount
  rw [TeeResult.assert_of hcount]
  refine ⟨_, rfl, ?_⟩
  have hsum' := fun pc => holders_move { s with mapcount := s.mapcount - 1 } hthread rfl pc (thread.held - 1)
  split_ifs with hone
  · refine .leave hidle h.live hthread (by simp [hone]) ?_ (.inr ⟨rfl, hmm⟩)
    have := hsum' .decLock
    omega
  · refine ⟨h.live, .quiet (idle_move fun u other _ hu => hidle other (mem_of_getElem? hu)) ?_ ?_⟩
    · have := hsum' .idle
      simp only [move] at this ⊢
      omega
    · exact iff_of_true hmm (by simp only [move]; omega)

lemma decLocked_sound (hpc : thread.pc = .decLock) : ∃ s', s.step kind (t, .decLocked) = .ok s' ∧ s'.Sound := by
  obtain ⟨hothers, hcount, hnone, hmm⟩ := h.alone hthread (by rw [hpc]; decide)
  have hmm : s.mm.isSome := by
    rcases hmm with ⟨hinc, -⟩ | ⟨-, hmm⟩
    · rw [hpc] at hinc
      cases hinc
    · exact hmm
  obtain ⟨m, hm⟩ := Option.isSome_iff_exists.mp hmm
  have hlive : s.live = [m] := by rw [h.live, hm]; rfl
  simp only [step, hthread, hpc, decLocked, unmapHelper, hm, hlive]
  rw [if_pos (.inr hcount), if_pos (mem_singleton_self m)]
  refine ⟨_, rfl, by simp [move], .quiet (idle_move hothers) ?_ ?_⟩
  · have hsum := holders_move { s with mm := none, live := [m].erase m } hthread rfl .idle thread.held
    simp only [move] at hsum ⊢
    omega
  · simp [move, hcount]

end Moves

lemma Sound.step {move : ℕ × Act} (h : s.Sound) (hapart : s.Apart move) : ∃ s', s.step kind move = .ok s' ∧ s'.Sound := by
  obtain ⟨t, act⟩ := move
  cases hthread : s.threads[t]? with
  | none => exact ⟨s, by simp [Shm.step, hthread], h⟩
  | some thread =>
    cases hpc : thread.pc with
    | idle =>
      cases act with
      | refcountInc => exact refcountInc_sound h hthread hpc hapart
      | refcountDec => exact refcountDec_sound h hthread hpc
      | incLocked room pages | decLocked => exact ⟨s, by simp [Shm.step, hthread, hpc], h⟩
    | incLock =>
      cases act with
      | incLocked room pages => exact incLocked_sound h hthread hpc
      | refcountInc | refcountDec | decLocked => exact ⟨s, by simp [Shm.step, hthread, hpc], h⟩
    | decLock =>
      cases act with
      | decLocked => exact decLocked_sound h hthread hpc
      | refcountInc | refcountDec | incLocked room pages => exact ⟨s, by simp [Shm.step, hthread, hpc], h⟩

end Shm

theorem mapping_relied_on (kind : Kind) (n : ℕ) (moves : List (ℕ × Act))
    (hapart : Runs.Along (Shm.step kind) Shm.Apart (Shm.init n) moves) :
    ∃ s, Runs.run (Shm.step kind) (Shm.init n) moves = .ok s ∧ s.Relied := by
  obtain ⟨s, hs, hsound⟩ := hapart.completes (Shm.sound_init n) fun s move h hm => h.step hm
  exact ⟨s, hs, hsound.relied⟩

def toyUsers : List (ℕ × Act) :=
  [(0, .refcountInc), (0, .incLocked true true), (1, .refcountInc), (0, .refcountDec), (1, .refcountDec), (1, .decLocked)]

theorem mapping_relied_on_twice :
    ∃ s, Runs.run (Shm.step .regShm) (Shm.init 2) toyUsers = .ok s ∧ s.Relied :=
  mapping_relied_on .regShm 2 toyUsers (by decide)

def firstUsers : List (ℕ × Act) :=
  [(0, .refcountInc), (1, .refcountInc), (0, .incLocked true true), (1, .incLocked true true), (0, .refcountDec),
    (0, .decLocked)]

def lastAndFirst : List (ℕ × Act) :=
  [(0, .refcountInc), (0, .incLocked true true), (0, .refcountDec), (1, .refcountInc), (1, .incLocked true true)]

theorem first_users_unmapped :
    (Runs.run (Shm.step .regShm) (Shm.init 2) firstUsers).toOption.map (fun s => (s.mm, s.threads.map Thread.held)) =
      some (none, [0, 1]) ∧
    (Runs.run (Shm.step .ffa) (Shm.init 2) firstUsers).toOption.map (fun s => (s.mm, s.threads.map Thread.held)) =
      some (none, [0, 1]) ∧
    (Runs.run (Shm.step .regShm) (Shm.init 2) lastAndFirst).toOption = none := by
  decide

end Optee.Mm.ShmMapping
