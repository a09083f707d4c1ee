import Mathlib.Algebra.Group.Nat.Defs
import Mathlib.Tactic.Common

/-! When a command is cancelled for lack of time. -/

namespace Optee.Ta.Timeout

structure TeeTime where
  seconds : UInt32
  millis : UInt32

structure Session where
  cancel : Bool
  cancelMask : Bool
  cancelTime : TeeTime

def timeoutInfinite : UInt32 := 0xFFFFFFFF

def infinite : TeeTime := ⟨0xFFFFFFFF, 0xFFFFFFFF⟩

def cancelTime (now : TeeTime) (cancelReqTo : UInt32) : TeeTime :=
  if 2 ^ 32 ≤ now.seconds.toNat + (cancelReqTo / 1000).toNat then infinite
  else
    let millis := now.millis + cancelReqTo % 1000
    if millis > 1000 then
      -- The seconds of the timeout are overwritten here, and the carry is added twice.
      if 2 ^ 32 ≤ now.seconds.toNat + 1 then infinite else ⟨now.seconds + 1 + 1, millis - 1000⟩
    else ⟨now.seconds + cancelReqTo / 1000, millis⟩

def setInvokeTimeout (sess : Session) (sysTime : Option TeeTime) (cancelReqTo : UInt32) : Session :=
  { sess with
    cancelTime :=
      if cancelReqTo = timeoutInfinite then infinite else sysTime.elim infinite (cancelTime · cancelReqTo) }

def sessionIsCancelled (s : Session) (currTime sysTime : Option TeeTime) : Bool :=
  if s.cancelMask then false
  else if s.cancel then true
  else if s.cancelTime.seconds = 0xFFFFFFFF then false
  else
    match currTime.or sysTime with
    | none => false
    | some now =>
      now.seconds > s.cancelTime.seconds || now.seconds = s.cancelTime.seconds && now.millis ≥ s.cancelTime.millis

def TeeTime.toMillis (t : TeeTime) : ℕ := 1000 * t.seconds.toNat + t.millis.toNat

/-- The time stored is `timeout` milliseconds after `now`, and from then on, but not before, the session is cancelled. -/
def Session.Times (s : Session) (now : TeeTime) (timeout : ℕ) : Prop :=
  s.cancelTime.millis < 1000 ∧ s.cancelTime.toMillis = now.toMillis + timeout ∧
    ∀ currTime sysTime later, currTime.or sysTime = some later → later.millis < 1000 → now.toMillis ≤ later.toMillis →
      (sessionIsCancelled s currTime sysTime = true ↔ now.toMillis + timeout ≤ later.toMillis)

variable {now : TeeTime} {cancelReqTo : UInt32}

lemma toNat_thousand : (1000 : UInt32).toNat = 1000 := rfl

lemma cancelTime_cases (hnow : now.millis < 1000) (hfits : now.toMillis + cancelReqTo.toNat < 2 ^ 32 * 1000) :
    let millis := now.millis.toNat + cancelReqTo.toNat % 1000
    let time := cancelTime now cancelReqTo
    (millis ≤ 1000 ∧ time.seconds.toNat = now.seconds.toNat + cancelReqTo.toNat / 1000 ∧ time.millis.toNat = millis) ∨
      1000 < millis ∧ time.seconds.toNat = (now.seconds.toNat + 2) % 2 ^ 32 ∧ time.millis.toNat = millis - 1000 := by
  rw [UInt32.lt_iff_toNat_lt, toNat_thousand] at hnow
  have hmillis : (now.millis + cancelReqTo % 1000).toNat = now.millis.toNat + cancelReqTo.toNat % 1000 := by
    rw [UInt32.toNat_add, UInt32.toNat_mod, toNat_thousand]
    omega
  rw [TeeTime.toMillis] at hfits
  rw [cancelTime, if_neg (by rw [UInt32.toNat_div, toNat_thousand]; omega)]
  simp only [gt_iff_lt, UInt32.lt_iff_toNat_lt, hmillis, toNat_thousand]
  split
  · next hcarry =>
    rw [if_neg (by omega)]
    refine .inr ⟨hcarry, ?_, ?_⟩
    · rw [UInt32.toNat_add, UInt32.toNat_add, UInt32.toNat_one]
      omega
    · rw [UInt32.toNat_sub, toNat_thousand]
      omega
  · next hcarry =>
    refine .inl ⟨Nat.le_of_not_lt hcarry, ?_, hmillis⟩
    rw [UInt32.toNat_add, UInt32.toNat_div, toNat_thousand]
    omega

lemma sessionIsCancelled_iff {currTime sysTime : Option TeeTime} {time later : TeeTime}
    (hlater : currTime.or sysTime = some later) :
    sessionIsCancelled ⟨false, false, time⟩ currTime sysTime = true ↔ time.seconds.toNat ≠ 2 ^ 32 - 1 ∧
      (time.seconds.toNat < later.seconds.toNat ∨
        later.seconds.toNat = time.seconds.toNat ∧ time.millis.toNat ≤ later.millis.toNat) := by
  simp [sessionIsCancelled, hlater, ← UInt32.toNat_inj, UInt32.lt_iff_toNat_lt, UInt32.le_iff_toNat_le]

theorem timeout_exact_iff (sess : Session) (now : TeeTime) (cancelReqTo : UInt32) (hmask : sess.cancelMask = false)
    (hcancel : sess.cancel = false) (hnow : now.millis < 1000) (hfinite : cancelReqTo ≠ timeoutInfinite)
    (hfits : now.toMillis + cancelReqTo.toNat < 2 ^ 32 * 1000) :
    (setInvokeTimeout sess (some now) cancelReqTo).Times now cancelReqTo.toNat ↔
    (now.millis.toNat + cancelReqTo.toNat % 1000 < 1000 ∨
      1000 < now.millis.toNat + cancelReqTo.toNat % 1000 ∧ cancelReqTo.toNat / 1000 = 1) ∧
      now.toMillis + cancelReqTo.toNat < (2 ^ 32 - 1) * 1000 := by
  have htime := cancelTime_cases hnow hfits
  have hset : setInvokeTimeout sess (some now) cancelReqTo = ⟨false, false, cancelTime now cancelReqTo⟩ := by
    rw [setInvokeTimeout, if_neg hfinite, hmask, hcancel]
    rfl
  rw [UInt32.lt_iff_toNat_lt, toNat_thousand] at hnow
  simp only [hset, Session.Times, TeeTime.toMillis, UInt32.lt_iff_toNat_lt, toNat_thousand] at hfits ⊢
  generalize cancelTime now cancelReqTo = time at *
  constructor
  · rintro ⟨hnormal, heq, hfrom⟩
    -- The deadline itself is a time at which the session is not cancelled.
    have hat := hfrom none _ time rfl hnormal (by omega)
    rw [sessionIsCancelled_iff rfl] at hat
    omega
  · rintro ⟨hexact, hlast⟩
    refine ⟨by omega, by omega, fun currTime sysTime later hlater hl hle => ?_⟩
    rw [sessionIsCancelled_iff hlater]
    omega

def quiet : Session := ⟨false, false, infinite⟩

theorem timeout_exact_quiet : (setInvokeTimeout quiet (some ⟨10, 200⟩) 5500).Times ⟨10, 200⟩ 5500 :=
  (timeout_exact_iff quiet ⟨10, 200⟩ 5500 rfl rfl (by decide) (by decide) (by decide)).mpr ⟨.inl (by decide), by decide⟩

theorem timeout_cut_short :
    sessionIsCancelled (setInvokeTimeout quiet (some ⟨10, 600⟩) 5500) none (some ⟨12, 100⟩) = true ∧
      ¬(setInvokeTimeout quiet (some ⟨10, 600⟩) 5500).Times ⟨10, 600⟩ 5500 :=
  ⟨by decide, fun h => absurd h.2.1 (by decide)⟩

end Optee.Ta.Timeout
