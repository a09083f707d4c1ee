import Mathlib.Algebra.Group.Nat.Defs
import Optee.TeeResult

/-! Pools of memory that are managed in units of a power of two, with the widths of the counters. -/

namespace Optee.Mm

open List

inductive Call
  | alloc (size : ℕ)
  | alloc2 (base size : ℕ)
  | free (i : ℕ)
  deriving DecidableEq

/-- An entry together with the call that made it. -/
structure MmEntry where
  offset : ℕ
  size : ℕ
  call : Call
  deriving DecidableEq

structure Pool where
  lo : ℕ
  hi : ℕ
  shift : ℕ
  hiAlloc : Bool
  /-- The entry at the head of the list, of size zero. -/
  first : ℕ
  entries : List MmEntry
  deriving DecidableEq

def sub32 (a b : ℕ) : ℕ := (a + 2 ^ 32 - b % 2 ^ 32) % 2 ^ 32

def sub64 (a b : ℕ) : ℕ := (a + 2 ^ 64 - b % 2 ^ 64) % 2 ^ 64

def Pool.init (lo hi : UInt64) (shift : ℕ) (hiAlloc : Bool) : Pool :=
  let lo := (lo.toNat + (2 ^ shift - 1)) % 2 ^ 64 / 2 ^ shift * 2 ^ shift
  let hi := hi.toNat / 2 ^ shift * 2 ^ shift
  ⟨lo, hi, shift, hiAlloc, if hiAlloc then (sub64 (sub64 hi lo) 1 / 2 ^ shift + 1) % 2 ^ 32 else 0, []⟩

def teeMmInit (lo hi : UInt64) (shift : ℕ) (hiAlloc : Bool) : TeeResult Pool := do
  let p := Pool.init lo hi shift hiAlloc
  assert (sub64 p.hi p.lo / 2 ^ shift < 2 ^ 32 - 1)
  pure p

def MmEntry.stop (e : MmEntry) : ℕ := (e.offset + e.size) % 2 ^ 32

/-- The search for the entry behind which a new one goes, by the condition of the loop and the check after it. -/
def insertFrom (walk : MmEntry → MmEntry → Bool) (fits : MmEntry → Option MmEntry → TeeResult Unit) (new : MmEntry → MmEntry) :
    MmEntry → List MmEntry → TeeResult (MmEntry × List MmEntry)
  | e, [] => do
    fits e none
    pure (new e, [new e])
  | e, n :: ns =>
    if walk e n then do
      let (nn, es) ← insertFrom walk fits new n ns
      pure (nn, n :: es)
    else do
      fits e (some n)
      pure (new e, new e :: n :: ns)

namespace Pool

variable (p : Pool)

def psize (size : ℕ) : ℕ := if size = 0 then 0 else (size - 1) / 2 ^ p.shift + 1

def gap (e n : MmEntry) : ℕ :=
  if p.hiAlloc then sub32 (sub32 e.offset n.offset) n.size else sub32 (sub32 n.offset e.size) e.offset

def enough (size : ℕ) (e : MmEntry) : Option MmEntry → TeeResult Unit
  | some _ => pure ()
  | none =>
    if p.hiAlloc then if e.offset * 2 ^ p.shift % 2 ^ 32 < size then .error .outOfMemory else pure ()
    else if p.hi ≤ p.lo then .error .panic
    -- the product is one of 32 bits before it is taken from the size of the pool
    else if sub64 (sub64 p.hi p.lo) (e.stop * 2 ^ p.shift % 2 ^ 32) < size then .error .outOfMemory
    else pure ()

def add (walk : MmEntry → MmEntry → Bool) (fits : MmEntry → Option MmEntry → TeeResult Unit) (new : MmEntry → MmEntry) :
    TeeResult (MmEntry × Pool) := do
  let (nn, es) ← insertFrom walk fits new ⟨p.first, 0, .alloc 0⟩ p.entries
  pure (nn, { p with entries := es })

def alloc (size : ℕ) : TeeResult (MmEntry × Pool) :=
  p.add (fun e n => p.gap e n < p.psize size) (p.enough size)
    (fun e => ⟨if p.hiAlloc then sub32 e.offset (p.psize size) else e.stop, p.psize size % 2 ^ 32, .alloc size⟩)

def fitInGap (offslo offshi : ℕ) (e : MmEntry) (next : Option MmEntry) : TeeResult Unit :=
  let bytes := offshi * 2 ^ p.shift % 2 ^ 64
  if p.hiAlloc then
    if e.offset < offshi ∨ next.any (offslo < ·.stop) ∨ sub64 p.hi p.lo < sub64 bytes 1 then .error .outOfMemory else pure ()
  else if offslo < e.stop ∨ next.any (·.offset < offshi) ∨ sub64 p.hi p.lo < bytes then .error .outOfMemory
  else pure ()

def alloc2 (base size : ℕ) : TeeResult (MmEntry × Pool) :=
  if (base + size) % 2 ^ 64 < base ∨ base < p.lo then .error .badParameters
  else
    let offslo := (base - p.lo) / 2 ^ p.shift
    let offshi := (sub64 (base - p.lo + size) 1 / 2 ^ p.shift + 1) % 2 ^ 64
    p.add (fun _ n => if p.hiAlloc then offshi < n.stop else n.offset < offslo) (p.fitInGap offslo offshi)
      (fun _ => ⟨offslo % 2 ^ 32, sub64 offshi offslo % 2 ^ 32, .alloc2 base size⟩)

def getSmem (e : MmEntry) : ℕ := (e.offset * 2 ^ p.shift % 2 ^ 32 + p.lo) % 2 ^ 64

end Pool

lemma sub32_eq {a b : ℕ} (hb : b ≤ a) (ha : a < 2 ^ 32) : sub32 a b = a - b := by
  unfold sub32
  omega

lemma sub64_eq {a b : ℕ} (hb : b ≤ a) (ha : a < 2 ^ 64) : sub64 a b = a - b := by
  unfold sub64
  omega

section Insertion

variable {walk : MmEntry → MmEntry → Bool} {fits : MmEntry → Option MmEntry → TeeResult Unit} {new : MmEntry → MmEntry} {e : MmEntry}
  {es : List MmEntry} {r : MmEntry × List MmEntry} {P : MmEntry → Prop} {R : MmEntry → MmEntry → Prop}

/-- What is between one entry and the next carries over to all of them. -/
lemma insertFrom_chain (hnew : ∀ e next, P e → (∀ n ∈ next, P n ∧ R e n ∧ walk e n = false) → fits e next = .ok () →
      P (new e) ∧ R e (new e) ∧ ∀ n ∈ next, R (new e) n) (hP : ∀ x ∈ e :: es, P x) (hR : (e :: es).IsChain R)
    (h : insertFrom walk fits new e es = .ok r) : (∀ x ∈ e :: r.2, P x) ∧ (e :: r.2).IsChain R ∧
      (∃ a, r.1 = new a) ∧ ∃ as bs, es = as ++ bs ∧ r.2 = as ++ r.1 :: bs := by
  induction es generalizing e r with
  | nil =>
    obtain ⟨⟨⟩, hfits, hr⟩ := TeeResult.bind_eq_ok.mp h
    cases hr
    obtain ⟨hP', hR', -⟩ := hnew e none (hP e mem_cons_self) nofun hfits
    exact ⟨by simp [hP e, hP'], by simp [hR'], ⟨e, rfl⟩, [], [], rfl, rfl⟩
  | cons n ns ih =>
    rw [forall_mem_cons] at hP
    rw [isChain_cons_cons] at hR
    rw [insertFrom] at h
    split_ifs at h with hwalk
    · obtain ⟨r', hr', heq⟩ := TeeResult.bind_eq_ok.mp h
      cases heq
      obtain ⟨hP', hR', hnn, as, bs, rfl, hes⟩ := ih hP.2 hR.2 hr'
      exact ⟨forall_mem_cons.mpr ⟨hP.1, hP'⟩, isChain_cons_cons.mpr ⟨hR.1, hR'⟩, hnn, n :: as, bs, rfl, congrArg (n :: ·) hes⟩
    · obtain ⟨⟨⟩, hfits, hr⟩ := TeeResult.bind_eq_ok.mp h
      cases hr
      have hn : P n ∧ R e n ∧ walk e n = false := ⟨hP.2 n mem_cons_self, hR.1, Bool.eq_false_iff.mpr hwalk⟩
      obtain ⟨hP', hR', hR''⟩ := hnew e (some n) hP.1 (fun m hm => Option.some.inj hm ▸ hn) hfits
      simp only [forall_mem_cons, isChain_cons_cons]
      exact ⟨⟨hP.1, hP', forall_mem_cons.mp hP.2⟩, ⟨hR', hR'' n rfl, hR.2⟩, ⟨e, rfl⟩, [], n :: ns, rfl, rfl⟩

end Insertion

namespace Pool

def top (p : Pool) : ℕ := (p.hi - p.lo) / 2 ^ p.shift

def Before (p : Pool) (a b : MmEntry) : Prop :=
  if p.hiAlloc then b.offset + b.size ≤ a.offset else a.offset + a.size ≤ b.offset

def Serves (p : Pool) (e : MmEntry) : Prop :=
  match e.call with
  | .alloc size => size ≤ e.size * 2 ^ p.shift
  | .alloc2 base size => p.lo ≤ base ∧ e.offset = (base - p.lo) / 2 ^ p.shift ∧
    base + size ≤ p.lo + (e.offset + e.size) * 2 ^ p.shift
  | .free _ => False

def Held (p : Pool) (e : MmEntry) : Prop := e.offset + e.size ≤ p.top ∧ p.Serves e

structure Sound (p : Pool) : Prop where
  lt : p.lo < p.hi
  hi_lt : p.hi < 2 ^ 64
  span : p.hi - p.lo < 2 ^ 32
  units : p.top * 2 ^ p.shift = p.hi - p.lo
  held : ∀ e ∈ ⟨p.first, 0, .alloc 0⟩ :: p.entries, p.Held e
  chain : (⟨p.first, 0, .alloc 0⟩ :: p.entries).IsChain p.Before

structure Adds (p : Pool) (c : Call) (nn : MmEntry) (p' : Pool) : Prop where
  sound : p'.Sound
  call : nn.call = c
  split : ∃ as bs, p.entries = as ++ bs ∧ p' = { p with entries := as ++ nn :: bs }

variable {p : Pool} {size base : ℕ} {e : MmEntry}

lemma psize_le {n : ℕ} (h : size ≤ n * 2 ^ p.shift) : p.psize size ≤ n := by
  unfold psize
  split_ifs with h0
  · exact Nat.zero_le n
  · exact Nat.div_lt_of_lt_mul (by rw [mul_comm]; omega)

lemma le_psize (p : Pool) (size : ℕ) : size ≤ p.psize size * 2 ^ p.shift := by
  unfold psize
  split_ifs with h0
  · omega
  · have := Nat.lt_div_mul_add (a := size - 1) (Nat.two_pow_pos p.shift)
    rw [Nat.add_mul]
    omega

namespace Sound

variable (h : p.Sound)
include h

lemma sub_eq : sub64 p.hi p.lo = p.hi - p.lo := sub64_eq (Nat.le_of_lt h.lt) h.hi_lt

lemma mul_le {n : ℕ} (hn : n ≤ p.top) : n * 2 ^ p.shift ≤ p.hi - p.lo := h.units ▸ Nat.mul_le_mul_right _ hn

lemma lt_of_le_top {n : ℕ} (hn : n ≤ p.top) : n < 2 ^ 32 := by
  have := h.mul_le hn
  have := Nat.le_mul_of_pos_right n (Nat.two_pow_pos p.shift)
  have := h.span
  omega

lemma adds {walk : MmEntry → MmEntry → Bool} {fits : MmEntry → Option MmEntry → TeeResult Unit} {new : MmEntry → MmEntry}
    {c : Call} {nn : MmEntry} {p' : Pool} (hc : ∀ e, (new e).call = c)
    (hnew : ∀ e next, p.Held e → (∀ n ∈ next, p.Held n ∧ p.Before e n ∧ walk e n = false) → fits e next = .ok () →
      p.Held (new e) ∧ p.Before e (new e) ∧ ∀ n ∈ next, p.Before (new e) n)
    (hok : p.add walk fits new = .ok (nn, p')) : p.Adds c nn p' := by
  obtain ⟨r, hr, heq⟩ := TeeResult.bind_eq_ok.mp hok
  cases heq
  obtain ⟨hheld, hchain, ⟨a, ha⟩, as, bs, hes, hes'⟩ := insertFrom_chain hnew h.held h.chain hr
  exact ⟨⟨h.lt, h.hi_lt, h.span, h.units, hheld, hchain⟩, by rw [ha, hc], as, bs, hes, by rw [hes']⟩

lemma alloc {nn : MmEntry} {p' : Pool} (hok : p.alloc size = .ok (nn, p')) : p.Adds (.alloc size) nn p' := by
  refine h.adds (fun _ => rfl) (fun e next he hn hok => ?_) hok
  have hstop := h.lt_of_le_top he.1
  have htop := h.lt_of_le_top (Nat.le_refl _)
  have hserves := p.le_psize size
  have hroom : if p.hiAlloc then p.psize size ≤ e.offset ∧ ∀ n ∈ next, n.offset + n.size + p.psize size ≤ e.offset
      else e.offset + e.size + p.psize size ≤ p.top ∧ ∀ n ∈ next, e.offset + e.size + p.psize size ≤ n.offset := by
    rcases next with - | n
    · unfold enough at hok
      split_ifs at hok ⊢ with hd hs hlt hs
      · exact ⟨psize_le (by have := Nat.mod_le (e.offset * 2 ^ p.shift) (2 ^ 32); omega), nofun⟩
      have hmul := h.mul_le he.1
      have hspan := h.span
      rw [h.sub_eq, MmEntry.stop, Nat.mod_eq_of_lt hstop, Nat.mod_eq_of_lt (by omega), sub64_eq hmul (by omega), ← h.units,
        ← Nat.sub_mul] at hs
      have := psize_le (Nat.le_of_not_lt hs)
      have := he.1
      exact ⟨by omega, nofun⟩
    · obtain ⟨⟨hle, -⟩, hbefore, hwalk⟩ := hn n rfl
      rw [decide_eq_false_iff_not] at hwalk
      simp only [gap, Before, sub32] at hwalk hbefore
      split_ifs at hwalk hbefore ⊢
      all_goals exact ⟨by omega, by rintro m ⟨⟩; omega⟩
  have hle := he.1
  simp only [Held, Serves, Before, MmEntry.stop]
  split_ifs at hroom ⊢
  · rw [sub32_eq hroom.1 (by omega), Nat.mod_eq_of_lt (by omega)]
    exact ⟨⟨by omega, hserves⟩, by omega, fun n hn => by have := hroom.2 n hn; omega⟩
  · rw [Nat.mod_eq_of_lt hstop, Nat.mod_eq_of_lt (by omega)]
    exact ⟨⟨hroom.1, hserves⟩, Nat.le_refl _, hroom.2⟩

lemma alloc2 {nn : MmEntry} {p' : Pool} (hend : p.lo < base + size) (hwrap : base + size + 2 ^ p.shift ≤ 2 ^ 64)
    (hok : p.alloc2 base size = .ok (nn, p')) : p.Adds (.alloc2 base size) nn p' := by
  unfold Pool.alloc2 at hok
  by_cases hbad : (base + size) % 2 ^ 64 < base ∨ base < p.lo
  · rw [if_pos hbad] at hok
    cases hok
  have hpos := Nat.two_pow_pos p.shift
  obtain ⟨lo, hlo⟩ : ∃ lo, (base - p.lo) / 2 ^ p.shift = lo := ⟨_, rfl⟩
  have hoffslo := Nat.div_mul_le_self (base - p.lo) (2 ^ p.shift)
  obtain ⟨hi, hhi⟩ : ∃ hi, (sub64 (base - p.lo + size) 1 / 2 ^ p.shift + 1) % 2 ^ 64 = hi := ⟨_, rfl⟩
  have hcovers : base - p.lo + size ≤ hi * 2 ^ p.shift ∧ hi * 2 ^ p.shift < 2 ^ 64 := by
    have := Nat.lt_div_mul_add (a := base - p.lo + size - 1) hpos
    have := Nat.div_mul_le_self (base - p.lo + size - 1) (2 ^ p.shift)
    have := Nat.div_le_self (base - p.lo + size - 1) (2 ^ p.shift)
    rw [← hhi, sub64_eq (by omega) (by omega), Nat.mod_eq_of_lt (by omega), Nat.add_mul]
    omega
  rw [hlo] at hoffslo
  have hle : lo ≤ hi := Nat.le_of_mul_le_mul_right (by omega) hpos
  simp only [if_neg hbad, hlo, hhi, sub64_eq hle (by omega)] at hok
  refine h.adds (fun _ => rfl) (fun e next he hn hok => ?_) hok
  have hfit : hi ≤ p.top ∧ if p.hiAlloc then hi ≤ e.offset ∧ ∀ n ∈ next, n.offset + n.size ≤ lo
      else e.offset + e.size ≤ lo ∧ ∀ n ∈ next, hi ≤ n.offset := by
    have htop := he.1
    simp only [fitInGap] at hok
    rw [h.sub_eq, ← h.units, Nat.mod_eq_of_lt hcovers.2] at hok
    split_ifs at hok ⊢ with hd hno hno
    · rw [not_or, not_or] at hno
      refine ⟨by omega, by omega, ?_⟩
      rintro n ⟨⟩
      have hstop := hno.2.1
      rw [Option.any_some, decide_eq_true_eq, MmEntry.stop, Nat.mod_eq_of_lt (h.lt_of_le_top (hn n rfl).1.1)] at hstop
      omega
    · rw [not_or, not_or] at hno
      have := hno.1
      rw [MmEntry.stop, Nat.mod_eq_of_lt (h.lt_of_le_top htop)] at this
      refine ⟨Nat.le_of_mul_le_mul_right (Nat.le_of_not_lt hno.2.2) hpos, by omega, ?_⟩
      rintro n ⟨⟩
      have hstop := hno.2.1
      rw [Option.any_some, decide_eq_true_eq] at hstop
      omega
  have hlt := h.lt_of_le_top hfit.1
  simp only [Held, Serves, Before]
  rw [Nat.mod_eq_of_lt (by omega), Nat.mod_eq_of_lt (by omega), Nat.add_sub_cancel' hle]
  refine ⟨⟨hfit.1, by omega, hlo.symm, by omega⟩, ?_⟩
  obtain ⟨-, hfit⟩ := hfit
  split_ifs at hfit ⊢
  · exact ⟨by omega, hfit.2⟩
  · exact ⟨hfit.1, fun n hn => by have := hfit.2 n hn; omega⟩

lemma pairwise : (⟨p.first, 0, .alloc 0⟩ :: p.entries).Pairwise p.Before := by
  have : Trans p.Before p.Before p.Before := ⟨fun {a b c} hab hbc => by unfold Before at *; split_ifs at * <;> omega⟩
  exact isChain_iff_pairwise.mp h.chain

end Sound

namespace Adds

variable {c : Call} {nn : MmEntry} {p' : Pool} (h : p.Adds c nn p')
include h

lemma mem : e ∈ p'.entries ↔ e = nn ∨ e ∈ p.entries := by
  obtain ⟨as, bs, hes, rfl⟩ := h.split
  rw [hes, mem_append, mem_cons, mem_append, or_left_comm]

lemma held : p'.Held nn := h.sound.held nn (mem_cons_of_mem _ (h.mem.mpr (.inl rfl)))

lemma apart (he : e ∈ p.entries) :
    nn.offset + nn.size ≤ e.offset ∨ e.offset + e.size ≤ nn.offset := by
  obtain ⟨as, bs, hes, rfl⟩ := h.split
  obtain ⟨-, hbs, hall⟩ := pairwise_append.mp (pairwise_cons.mp h.sound.pairwise).2
  have hor : p.Before e nn ∨ p.Before nn e := by
    rw [hes] at he
    rcases mem_append.mp he with he | he
    · exact .inl (hall e he nn mem_cons_self)
    · exact .inr ((pairwise_cons.mp hbs).1 e he)
  unfold Before at hor
  split_ifs at hor
  · exact hor
  · exact hor.symm

end Adds

lemma sound_init {lo hi : UInt64} {shift : ℕ} {hiAlloc : Bool} (hlt : (init lo hi shift hiAlloc).lo < (init lo hi shift hiAlloc).hi)
    (hspan : (init lo hi shift hiAlloc).hi - (init lo hi shift hiAlloc).lo < 2 ^ 32) : (init lo hi shift hiAlloc).Sound := by
  unfold init at *
  dsimp only at hlt hspan ⊢
  have hhi : hi.toNat / 2 ^ shift * 2 ^ shift < 2 ^ 64 := Nat.lt_of_le_of_lt (Nat.div_mul_le_self _ _) hi.toNat_lt
  generalize (lo.toNat + (2 ^ shift - 1)) % 2 ^ 64 / 2 ^ shift = a at *
  generalize hi.toNat / 2 ^ shift = b at *
  have hpos := Nat.two_pow_pos shift
  have htop : (b * 2 ^ shift - a * 2 ^ shift) / 2 ^ shift = b - a := by rw [← Nat.sub_mul, Nat.mul_div_cancel _ hpos]
  refine ⟨hlt, hhi, hspan, by rw [top, htop, Nat.sub_mul], ?_, .singleton _⟩
  rw [forall_mem_singleton]
  refine ⟨?_, Nat.zero_le _⟩
  rw [top, htop]
  split_ifs
  · rw [sub64_eq (by omega) hhi, sub64_eq (by omega) (by omega), ← Nat.sub_mul]
    have : ((b - a) * 2 ^ shift - 1) / 2 ^ shift < b - a := Nat.div_lt_of_lt_mul
      (by rw [mul_comm _ (b - a), Nat.sub_mul]; omega)
    exact Nat.le_trans (Nat.mod_le (_ / _ + 1) _) this
  · exact Nat.zero_le _

end Pool

end Optee.Mm
