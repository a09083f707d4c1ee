import Mathlib.Data.List.Pairwise
import Optee.Lib.Runs
import Optee.Mm.TeeMm

/-! What a pool is like after any calls: its entries, and the lookup of an address among them. -/

namespace Optee.Mm

open List Lib.Runs

namespace Pool

/-- A request that cannot be met leaves the pool as it is; a call that ends in a panic is an error. -/
def after (p : Pool) : TeeResult (MmEntry × Pool) → TeeResult Pool
  | .ok r => .ok r.2
  | .error .panic => .error .panic
  | .error _ => .ok p

def step (p : Pool) : Call → TeeResult Pool
  | .alloc size => p.after (p.alloc size)
  | .alloc2 base size => p.after (p.alloc2 base size)
  | .free i => do
    assert (i < p.entries.length)
    pure { p with entries := p.entries.eraseIdx i }

def find (p : Pool) (addr : ℕ) : Option MmEntry :=
  let offset := sub64 addr p.lo / 2 ^ p.shift % 2 ^ 16
  if p.hi < addr ∨ addr < p.lo then none else p.entries.find? fun e => e.offset ≤ offset && offset < e.stop

def Plain (p : Pool) : Call → Prop
  | .alloc2 base size => p.lo < base + size ∧ base + size + 2 ^ p.shift ≤ 2 ^ 64
  | _ => True

variable {p : Pool} {e : MmEntry}

lemma Sound.free (h : p.Sound) (i : ℕ) : Sound { p with entries := p.entries.eraseIdx i } := by
  have hsub := (eraseIdx_sublist p.entries i).cons_cons ⟨p.first, 0, .alloc 0⟩
  exact ⟨h.lt, h.hi_lt, h.span, h.units, fun e he => h.held e (hsub.subset he), (h.pairwise.sublist hsub).isChain⟩

lemma Sound.after (h : p.Sound) {r : TeeResult (MmEntry × Pool)} {c : Call} {q : Pool}
    (hr : ∀ nn p', r = .ok (nn, p') → p.Adds c nn p') (hq : p.after r = .ok q) : q.Sound ∧ q.top = p.top := by
  rcases r with e | ⟨nn, p'⟩
  · cases e <;> cases hq <;> exact ⟨h, rfl⟩
  · cases hq
    obtain ⟨hsound, -, as, bs, -, heq⟩ := hr nn p' rfl
    exact ⟨hsound, by rw [heq]; rfl⟩

lemma Sound.step (h : p.Sound) {c : Call} {q : Pool} (hc : p.Plain c) (hq : p.step c = .ok q) : q.Sound ∧ q.top = p.top := by
  cases c with
  | alloc size => exact h.after (fun _ _ => h.alloc) hq
  | alloc2 base size => exact h.after (fun _ _ => h.alloc2 hc.1 hc.2) hq
  | free i =>
    obtain ⟨⟨⟩, -, hq⟩ := TeeResult.bind_eq_ok.mp hq
    cases hq
    exact ⟨h.free i, rfl⟩

/-- Entries are in order, apart, inside the pool and of the size asked for; one with a base starts there, if it is
aligned. -/
structure Good (p : Pool) : Prop where
  apart : p.entries.Pairwise fun a b =>
    if p.hiAlloc then p.getSmem b + b.size * 2 ^ p.shift ≤ p.getSmem a else p.getSmem a + a.size * 2 ^ p.shift ≤ p.getSmem b
  inside : ∀ e ∈ p.entries, p.lo ≤ p.getSmem e ∧ p.getSmem e + e.size * 2 ^ p.shift ≤ p.hi
  smem : ∀ e ∈ p.entries, p.getSmem e = p.lo + e.offset * 2 ^ p.shift
  covers : ∀ e ∈ p.entries, ∀ size, e.call = .alloc size → size ≤ e.size * 2 ^ p.shift
  covers2 : ∀ e ∈ p.entries, ∀ base size, e.call = .alloc2 base size →
    size ≤ e.size * 2 ^ p.shift ∧ (p.getSmem e = base ↔ 2 ^ p.shift ∣ base - p.lo)

lemma Sound.getSmem_eq (h : p.Sound) (he : e ∈ p.entries) :
    p.getSmem e = p.lo + e.offset * 2 ^ p.shift ∧ p.getSmem e + e.size * 2 ^ p.shift ≤ p.hi := by
  have hle := h.mul_le (h.held e (mem_cons_of_mem _ he)).1
  have := h.lt
  have := h.span
  have := h.hi_lt
  rw [Nat.add_mul] at hle
  rw [getSmem]
  omega

lemma Sound.good (h : p.Sound) : p.Good := by
  have hmem := fun {e} (he : e ∈ p.entries) => h.getSmem_eq he
  refine ⟨(pairwise_cons.mp h.pairwise).2.imp_of_mem fun {a b} ha hb hab => ?_, fun e he => by have := hmem he; omega,
    fun e he => (hmem he).1, fun e he size hcall => ?_, fun e he base size hcall => ?_⟩
  · rw [(hmem ha).1, (hmem hb).1]
    unfold Before at hab
    split_ifs at hab ⊢
    all_goals
      have := Nat.mul_le_mul_right (2 ^ p.shift) hab
      rw [Nat.add_mul] at this
      omega
  · have hserves := (h.held e (mem_cons_of_mem _ he)).2
    rw [Serves, hcall] at hserves
    exact hserves
  · have hserves := (h.held e (mem_cons_of_mem _ he)).2
    rw [Serves, hcall] at hserves
    obtain ⟨hlo, hoff, hcovers⟩ := hserves
    have := Nat.div_mul_le_self (base - p.lo) (2 ^ p.shift)
    rw [Nat.add_mul, hoff] at hcovers
    rw [(hmem he).1, hoff, Nat.dvd_iff_div_mul_eq]
    omega

end Pool

open Pool

variable {lo hi : UInt64} {shift : ℕ} {hiAlloc : Bool} {p q : Pool} {calls : List Call}

lemma sound_of_run (hinit : teeMmInit lo hi shift hiAlloc = .ok p) (hlt : p.lo < p.hi) (hspan : p.hi - p.lo < 2 ^ 32)
    (hcalls : Along Pool.step Plain p calls) (hrun : run Pool.step p calls = .ok q) : q.Sound ∧ q.top = p.top := by
  refine hcalls.invariant (I := fun q => q.Sound ∧ q.top = p.top) hrun ⟨?_, rfl⟩ ?_
  · obtain ⟨⟨⟩, -, hp⟩ := TeeResult.bind_eq_ok.mp hinit
    cases hp
    exact sound_init hlt hspan
  rintro s c t ⟨hs, htop⟩ hc ht
  exact ⟨(hs.step hc ht).1, (hs.step hc ht).2.trans htop⟩

def toyPool : Pool := ⟨0x1000, 0x100000, 12, false, 0, []⟩

def toyCalls : List Call := [.alloc2 0x3000 0x2000, .alloc 1]

def largePool (es : List MmEntry) : Pool := ⟨0, 0x200000000, 12, false, 0, es⟩

namespace Pool

def Covers (p : Pool) (e : MmEntry) (addr : ℕ) : Prop := p.getSmem e ≤ addr ∧ addr < p.getSmem e + e.size * 2 ^ p.shift

def Finds (p : Pool) (addr : ℕ) : Prop :=
  (∀ e, p.find addr = some e ↔ e ∈ p.entries ∧ p.Covers e addr) ∧
    (p.find addr = none ↔ (addr < p.lo ∨ p.hi ≤ addr) ∨ ∀ e ∈ p.entries, ¬p.Covers e addr)

variable {p : Pool} {e : MmEntry} {addr : ℕ}

lemma Good.unique (h : p.Good) {e' : MmEntry} (he : e ∈ p.entries) (he' : e' ∈ p.entries) (hc : p.Covers e addr)
    (hc' : p.Covers e' addr) : e = e' := by
  have hapart : p.entries.Pairwise fun a b => ¬(p.Covers a addr ∧ p.Covers b addr) :=
    h.apart.imp fun hab => by
      rintro ⟨⟨ha, ha'⟩, hb, hb'⟩
      split_ifs at hab <;> omega
  have : Std.Symm fun a b => ¬(p.Covers a addr ∧ p.Covers b addr) := ⟨fun _ _ hab hba => hab hba.symm⟩
  by_contra hne
  exact hapart.forall he he' hne ⟨hc, hc'⟩

lemma Sound.find_eq_some (h : p.Sound) (hunits : p.top < 2 ^ 16) :
    p.find addr = some e ↔ e ∈ p.entries ∧ p.Covers e addr := by
  have hhi := h.hi_lt
  unfold find
  dsimp only
  split_ifs with hout
  · refine iff_of_false nofun ?_
    rintro ⟨he, hc, hc'⟩
    have := h.getSmem_eq he
    omega
  have hoff : (addr - p.lo) / 2 ^ p.shift ≤ p.top := Nat.div_le_div_right (by omega)
  rw [sub64_eq (by omega) (by omega), Nat.mod_eq_of_lt (by omega)]
  generalize hcov : (fun e : MmEntry => decide (e.offset ≤ (addr - p.lo) / 2 ^ p.shift) &&
    decide ((addr - p.lo) / 2 ^ p.shift < e.stop)) = cov
  have hiff : ∀ e ∈ p.entries, cov e = true ↔ p.Covers e addr := by
    intro e he
    subst hcov
    have hpos := Nat.two_pow_pos p.shift
    have := h.getSmem_eq he
    rw [Bool.and_eq_true, decide_eq_true_eq, decide_eq_true_eq, Nat.le_div_iff_mul_le hpos, Nat.div_lt_iff_lt_mul hpos, MmEntry.stop,
      Nat.mod_eq_of_lt (h.lt_of_le_top (h.held e (mem_cons_of_mem _ he)).1), Nat.add_mul, Covers]
    omega
  constructor
  · intro hfind
    have he := mem_of_find?_eq_some hfind
    exact ⟨he, (hiff e he).mp (find?_some hfind)⟩
  · rintro ⟨he, hc⟩
    obtain ⟨e', hfind⟩ := Option.isSome_iff_exists.mp (find?_isSome.mpr ⟨e, he, (hiff e he).mpr hc⟩)
    have he' := mem_of_find?_eq_some hfind
    rw [hfind, h.good.unique he he' hc ((hiff e' he').mp (find?_some hfind))]

lemma Sound.finds (h : p.Sound) (hunits : p.top < 2 ^ 16) : p.Finds addr := by
  refine ⟨fun e => h.find_eq_some hunits, ?_⟩
  rw [Option.eq_none_iff_forall_ne_some]
  constructor
  · exact fun hnone => .inr fun e he hc => hnone e ((h.find_eq_some hunits).mpr ⟨he, hc⟩)
  · intro hno e hfind
    obtain ⟨he, hc, hc'⟩ := (h.find_eq_some hunits).mp hfind
    have := h.getSmem_eq he
    rcases hno with hout | hno
    · omega
    · exact hno e he ⟨hc, hc'⟩

end Pool

theorem find_finds (hinit : teeMmInit lo hi shift hiAlloc = .ok p) (hlt : p.lo < p.hi) (hspan : p.hi - p.lo < 2 ^ 32)
    (hunits : (p.hi - p.lo) / 2 ^ p.shift < 2 ^ 16) (hcalls : Along Pool.step Plain p calls)
    (hrun : run Pool.step p calls = .ok q) (addr : UInt64) : q.Finds addr.toNat := by
  obtain ⟨hsound, htop⟩ := sound_of_run hinit hlt hspan hcalls hrun
  exact hsound.finds (htop ▸ hunits)

theorem find_finds_two : ∃ q, run Pool.step toyPool toyCalls = .ok q ∧ q.Finds 0x3000 := by
  have hinit : teeMmInit 0x1000 0x100000 12 false = .ok toyPool := by decide +kernel
  have hcalls : Along Pool.step Plain toyPool toyCalls := ⟨⟨by decide, by decide⟩, fun _ _ => ⟨trivial, fun _ _ => trivial⟩⟩
  exact ⟨_, rfl, find_finds hinit (by decide) (by decide) (by decide) hcalls rfl 0x3000⟩

/-- An address 256 MiB above the one page that is taken. -/
theorem find_wrong_entry : teeMmInit 0 0x20000000 12 false = .ok ⟨0, 0x20000000, 12, false, 0, []⟩ ∧
    ∃ q, run Pool.step ⟨0, 0x20000000, 12, false, 0, []⟩ [.alloc 0x1000] = .ok q ∧ ¬q.Finds 0x10000000 := by
  refine ⟨by decide +kernel, ⟨0, 0x20000000, 12, false, 0, [⟨0, 1, .alloc 0x1000⟩]⟩, by decide +kernel, fun hfinds => ?_⟩
  have hfind := (hfinds.1 ⟨0, 1, .alloc 0x1000⟩).mp (by decide +kernel)
  exact absurd hfind.2.2 (by decide)

namespace Pool

variable {p : Pool} {e : MmEntry} {size x : ℕ}

/-- From the unit `x` on `size` bytes are free, on the side of the pool that it is filled from. -/
def Room (p : Pool) (size x : ℕ) : Prop :=
  (if p.hiAlloc then x + p.psize size ≤ p.first else p.first ≤ x ∧ x + p.psize size ≤ p.top) ∧
    ∀ e ∈ p.entries, e.offset + e.size ≤ x ∨ x + p.psize size ≤ e.offset

lemma Sound.enough_ok (h : p.Sound) (hheld : p.Held e) (hx : x + p.psize size ≤ p.top)
    (he : if p.hiAlloc then x + p.psize size ≤ e.offset else e.offset + e.size ≤ x) : p.enough size e none = .ok () := by
  have hmul := h.mul_le hheld.1
  have hspan := h.span
  have hsize := p.le_psize size
  unfold enough
  split_ifs at he ⊢ with hd hs hlt hs
  · have := Nat.mul_le_mul_right (2 ^ p.shift) (show p.psize size ≤ e.offset by omega)
    have := Nat.mul_le_mul_right (2 ^ p.shift) (Nat.le_add_right e.offset e.size)
    rw [Nat.mod_eq_of_lt (by omega)] at hs
    omega
  · rfl
  · exact absurd h.lt (by omega)
  · rw [h.sub_eq, MmEntry.stop, Nat.mod_eq_of_lt (h.lt_of_le_top hheld.1), Nat.mod_eq_of_lt (by omega),
      sub64_eq hmul (by omega), ← h.units, ← Nat.sub_mul] at hs
    have := Nat.mul_le_mul_right (2 ^ p.shift) (show p.psize size ≤ p.top - (e.offset + e.size) by omega)
    omega
  · rfl

lemma Sound.insertFrom_ok (h : p.Sound) {es : List MmEntry} {new : MmEntry → MmEntry} (hx : x + p.psize size ≤ p.top)
    (hheld : ∀ n ∈ e :: es, p.Held n) (hchain : (e :: es).IsChain p.Before)
    (hroom : ∀ n ∈ es, n.offset + n.size ≤ x ∨ x + p.psize size ≤ n.offset)
    (he : if p.hiAlloc then x + p.psize size ≤ e.offset else e.offset + e.size ≤ x) :
    ∃ r, insertFrom (fun e n => p.gap e n < p.psize size) (p.enough size) new e es = .ok r := by
  induction es generalizing e with
  | nil => exact ⟨(new e, [new e]), by rw [insertFrom, h.enough_ok (hheld e mem_cons_self) hx he]; rfl⟩
  | cons n ns ih =>
    rw [forall_mem_cons] at hheld hroom
    rw [isChain_cons_cons] at hchain
    rw [insertFrom]
    split_ifs with hwalk
    · have hnext : if p.hiAlloc then x + p.psize size ≤ n.offset else n.offset + n.size ≤ x := by
        have hn := (hheld.2 n mem_cons_self).1
        have hlt := h.lt_of_le_top hn
        have hlt' := h.lt_of_le_top hheld.1.1
        have hbefore := hchain.1
        have hor := hroom.1
        have hwalk := of_decide_eq_true hwalk
        simp only [gap, Before, sub32] at hwalk hbefore
        split_ifs at hwalk hbefore he ⊢ <;> omega
      obtain ⟨r, hr⟩ := ih hheld.2 hchain.2 hroom.2 hnext
      exact ⟨(r.1, n :: r.2), by rw [hr]; rfl⟩
    · exact ⟨_, rfl⟩

lemma Sound.alloc_ok_iff (h : p.Sound) : (∃ r, p.alloc size = .ok r) ↔ ∃ x, p.Room size x := by
  constructor
  · rintro ⟨⟨nn, p'⟩, hr⟩
    have hadds := h.alloc hr
    obtain ⟨-, hserves⟩ := hadds.held
    rw [Serves, hadds.call] at hserves
    obtain ⟨as, bs, -, rfl⟩ := hadds.split
    have hle : p.psize size ≤ nn.size := psize_le hserves
    have hbefore := (pairwise_cons.mp hadds.sound.pairwise).1 nn (by simp)
    have htop : nn.offset + nn.size ≤ p.top := hadds.held.1
    refine ⟨nn.offset, ?_, fun e he => ?_⟩
    · unfold Before at hbefore
      split_ifs at hbefore ⊢ <;> dsimp only at hbefore <;> omega
    · have := hadds.apart he
      omega
  · rintro ⟨x, hx, hroom⟩
    have hfirst := (h.held _ mem_cons_self).1
    dsimp only at hfirst
    obtain ⟨r, hr⟩ := h.insertFrom_ok (x := x) (by split_ifs at hx <;> omega) h.held h.chain hroom
      (by dsimp only; split_ifs at hx ⊢ <;> omega)
    exact ⟨_, by rw [Pool.alloc, add, hr]; rfl⟩

end Pool

theorem alloc_succeeds_iff (hinit : teeMmInit lo hi shift hiAlloc = .ok p) (hlt : p.lo < p.hi) (hspan : p.hi - p.lo < 2 ^ 32)
    (hcalls : Along Pool.step Plain p calls) (hrun : run Pool.step p calls = .ok q) (size : ℕ) :
    (∃ r, q.alloc size = .ok r) ↔ ∃ x, q.Room size x :=
  (sound_of_run hinit hlt hspan hcalls hrun).1.alloc_ok_iff

theorem alloc_succeeds_two : ∃ q, run Pool.step toyPool toyCalls = .ok q ∧ ∃ r, q.alloc 0x1000 = .ok r := by
  have hinit : teeMmInit 0x1000 0x100000 12 false = .ok toyPool := by decide +kernel
  have hcalls : Along Pool.step Plain toyPool toyCalls := ⟨⟨by decide, by decide⟩, fun _ _ => ⟨trivial, fun _ _ => trivial⟩⟩
  exact ⟨{ toyPool with entries := [⟨0, 1, .alloc 1⟩, ⟨2, 2, .alloc2 0x3000 0x2000⟩] }, rfl,
    (alloc_succeeds_iff hinit (by decide) (by decide) hcalls rfl _).mpr ⟨1, by decide, by decide⟩⟩

end Optee.Mm
