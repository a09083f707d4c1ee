import Optee.RpmbFs.FileSystem

/-! The layout of the device: a table that ends at its one last entry, and behind it the files, clear of each other.
-/

namespace Optee.Rpmb.FatEntry

def Occupies (e : FatEntry) : Prop := e.isActive = true ∧ e.dataSize ≠ 0

instance (e : FatEntry) : Decidable e.Occupies := inferInstanceAs (Decidable (_ ∧ _))

def firstBlock (e : FatEntry) : ℕ := e.startAddress.toNat / 256

def endBlock (e : FatEntry) : ℕ := (e.startAddress.toNat + e.dataSize.toNat - 1) / 256 + 1

def Clear (e e' : FatEntry) : Prop := e.endBlock ≤ e'.firstBlock ∨ e'.endBlock ≤ e.firstBlock

variable {e : FatEntry}

lemma Clear.symm {e' : FatEntry} (h : e.Clear e') : e'.Clear e := Or.symm h

lemma Occupies.size_pos (h : e.Occupies) : 0 < e.dataSize.toNat :=
  Nat.pos_of_ne_zero (fun h0 => h.2 (UInt32.toNat_inj.mp h0))

lemma Occupies.firstBlock_lt (h : e.Occupies) : e.firstBlock < e.endBlock := by
  have := h.size_pos
  exact Nat.lt_succ_of_le (Nat.div_le_div_right (by omega))

end Optee.Rpmb.FatEntry

namespace Optee.RpmbFs

open Rpmb Mm

def entry (d : Device) (i : ℕ) : FatEntry := FatEntry.ofBlock (d (2 + i))

def setEntry (d : Device) (i : ℕ) (e : FatEntry) : Device := Function.update d (2 + i) e.toBlock

structure Placed (ctx : Ctx) (n : ℕ) (e : FatEntry) : Prop where
  aligned : e.startAddress.toNat % 256 = 0
  above : n + 3 ≤ e.firstBlock
  inside : e.endBlock ≤ ctx.maxBlkIdx.toNat

structure Layout (ctx : Ctx) (n : ℕ) (d : Device) : Prop where
  going : ∀ i < n, (entry d i).isLast = false
  last : (entry d n).isLast = true
  unused : (entry d n).isActive = false
  room : n + 3 ≤ ctx.maxBlkIdx.toNat
  placed : ∀ i < n, (entry d i).Occupies → Placed ctx n (entry d i)
  apart : ∀ i j, i < n → j < n → i ≠ j → (entry d i).Occupies → (entry d j).Occupies → (entry d i).Clear (entry d j)

structure Free (ctx : Ctx) (n : ℕ) (d : Device) (b : ℕ) : Prop where
  above : n + 3 ≤ b
  inside : b < ctx.maxBlkIdx.toNat
  clear : ∀ i < n, (entry d i).Occupies → b < (entry d i).firstBlock ∨ (entry d i).endBlock ≤ b

def SameUsed (ctx : Ctx) (n : ℕ) (d d' : Device) : Prop := ∀ b, ¬Free ctx n d b → d' b = d b

variable {ctx : Ctx} {n i j : ℕ} {d d' d'' : Device} {e : FatEntry}

@[simp] lemma entry_setEntry_self : entry (setEntry d i e) i = e := by
  rw [entry, setEntry, Function.update_self, FatEntry.ofBlock_toBlock]

lemma setEntry_of_ne {b : ℕ} (h : b ≠ 2 + i) : setEntry d i e b = d b := Function.update_of_ne h _ _

lemma entry_setEntry_of_ne (h : j ≠ i) : entry (setEntry d i e) j = entry d j := by
  rw [entry, setEntry_of_ne (by omega), entry]

lemma entry_congr (h : d' (2 + i) = d (2 + i)) : entry d' i = entry d i := by
  rw [entry, h, entry]

lemma not_free_table (h : i ≤ n) : ¬Free ctx n d (2 + i) := fun hf => by
  have := hf.above
  omega

namespace Layout

lemma set (h : Layout ctx n d) (hlast : e.isLast = false)
    (hplaced : e.Occupies → Placed ctx n e ∧ ∀ j < n, j ≠ i → (entry d j).Occupies → e.Clear (entry d j)) (hi : i < n) :
    Layout ctx n (setEntry d i e) where
  going j hj := by
    by_cases hji : j = i
    · rw [hji, entry_setEntry_self]
      exact hlast
    · rw [entry_setEntry_of_ne hji]
      exact h.going j hj
  last := by
    rw [entry_setEntry_of_ne hi.ne']
    exact h.last
  unused := by
    rw [entry_setEntry_of_ne hi.ne']
    exact h.unused
  room := h.room
  placed j hj := by
    by_cases hji : j = i
    · rw [hji, entry_setEntry_self]
      exact fun ho => (hplaced ho).1
    · rw [entry_setEntry_of_ne hji]
      exact h.placed j hj
  apart j k hj hk hjk := by
    by_cases hji : j = i
    · rw [hji, entry_setEntry_self, entry_setEntry_of_ne (by omega)]
      exact fun ho hok => (hplaced ho).2 k hk (by omega) hok
    rw [entry_setEntry_of_ne hji]
    by_cases hki : k = i
    · rw [hki, entry_setEntry_self]
      exact fun hoj ho => ((hplaced ho).2 j hj hji hoj).symm
    · rw [entry_setEntry_of_ne hki]
      exact h.apart j k hj hk hjk

end Layout

structure PoolOf (ctx : Ctx) (d : Device) (k : ℕ) (p : Pool) : Prop where
  lo : p.lo = 0
  hi : p.hi = ctx.maxBlkIdx.toNat * 256
  shift : p.shift = 8
  sound : p.Sound
  mem : ∀ j < k, (entry d j).Occupies →
    ∃ x ∈ p.entries, x.offset = (entry d j).firstBlock ∧ (entry d j).endBlock ≤ x.offset + x.size

structure Offers (ctx : Ctx) (n : ℕ) (d : Device) (p : Pool) : Prop where
  lo : p.lo = 0
  shift : p.shift = 8
  free : ∀ size mm p', 0 < size → p.alloc size = .ok (mm, p') → size ≤ mm.size * 256 ∧
    ∀ b, mm.offset ≤ b → b < mm.offset + mm.size → Free ctx n d b

section Pools

variable {k : ℕ} {p p' : Pool}

lemma taken_eq_ok {r : TeeResult (MmEntry × Pool)} : taken r = .ok p' ↔ ∃ nn, r = .ok (nn, p') := by
  rw [taken]
  cases r <;> simp [Except.toOption, Prod.ext_iff]

lemma poolOf_zero (hmax : 0 < ctx.maxBlkIdx.toNat) : PoolOf ctx d 0 (initPool ctx) := by
  have := ctx.maxBlkIdx.toNat_lt
  have hlo : (initPool ctx).lo = 0 := rfl
  have hhi : (initPool ctx).hi = ctx.maxBlkIdx.toNat * 256 := by
    change (UInt64.ofNat (ctx.maxBlkIdx.toNat * 256)).toNat / 2 ^ 8 * 2 ^ 8 = _
    rw [UInt64.toNat_ofNat_of_lt' (by rw [UInt64.size]; omega)]
    omega
  exact ⟨hlo, hhi, rfl, Pool.sound_init (by rw [← initPool]; omega) (by rw [← initPool]; omega), nofun⟩

namespace PoolOf

section

variable (hp : PoolOf ctx d k p)
include hp

lemma top_eq : p.top = ctx.maxBlkIdx.toNat := by
  rw [Pool.top, hp.lo, hp.hi, hp.shift]
  omega

lemma adds {nn : MmEntry} {base size : ℕ} (hsize : 0 < size) (hwrap : base + size < 2 ^ 63)
    (h : p.alloc2 base size = .ok (nn, p')) : PoolOf ctx d k p' ∧ (∀ e, e ∈ p'.entries ↔ e = nn ∨ e ∈ p.entries) ∧
      nn.offset = base / 256 ∧ base + size ≤ (nn.offset + nn.size) * 256 := by
  have hadds := hp.sound.alloc2 (by rw [hp.lo]; omega) (by rw [hp.shift]; omega) h
  have hmem := fun e => hadds.mem (e := e)
  have hserves := hadds.held.2
  rw [Pool.Serves, hadds.call] at hserves
  obtain ⟨as, bs, hes, rfl⟩ := hadds.split
  simp only [hp.lo, hp.shift] at hserves
  refine ⟨⟨hp.lo, hp.hi, hp.shift, hadds.sound, fun j hj ho => ?_⟩, hmem, by omega, by omega⟩
  obtain ⟨x, hx, hfirst⟩ := hp.mem j hj ho
  exact ⟨x, (hmem x).mpr (.inr hx), hfirst⟩

lemma add (h : addToPool (entry d k) p = .ok p') : PoolOf ctx d (k + 1) p' := by
  unfold addToPool at h
  by_cases ho : (entry d k).Occupies
  · rw [if_pos (show _ ∧ _ from ho), taken_eq_ok] at h
    obtain ⟨nn, h⟩ := h
    have := (entry d k).startAddress.toNat_lt
    have := (entry d k).dataSize.toNat_lt
    have hpos := ho.size_pos
    obtain ⟨hp', hmem, hfirst, hend⟩ := hp.adds hpos (by omega) h
    refine ⟨hp'.lo, hp'.hi, hp'.shift, hp'.sound, fun j hj hoj => ?_⟩
    by_cases hjk : j = k
    · subst hjk
      exact ⟨nn, (hmem nn).mpr (.inl rfl), hfirst, by rw [FatEntry.endBlock]; omega⟩
    · exact hp'.mem j (by omega) hoj
  · rw [if_neg (show ¬(_ ∧ _) from ho)] at h
    cases h
    refine ⟨hp.lo, hp.hi, hp.shift, hp.sound, fun j hj hoj => hp.mem j ?_ hoj⟩
    have : j ≠ k := by
      rintro rfl
      exact ho hoj
    omega

lemma offers (hk : n ≤ k) {m : ℕ} (hm : n + 3 ≤ m) (hle : m ≤ 2 ^ 16) (h : taken (p.alloc2 0 (256 * m)) = .ok p') :
    Offers ctx n d p' := by
  obtain ⟨nn, h⟩ := taken_eq_ok.mp h
  obtain ⟨hp', hmem, hfirst, hend⟩ := hp.adds (by omega) (by omega) h
  refine ⟨hp'.lo, hp'.shift, fun size mm p'' hsize halloc => ?_⟩
  have hadds := hp'.sound.alloc halloc
  have hheld := hadds.held
  rw [Pool.Held, Pool.Serves, hadds.call] at hheld
  have htop : p''.top = ctx.maxBlkIdx.toNat ∧ p''.shift = 8 := by
    obtain ⟨as, bs, -, rfl⟩ := hadds.split
    exact ⟨hp'.top_eq, hp'.shift⟩
  rw [htop.2] at hheld
  refine ⟨hheld.2, fun b hlo hhi => ⟨?_, by omega, fun i hi ho => ?_⟩⟩
  · have := hadds.apart ((hmem nn).mpr (.inl rfl))
    omega
  · obtain ⟨x, hx, hxfirst, hxend⟩ := hp'.mem i (by omega) ho
    have := hadds.apart hx
    omega

end

end PoolOf

end Pools

end Optee.RpmbFs
