import Mathlib.Algebra.Group.Nat.Defs
import Mathlib.Data.Finset.Card
import Mathlib.Logic.Function.Iterate

/-! Looking up a symbol in the hash table of a loaded module. -/

namespace Optee.Ldelf.Symbols

inductive Bind
  | global
  | weak
  | other
  deriving DecidableEq

inductive Shndx
  | undef
  | xindex
  | index
  deriving DecidableEq

/-- `addressed` stands for `STT_NOTYPE`, `STT_OBJECT` and `STT_FUNC`. -/
inductive SymType
  | addressed
  | tls
  | other

structure Sym where
  name : ℕ
  bind : Bind
  type : SymType
  shndx : Shndx
  value : ℕ

/-- `dynstr` is the string that starts at an offset of the table, `hashtab` the words from its address on. -/
structure Elf where
  hashtabAddr : ℕ
  hashtab : ℕ → UInt32
  dynsymtab : ℕ → Sym
  numDynsyms : ℕ
  dynstr : ℕ → List UInt8
  dynstrSize : ℕ
  loadAddr : ℕ
  maxAddr : ℕ

namespace Elf

variable (elf : Elf)

def nbuckets : ℕ := (elf.hashtab 0).toNat

def nchains : ℕ := (elf.hashtab 1).toNat

def bucket (n : ℕ) : ℕ := (elf.hashtab (2 + n)).toNat

def chain (n : ℕ) : ℕ := (elf.hashtab (2 + elf.nbuckets + n)).toNat

def checkHashtab : Bool :=
  let sz := 4 * (2 + elf.nbuckets + elf.nchains)
  elf.hashtabAddr % 4 = 0 && elf.loadAddr ≤ elf.hashtabAddr && elf.hashtabAddr + sz < 2 ^ 64 &&
    elf.hashtabAddr + sz ≤ elf.maxAddr

end Elf

inductive Stop
  | badFormat
  | notSupported

def elfHash (name : List UInt8) : UInt32 :=
  name.foldl (fun h b =>
    let h := (h <<< 4) + b.toUInt32
    let g := h &&& 0xf0000000
    (if g ≠ 0 then h ^^^ (g >>> 24) else h) &&& ~~~g) 0

section

variable (elf : Elf) (name : List UInt8) (weakOk : Bool)

/-- The value comes with the symbol that it is taken from. -/
def resolveSym (s : Sym) : Except Stop (Option (Sym × ℕ)) :=
  if s.name = 0 then .ok none
  else if elf.dynstrSize < s.name then .error .badFormat
  else if name ≠ elf.dynstr s.name then .ok none
  else if ¬(s.bind = .global ∨ weakOk ∧ s.bind = .weak) then .ok none
  else if s.bind = .weak ∧ s.shndx = .undef then .ok (some (s, 0))
  else if s.shndx = .undef ∨ s.shndx = .xindex then .ok none
  else match s.type with
    | .addressed =>
      if elf.maxAddr - elf.loadAddr < s.value then .error .badFormat else .ok (some (s, s.value + elf.loadAddr))
    | .tls => .ok (some (s, s.value))
    | .other => .error .notSupported

def walk : ℕ → ℕ → Option (Except Stop (Option (Sym × ℕ)))
  | 0, _ => none
  | turns + 1, n =>
    if n = 0 then some (.ok none)
    else if elf.nchains ≤ n ∨ elf.numDynsyms ≤ n then some (.error .badFormat)
    else match resolveSym elf name weakOk (elf.dynsymtab n) with
      | .ok none => walk turns (elf.chain n)
      | r => some r

def start : ℕ := elf.bucket ((elfHash name).toNat % elf.nbuckets)

/-- A division by zero has no result either. -/
def resolveSymHelper (turns : ℕ) : Option (Except Stop (Option (Sym × ℕ))) :=
  if elf.nbuckets = 0 then none else walk elf name weakOk turns (start elf name)

structure GoesOn (n : ℕ) : Prop where
  ne_zero : n ≠ 0
  chain : n < elf.nchains
  dynsym : n < elf.numDynsyms
  other : resolveSym elf name weakOk (elf.dynsymtab n) = .ok none

def node (k : ℕ) : ℕ := elf.chain^[k] (start elf name)

variable {elf name weakOk}

lemma walk_eq_none_iff {turns n : ℕ} :
    walk elf name weakOk turns n = none ↔ ∀ k < turns, GoesOn elf name weakOk (elf.chain^[k] n) := by
  induction turns generalizing n with
  | zero => simp [walk]
  | succ turns ih =>
    have hstep : walk elf name weakOk (turns + 1) n = none ↔
        GoesOn elf name weakOk n ∧ walk elf name weakOk turns (elf.chain n) = none := by
      rw [walk]
      split_ifs with h0 hout
      · exact iff_of_false nofun fun h => h.1.ne_zero h0
      · exact iff_of_false nofun fun h => by have := h.1.chain; have := h.1.dynsym; omega
      · split
        next hres => exact (and_iff_right ⟨h0, by omega, by omega, hres⟩).symm
        next hres => exact iff_of_false nofun fun h => hres h.1.other
    rw [hstep, ih, Nat.forall_lt_succ_left]
    rfl

lemma node_add (m n : ℕ) : node elf name (m + n) = elf.chain^[m] (node elf name n) := Function.iterate_add_apply ..

/-- Once an entry has been seen twice, the same entries follow again. -/
lemma goesOn_of_repeats {i j : ℕ} (hij : i < j) (hall : ∀ k ≤ j, GoesOn elf name weakOk (node elf name k))
    (heq : node elf name i = node elf name j) (k : ℕ) : GoesOn elf name weakOk (node elf name k) := by
  induction k using Nat.strong_induction_on with
  | h k ih =>
    by_cases hk : k ≤ j
    · exact hall k hk
    · have hback : node elf name k = node elf name (k - j + i) := by
        rw [node_add, heq, ← node_add, Nat.sub_add_cancel (by omega)]
      rw [hback]
      exact ih _ (by omega)

end

theorem lookup_finishes_iff (elf : Elf) (name : List UInt8) (weakOk : Bool) :
    resolveSymHelper elf name weakOk (elf.nchains + 1) ≠ none ↔
      elf.nbuckets ≠ 0 ∧ ∀ i j, i < j → (∀ k ≤ j, GoesOn elf name weakOk (node elf name k)) →
        node elf name i ≠ node elf name j := by
  unfold resolveSymHelper
  split_ifs with h0
  · exact iff_of_false (· rfl) fun h => h.1 h0
  rw [Ne, walk_eq_none_iff, and_iff_right h0]
  constructor
  · intro hends i j hij hall heq
    exact hends fun k _ => goesOn_of_repeats hij hall heq k
  · intro hfresh hall
    obtain ⟨i, hi, j, hj, hne, heq⟩ := Finset.exists_ne_map_eq_of_card_lt_of_maps_to
      (s := Finset.range (elf.nchains + 1)) (t := Finset.range elf.nchains) (by simp) (f := node elf name)
      fun k hk => Finset.mem_coe.mpr (Finset.mem_range.mpr (hall k (Finset.mem_range.mp hk)).chain)
    rw [Finset.mem_range] at hi hj
    obtain hlt | hlt := Nat.lt_or_gt_of_ne hne
    · exact hfresh i j hlt (fun k hk => hall k (by omega)) heq
    · exact hfresh j i hlt (fun k hk => hall k (by omega)) heq.symm

def toyCyclic : Elf where
  hashtabAddr := 0
  hashtab n := if n = 1 then 2 else if n = 3 then 0 else 1
  dynsymtab _ := ⟨0, .global, .addressed, .index, 0⟩
  numDynsyms := 2
  dynstr _ := []
  dynstrSize := 1
  loadAddr := 0
  maxAddr := 4096

theorem cyclic_chain_accepted :
    toyCyclic.checkHashtab = true ∧ ∀ turns, resolveSymHelper toyCyclic [] false turns = none := by
  refine ⟨by decide, fun turns => walk_eq_none_iff.mpr fun k _ => ?_⟩
  have hfixed : toyCyclic.chain^[k] (start toyCyclic []) = 1 := Function.iterate_fixed (by decide) k
  rw [hfixed]
  exact ⟨by decide, by decide, by decide, rfl⟩

end Optee.Ldelf.Symbols
