import Optee.RpmbFs.Bytes
import Optee.RpmbFs.Layout

/-! Reading the table of the file system and writing its entries, on a device that is laid out properly. -/

namespace Optee.Rpmb.FatEntry

def stamp (e : FatEntry) (c : UInt32) : FatEntry := { e with writeCounter := c }

end Optee.Rpmb.FatEntry

namespace Optee.RpmbFs

open Lib.ByteStrings Lib.Effects Rpmb Mm

def Here (fh : Fh) (d : Device) (s : Fh × World) : Prop := s.1 = fh ∧ At d s.2

variable {K : Crypto} {ctx : Ctx} {φ : Faults} {d d' : Device} {fh : Fh} {n i : ℕ} {e : FatEntry}

section Monad

variable {α : Type} {P : World → Prop} {Q : α → World → Prop} {R : Stop → World → Prop}

lemma Spec.onDevice {p : Fs α} (h : Spec P p Q R) : Spec (fun s : Fh × World => s.1 = fh ∧ P s.2) (onDevice p)
    (fun a s => s.1 = fh ∧ Q a s.2) (fun e s => s.1 = fh ∧ R e s.2) := by
  rintro s ⟨hfh, hs⟩
  exact Spec.zoom (h s.2 hs) (fun a w hw => ⟨hfh, hw⟩) (fun e w hw => ⟨hfh, hw⟩)

variable {R : Stop → Fh × World → Prop}

lemma Spec.getFh_bind {P : Fh × World → Prop} {f : Fh → OnFh α} {Q : α → Fh × World → Prop}
    (h : ∀ fh, Spec (fun s => s.1 = fh ∧ P s) (f fh) Q R) : Spec P (getFh >>= f) Q R :=
  fun s hs => h s.1 s ⟨rfl, hs⟩

lemma Spec.modifyFh {P : Fh × World → Prop} {f : Fh → Fh} {Q : Unit → Fh × World → Prop}
    (h : ∀ s, P s → Q () (f s.1, s.2)) : Spec P (modifyFh f) Q R := h

end Monad

lemma fatAddress_div (i : ℕ) : fatAddress i / 256 = 2 + i := by
  rw [fatAddress, fatStartAddress, fatEntrySize]
  omega

lemma fatAddress_mod (i : ℕ) : fatAddress i % 256 = 0 := by
  rw [fatAddress, fatStartAddress, fatEntrySize]
  omega

lemma fatAddress_inj {j : ℕ} (h : fatAddress i = fatAddress j) : i = j := by
  have := congrArg (· / 256) h
  simp only [fatAddress_div] at this
  omega

lemma fatAddress_pos (i : ℕ) : 128 ≤ fatAddress i := by
  rw [fatAddress, fatStartAddress]
  omega

lemma span_block (i : ℕ) : span (fatAddress i) 256 = 1 := by
  rw [span, fatAddress_mod]

lemma stores_plain (d : Device) (b : ℕ) : Stores K none none d b 1 (d b).toList where
  length := by simp
  plain i hi := by
    obtain rfl : i = 0 := by omega
    refine congrArg Except.ok (bytes_ext fun x hx => ?_)
    rw [block_getD _ hx, Nat.zero_mul, zero_add, add_zero]

lemma fatEntryDirGetNext_spec (hi : 2 + i ≤ ctx.maxBlkIdx.toNat) :
    Spec (At d) (fatEntryDirGetNext K ctx φ i) (fun fe w => fe = entry d i ∧ At d w) (fun e _ => Struck φ e) := by
  have hread : Spec (At d) (teeRpmbRead K ctx φ (fatAddress i) 256 none none) _ _ :=
    teeRpmbRead_spec (by decide) (by rw [span_block]; decide) (by rw [span_block, fatAddress_div]; omega)
  rw [span_block, fatAddress_div, fatAddress_mod] at hread
  refine .bind (Q := fun b w => (block b 0 = d (2 + i)) ∧ At d w) (hread.ends ?_ ?_)
    (fun b => .pure (fun w hw => ⟨by rw [hw.1, entry], hw.2⟩))
  · rintro b w ⟨hw, B, hB, rfl⟩
    refine ⟨?_, hw⟩
    rw [hB.unique (stores_plain d (2 + i))]
    refine bytes_ext fun x hx => ?_
    rw [block_getD _ hx, getD_slice, if_pos (by omega), Nat.zero_mul, zero_add, zero_add]
  · rintro e w (hstruck | hno)
    · exact hstruck
    · exact absurd (stores_plain d (2 + i)) (hno _)

lemma setEntry_of_written (h : Written K none none (fatAddress i) e.bytes d d') : d' = setEntry d i e := by
  obtain ⟨tmp, hlen, -, henc⟩ := h
  rw [FatEntry.bytes_length, span_block, fatAddress_div] at henc
  rw [FatEntry.bytes_length, span_block] at hlen
  funext b
  by_cases hb : b = 2 + i
  · subst hb
    have hstored := henc.stored 0 (by decide)
    rw [fatAddress_mod, patch_all _ _ (by rw [hlen, FatEntry.bytes_length])] at hstored
    rw [setEntry, Function.update_self]
    refine (Except.ok.inj hstored).symm.trans ?_
    refine bytes_ext fun x hx => ?_
    rw [block_getD _ hx, Nat.zero_mul, zero_add]
    rfl
  · rw [setEntry_of_ne hb]
    exact henc.same b (by omega)

def Fh.stamp (fh : Fh) (c : UInt32) : Fh := { fh with fatEntry := fh.fatEntry.stamp c }

lemma writeFatEntry_spec (hi : 2 + i ≤ ctx.maxBlkIdx.toNat) (haddr : fh.rpmbFatAddress = fatAddress i) (upd : Bool) :
    Spec (Here fh d) (writeFatEntry K ctx φ upd)
      (fun _ s => ∃ c, Here (fh.stamp c) (setEntry d i (fh.fatEntry.stamp c)) s) (fun _ _ => True) := by
  have hpos := fatAddress_pos i
  have hwrite : ∀ c, Spec (Here (fh.stamp c) d)
      (onDevice (teeRpmbWrite K ctx φ (fatAddress i) (fh.fatEntry.stamp c).bytes none none))
      (fun _ s => ∃ c, Here (fh.stamp c) (setEntry d i (fh.fatEntry.stamp c)) s) (fun _ _ => True) := by
    intro c
    have hspan : span (fatAddress i) (fh.fatEntry.stamp c).bytes.length = 1 := by rw [FatEntry.bytes_length, span_block]
    refine (Spec.onDevice (teeRpmbWrite_spec (by omega) (by omega) (by rw [fatAddress_div]; omega))).mono
      (fun _ => id) ?_ (fun _ _ _ => trivial)
    rintro - s ⟨hfh, hw⟩
    exact ⟨c, hfh, setEntry_of_written hw⟩
  refine Spec.getFh_bind (fun fh0 => ?_)
  rintro s ⟨rfl, hs⟩
  have hmod : s.1.rpmbFatAddress % fatEntrySize = 0 := by rw [hs.1, haddr]; exact fatAddress_mod i
  rw [if_neg (by rw [hs.1]; omega), if_neg (not_not.mpr hmod)]
  refine Spec.bind (Q := fun _ s => ∃ c, Here (fh.stamp c) d s) ?_ (fun _ => ?_) s hs
  · cases upd with
    | true => exact .modify (fun s hs => ⟨s.2.wrCnt, by rw [hs.1]; rfl, hs.2⟩)
    | false => exact .pure (fun s hs => ⟨fh.fatEntry.writeCounter, hs⟩)
  · refine Spec.exists (fun c => Spec.getFh_bind (fun fh1 => ?_))
    rintro s ⟨rfl, hs⟩
    rw [hs.1]
    change Ends _ _ (onDevice (teeRpmbWrite K ctx φ fh.rpmbFatAddress (fh.fatEntry.stamp c).bytes none none) s)
    rw [haddr]
    exact hwrite c s hs

variable {fuel : ℕ}

section Find

def Names (d : Device) (name : List UInt8) (i : ℕ) : Prop := (entry d i).isActive = true ∧ cstr (entry d i).filename = name

instance (d : Device) (name : List UInt8) (i : ℕ) : Decidable (Names d name i) := inferInstanceAs (Decidable (_ ∧ _))

def findFrom (d : Device) (name : List UInt8) : ℕ → ℕ → Option ℕ
  | 0, _ => none
  | fuel + 1, i => if Names d name i then some i else if (entry d i).isLast then none else findFrom d name fuel (i + 1)

def find (ctx : Ctx) (d : Device) (name : List UInt8) : Option ℕ := findFrom d name ctx.maxBlkIdx.toNat 0

variable {name : List UInt8}

lemma Layout.findFrom_eq_some (h : Layout ctx n d) {k : ℕ} (hk : k ≤ n) (hfuel : n < k + fuel) :
    findFrom d name fuel k = some i ↔ k ≤ i ∧ i < n ∧ Names d name i ∧ ∀ j, k ≤ j → j < i → ¬Names d name j := by
  induction fuel generalizing k with
  | zero => omega
  | succ fuel ih =>
    rw [findFrom]
    by_cases hn : Names d name k
    · rw [if_pos hn, Option.some.injEq]
      constructor
      · rintro rfl
        refine ⟨Nat.le_refl k, ?_, hn, fun j hj hjk => absurd hj (not_le.mpr hjk)⟩
        refine Nat.lt_of_le_of_ne hk ?_
        rintro rfl
        rw [Names, h.unused] at hn
        cases hn.1
      · rintro ⟨hki, -, -, hfirst⟩
        by_contra hne
        exact hfirst k (Nat.le_refl k) (by omega) hn
    · rw [if_neg hn]
      by_cases hkn : k = n
      · rw [hkn, if_pos h.last]
        constructor
        · intro hno
          cases hno
        · omega
      · rw [if_neg (by rw [h.going k (by omega)]; decide), ih (by omega) (by omega)]
        constructor
        · rintro ⟨hki, hin, hi, hfirst⟩
          refine ⟨by omega, hin, hi, fun j hkj hji => ?_⟩
          by_cases hjk : j = k
          · exact hjk ▸ hn
          · exact hfirst j (by omega) hji
        · rintro ⟨hki, hin, hi, hfirst⟩
          have hne : k ≠ i := by
            rintro rfl
            exact hn hi
          exact ⟨by omega, hin, hi, fun j hkj hji => hfirst j (by omega) hji⟩

lemma Layout.find_eq_some (h : Layout ctx n d) :
    find ctx d name = some i ↔ i < n ∧ Names d name i ∧ ∀ j < i, ¬Names d name j := by
  have := h.room
  rw [find, h.findFrom_eq_some (Nat.zero_le n) (by omega)]
  simp

lemma matches_iff : fh.matches (entry d i) = true ↔ Names d (cstr fh.filename) i := by
  rw [Fh.matches, Names, Bool.and_eq_true, decide_eq_true_eq, and_comm, eq_comm (a := cstr fh.filename)]

end Find

def Fh.found (fh : Fh) (d : Device) : Option ℕ → Fh
  | some i => fh.at (fatAddress i) (entry d i)
  | none => fh

lemma readFatFrom_find (h : Layout ctx n d) {k : ℕ} (hk : k ≤ n) (hfuel : n < k + fuel) :
    Spec (Here fh d) (readFatFrom K ctx φ fuel k false none)
      (fun r s => r.2 = (false, none) ∧ Here (fh.found d (findFrom d (cstr fh.filename) fuel k)) d s)
      (fun e _ => Struck φ e) := by
  have hroom := h.room
  induction fuel generalizing k with
  | zero => omega
  | succ fuel ih =>
    rw [findFrom]
    refine .bind (Q := fun fe s => fe = entry d k ∧ Here fh d s) ?_ (fun fe => .and_left ?_)
    · exact (Spec.onDevice (fatEntryDirGetNext_spec (by omega))).ends
        (fun fe s hs => ⟨hs.2.1, hs.1, hs.2.2⟩) (fun e s hs => hs.2)
    rintro rfl
    refine Spec.getFh_bind (fun fh0 => ?_)
    rintro s ⟨rfl, hs⟩
    rw [hs.1]
    by_cases hn : Names d (cstr fh.filename) k
    · have hm : fh.matches (entry d k) = true := matches_iff.mpr hn
      rw [hm, if_pos hn]
      exact ⟨rfl, congrArg (fun fh => fh.at (fatAddress k) (entry d k)) hs.1, hs.2⟩
    have hm : fh.matches (entry d k) = false := Bool.eq_false_iff.mpr (fun hm => hn (matches_iff.mp hm))
    rw [hm, if_neg hn]
    by_cases hkn : k = n
    · subst hkn
      refine Spec.bind (Q := fun _ s => Here fh d s) (Spec.modifyFh (fun s hs => hs)) (fun _ => ?_) s hs
      rw [if_pos (.inr h.last), if_pos h.last]
      exact .pure (fun s hs => ⟨rfl, hs⟩)
    · have hlast := h.going k (by omega)
      refine Spec.bind (Q := fun _ s => Here fh d s) (Spec.modifyFh (fun s hs => hs)) (fun _ => ?_) s hs
      rw [if_neg (by rw [hlast]; decide), if_neg (by rw [hlast]; decide)]
      exact ih (by omega) (by omega)

def Seen (d : Device) (fh : Fh) (i k : ℕ) (s : Fh) (found : Bool) : Prop :=
  if k ≤ i then found = false ∧ ∃ a e, s = fh.at a e else found = true ∧ s = fh.at (fatAddress i) (entry d i)

lemma Seen.step {s : Fh} {found : Bool} {k : ℕ} (hi : Names d (cstr fh.filename) i)
    (hfirst : ∀ j < i, ¬Names d (cstr fh.filename) j) (h : Seen d fh i k s found) :
    Seen d fh i (k + 1) ((if s.matches (entry d k) && !found then s.at (fatAddress k) (entry d k) else s).reuse
      (fatAddress k) (entry d k)) (found || (s.matches (entry d k) && !found)) := by
  have hkeep : ∀ a e, (fh.at (fatAddress i) (entry d i)).reuse a e = fh.at (fatAddress i) (entry d i) := by
    intro a e
    refine if_neg (fun h => ?_)
    have : fatAddress i = 0 := h.2
    have := fatAddress_pos i
    omega
  unfold Seen at h ⊢
  split_ifs at h with hk
  · obtain ⟨rfl, a, e, rfl⟩ := h
    have hm : (fh.at a e).matches (entry d k) = true ↔ Names d (cstr fh.filename) k := matches_iff
    by_cases hki : k = i
    · subst hki
      rw [hm.mpr hi, if_neg (by omega)]
      exact ⟨rfl, hkeep _ _⟩
    rw [Bool.eq_false_iff.mpr (fun hno => hfirst k (by omega) (hm.mp hno)), if_pos (by omega)]
    refine ⟨rfl, ?_⟩
    simp only [Bool.false_and, Bool.false_eq_true, if_false, Fh.reuse]
    split_ifs
    · exact ⟨_, _, rfl⟩
    · exact ⟨_, _, rfl⟩
  · obtain ⟨rfl, rfl⟩ := h
    rw [if_neg (by omega), Bool.not_true, Bool.and_false]
    exact ⟨rfl, hkeep _ _⟩

lemma readFatFrom_pool (h : Layout ctx n d) {k : ℕ} {p : Pool} {found : Bool} (hin : i < n)
    (hi : Names d (cstr fh.filename) i) (hfirst : ∀ j < i, ¬Names d (cstr fh.filename) j) (hk : k ≤ n)
    (hfuel : n < k + fuel) (hp : PoolOf ctx d k p) :
    Spec (fun s => Seen d fh i k s.1 found ∧ At d s.2) (readFatFrom K ctx φ fuel k found (some p))
      (fun r s => ∃ p', PoolOf ctx d (n + 1) p' ∧ Here (fh.at (fatAddress i) (entry d i)) d s ∧ r = (fatAddress n, false, some p'))
      (fun _ _ => True) := by
  have hroom := h.room
  induction fuel generalizing k p found with
  | zero => omega
  | succ fuel ih =>
    rintro s ⟨hseen, hs⟩
    have hread : Spec (Here s.1 d) (onDevice (fatEntryDirGetNext K ctx φ k)) (fun fe t => fe = entry d k ∧ Here s.1 d t)
        (fun _ _ => True) :=
      (Spec.onDevice (fatEntryDirGetNext_spec (by omega))).ends
        (fun fe s hs => ⟨hs.2.1, hs.1, hs.2.2⟩) (fun _ _ _ => trivial)
    refine Spec.bind hread (fun fe => .and_left ?_) s ⟨rfl, hs⟩
    rintro rfl
    refine Spec.getFh_bind (fun fh0 => ?_)
    rintro t ⟨rfl, ht⟩
    rw [ht.1]
    refine Spec.bind (Q := fun _ t => Here (if s.1.matches (entry d k) && !found then s.1.at (fatAddress k) (entry d k) else s.1) d t)
      (Spec.modifyFh (fun t ht => ⟨by rw [ht.1], ht.2⟩)) (fun _ => ?_) t ht
    refine .bind (Spec.ofResult (fun q hq s hs => ⟨hp.add hq, hs⟩)
      (fun _ _ _ _ => trivial)) (fun q => .and_left (fun hq => ?_))
    refine .bind (Q := fun _ t => Seen d fh i (k + 1) t.1 (found || (s.1.matches (entry d k) && !found)) ∧ At d t.2)
      (Spec.modifyFh (fun t ht => ⟨?_, ht.2⟩)) (fun _ => ?_)
    · rw [ht.1]
      exact hseen.step hi hfirst
    by_cases hkn : k = n
    · subst hkn
      refine Spec.getFh_bind (fun fh1 => ?_)
      rintro t ⟨rfl, ht, hd⟩
      rw [Seen, if_neg (by omega)] at ht
      rw [if_pos h.last, ht.2]
      have hne : (fh.at (fatAddress i) (entry d i)).rpmbFatAddress ≠ fatAddress k := fun heq => hin.ne (fatAddress_inj heq)
      exact ⟨q, hq, ⟨ht.2, hd⟩, by rw [decide_eq_false hne]⟩
    · refine Spec.getFh_bind (fun fh1 => ?_)
      rw [if_neg (by rw [h.going k (by omega)]; decide)]
      exact (ih (by omega) (by omega) hq).of_imp fun _ => And.right

section ReadFat

variable {p : Pool}

lemma fatEnd_eq (n : ℕ) : fatAddress n + fatEntrySize + 0 = 256 * (n + 3) := by
  rw [fatAddress, fatStartAddress, fatEntrySize]
  omega

lemma representFat_keep (h : Layout ctx n d) (hp : PoolOf ctx d (n + 1) p) :
    Spec (Here fh d) (representFat K ctx φ (fatAddress n) false (some p))
      (fun r s => (∃ p', r = some p' ∧ Offers ctx n d p') ∧ Here fh d s) (fun _ _ => True) := by
  have hroom := h.room
  rw [representFat]
  simp only [Bool.false_eq_true, if_false]
  rw [fatEnd_eq]
  refine .bind (Q := fun p' s => Offers ctx n d p' ∧ Here fh d s) (Spec.ofResult (fun p' hp' s hs => ⟨?_, hs⟩)
    (fun _ _ _ _ => trivial)) (fun p' s hs => ⟨⟨p', rfl, hs.1⟩, hs.2⟩)
  have := ctx.maxBlkIdx.toNat_lt
  exact hp.offers (Nat.le_succ n) (Nat.le_refl _) (by omega) hp'

lemma readFat_find (h : Layout ctx n d) :
    Spec (Here fh d) (readFat K ctx φ none) (fun _ s => Here (fh.found d (find ctx d (cstr fh.filename))) d s)
      (fun e _ => Struck φ e ∨ find ctx d (cstr fh.filename) = none) := by
  have hroom := h.room
  refine .bind
    ((readFatFrom_find h (Nat.zero_le n) (by omega)).fails (fun e s hs => .inl hs)) (fun r => ?_)
  obtain ⟨a, b, p⟩ := r
  refine .and_left (fun hr => ?_)
  cases hr
  refine .bind (Q := fun _ s => Here (fh.found d (find ctx d (cstr fh.filename))) d s) (.pure (fun s hs => hs))
    (fun q => Spec.getFh_bind (fun fh0 => ?_))
  rintro s ⟨rfl, hs⟩
  split_ifs with h0
  · rw [hs.1] at h0
    cases hf : find ctx d (cstr fh.filename) with
    | some i =>
      rw [hf] at h0
      have hpos := fatAddress_pos i
      have : fatAddress i = 0 := h0
      omega
    | none => exact .inr rfl
  · exact hs

lemma readFat_match (h : Layout ctx n d) (hf : find ctx d (cstr fh.filename) = some i) :
    Spec (Here fh d) (readFat K ctx φ (some (initPool ctx)))
      (fun q s => (∃ p, q = some p ∧ Offers ctx n d p) ∧ Here (fh.at (fatAddress i) (entry d i)) d s) (fun _ _ => True) := by
  obtain ⟨hi, hn, hfirst⟩ := h.find_eq_some.mp hf
  have hpos := fatAddress_pos i
  have hroom := h.room
  have hstart : ∀ s, Here fh d s → Seen d fh i 0 s.1 false ∧ At d s.2 := fun s hs =>
    ⟨by rw [Seen]; exact ⟨rfl, _, _, hs.1⟩, hs.2⟩
  refine .bind ((readFatFrom_pool h hi hn hfirst (Nat.zero_le n) (by omega) (poolOf_zero (by omega))).of_imp hstart) ?_
  rintro ⟨a, b, p⟩
  refine Spec.exists (fun p' => .and_left (fun hp' => ?_))
  rintro s ⟨hs, hr⟩
  cases hr
  refine Spec.bind (representFat_keep h hp') (fun q => Spec.getFh_bind (fun fh0 => ?_)) s hs
  rintro s ⟨rfl, hq, hs⟩
  rw [if_neg (by rw [hs.1]; exact Nat.ne_of_gt (by change 0 < fatAddress i; omega))]
  exact ⟨hq, hs⟩

end ReadFat

end Optee.RpmbFs
