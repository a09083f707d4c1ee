import Optee.Vm.Protection

/-! Whether a user mode context may access a buffer, and whether the buffer touches its private memory. -/

namespace Optee.Vm

open List TeeResult

namespace Access

def read : UInt32 := 1
def write : UInt32 := 2
def anyOwner : UInt32 := 4
def nonsecure : UInt32 := 0x10000000
def secure : UInt32 := 0x20000000

end Access

def Flag.nonpriv : UInt16 := ephemeral ||| permanent ||| shareable

section Checks

variable (cfg : Config) (regions : List Region)

def bufferInside (b bl a al : ℕ) : Bool :=
  bl ≠ 0 && al ≠ 0 && b + bl - 1 < cfg.wordSize && a + al - 1 < cfg.wordSize && a ≤ b && b + bl - 1 ≤ a + al - 1

def vmBufIsInsideUmPrivate (va size : ℕ) : Bool :=
  regions.any fun r => r.flags &&& Flag.nonpriv = 0 && bufferInside cfg va size r.va r.size

def vmBufIntersectsUmPrivate (va size : ℕ) : Bool :=
  regions.any fun r => r.attr &&& Flag.nonpriv = 0 && buffersIntersect cfg va size r.va r.size

def regionAt (ua : ℕ) : Option Region := regions.find? fun r => bufferInside cfg ua 1 r.va r.size

def Allows (flags : UInt32) (attr : UInt16) : Prop :=
  (flags &&& Access.nonsecure ≠ 0 → attr &&& Mattr.secure = 0) ∧
    (flags &&& Access.secure ≠ 0 → attr &&& Mattr.secure ≠ 0) ∧
    (flags &&& Access.write ≠ 0 → attr &&& Mattr.uw ≠ 0) ∧ (flags &&& Access.read ≠ 0 → attr &&& Mattr.ur ≠ 0)

instance (flags : UInt32) (attr : UInt16) : Decidable (Allows flags attr) := inferInstanceAs (Decidable (_ ∧ _))

def checkPage (flags : UInt32) (a : ℕ) : TeeResult Unit := do
  let r ← orError .accessDenied (regionAt cfg regions a)
  if Allows flags r.attr then .ok () else .error .accessDenied

def checkPages (flags : UInt32) : ℕ → ℕ → TeeResult Unit
  | _, 0 => .ok ()
  | a, n + 1 => do
    checkPage cfg regions flags a
    checkPages flags (a + smallPageSize) n

def vmCheckAccessRights (flags : UInt32) (uaddr len : ℕ) : TeeResult Unit :=
  if cfg.wordSize ≤ uaddr + len then .error .accessDenied
  else if flags &&& Access.nonsecure ≠ 0 ∧ flags &&& Access.secure ≠ 0 then .error .accessDenied
  else if flags &&& Access.anyOwner = 0 ∧ vmBufIsInsideUmPrivate cfg regions uaddr len = false then .error .accessDenied
  else
    let a := rounddown uaddr smallPageSize
    checkPages cfg regions flags a (roundup (uaddr + len - a) smallPageSize / smallPageSize)

end Checks

variable {cfg : Config} {regions : List Region} {r : Region} {flags : UInt32} {a b bl n : ℕ}

lemma bufferInside_contains (h : bufferInside cfg b bl r.va r.size = true) (hlo : b ≤ a) (hhi : a < b + bl) :
    r.Contains a := by
  simp only [bufferInside, Bool.and_eq_true, decide_eq_true_eq] at h
  refine ⟨h.1.2.trans hlo, ?_⟩
  rw [Region.endVa]
  omega

lemma checkPages_ok (h : checkPages cfg regions flags a n = .ok ()) {i : ℕ} (hi : i < n) :
    checkPage cfg regions flags (a + i * smallPageSize) = .ok () := by
  induction n generalizing a i with
  | zero => exact absurd hi (Nat.not_lt_zero i)
  | succ n ih =>
    obtain ⟨⟨⟩, hpage, hrest⟩ := bind_eq_ok.mp h
    cases i with
    | zero => simpa using hpage
    | succ i =>
      have := ih hrest (Nat.lt_of_succ_lt_succ hi)
      rwa [add_assoc, add_comm smallPageSize, ← Nat.succ_mul] at this

lemma contains_of_page (hr : Placed cfg r) (hb : smallPageSize ∣ b) (hc : r.Contains b) (hlo : b ≤ a)
    (hhi : a < b + smallPageSize) : r.Contains a := by
  obtain ⟨k, hk⟩ := Nat.dvd_add hr.va_aligned hr.size_aligned
  obtain ⟨j, rfl⟩ := hb
  refine ⟨hc.1.trans hlo, hhi.trans_le ?_⟩
  have hlt : smallPageSize * j < smallPageSize * k := hk ▸ hc.2
  rw [Region.endVa, hk]
  exact Nat.mul_le_mul_left _ (Nat.lt_of_mul_lt_mul_left hlt)

lemma exists_of_checkPage (hs : Sound cfg regions) (hb : smallPageSize ∣ b) (h : checkPage cfg regions flags b = .ok ())
    (hlo : b ≤ a) (hhi : a < b + smallPageSize) : ∃ r ∈ regions, r.Contains a ∧ Allows flags r.attr := by
  obtain ⟨r, hr, hallows⟩ := bind_eq_ok.mp h
  rw [orError_eq_ok] at hr
  split_ifs at hallows with hok
  have hmem := mem_of_find?_eq_some hr
  have hfound : bufferInside cfg b 1 r.va r.size = true := by simpa using find?_some hr
  have hc := bufferInside_contains hfound le_rfl (Nat.lt_succ_self b)
  exact ⟨r, hmem, contains_of_page (hs.placed r hmem) hb hc hlo hhi, hok⟩

lemma exists_of_checkPages {uaddr len : ℕ} (hs : Sound cfg regions)
    (h : checkPages cfg regions flags (rounddown uaddr smallPageSize)
      (roundup (uaddr + len - rounddown uaddr smallPageSize) smallPageSize / smallPageSize) = .ok ())
    (hlo : uaddr ≤ a) (hhi : a < uaddr + len) : ∃ r ∈ regions, r.Contains a ∧ Allows flags r.attr := by
  have hstart : smallPageSize ∣ rounddown uaddr smallPageSize := Nat.dvd_mul_left _ _
  have hle : rounddown uaddr smallPageSize ≤ uaddr := Nat.div_mul_le_self _ _
  generalize rounddown uaddr smallPageSize = s at h hstart hle
  rw [roundup] at h
  have hi := checkPages_ok h (i := (a - s) / smallPageSize) (by unfold smallPageSize; omega)
  exact exists_of_checkPage hs (Nat.dvd_add hstart (Nat.dvd_mul_left _ _)) hi
    (by unfold smallPageSize; omega) (by unfold smallPageSize; omega)

theorem access_rights_sound (cfg : Config) (regions : List Region) (flags : UInt32) (uaddr len : ℕ)
    (hs : Sound cfg regions) (h : vmCheckAccessRights cfg regions flags uaddr len = .ok ()) :
    uaddr + len < cfg.wordSize ∧ ¬(flags &&& Access.nonsecure ≠ 0 ∧ flags &&& Access.secure ≠ 0) ∧
      ∀ a, uaddr ≤ a → a < uaddr + len → ∃ r ∈ regions, r.Contains a ∧ Allows flags r.attr ∧
        (flags &&& Access.anyOwner = 0 → r.flags &&& Flag.nonpriv = 0) := by
  rw [vmCheckAccessRights] at h
  split_ifs at h with hwrap hboth hpriv
  refine ⟨not_le.mp hwrap, hboth, fun a hlo hhi => ?_⟩
  obtain ⟨r, hr, hra, hallows⟩ := exists_of_checkPages hs h hlo hhi
  refine ⟨r, hr, hra, hallows, fun hany => ?_⟩
  -- the private region around the whole buffer is the one found for this byte
  have hinside : vmBufIsInsideUmPrivate cfg regions uaddr len = true := by
    simpa using fun hf => hpriv ⟨hany, hf⟩
  obtain ⟨x, hx, hxr⟩ := any_eq_true.mp hinside
  rw [Bool.and_eq_true, decide_eq_true_eq] at hxr
  rw [hs.ascending.eq_of_covers hr hx hra (bufferInside_contains hxr.2 hlo hhi)]
  exact hxr.1

def toyMapped : List Region :=
  (stateOf (vmMapPad toyConfig 0x100000 0x1000 (Mattr.pr ||| Mattr.ur).toUInt32 0 (toyMobj 1) 0 0 0 0 ⟨[], []⟩)).regions

theorem access_rights_sound_toy :
    ∃ r ∈ toyMapped, r.Contains 0x100010 ∧ Allows Access.read r.attr ∧
      (Access.read &&& Access.anyOwner = 0 → r.flags &&& Flag.nonpriv = 0) :=
  (access_rights_sound toyConfig toyMapped Access.read 0x100010 0x20
    (keeps_stateOf (vmMapPad_keeps sound_stable trivial _ _ _ _ _ _ _ _) sound_nil) (by decide +kernel)).2.2 _ (by decide) (by decide)

def FromMapPad (r : Region) : Prop :=
  ∃ attr, ∃ prot : UInt32, attrOf r.mobj = .ok attr ∧ r.attr = attr ||| prot.toUInt16

lemma testBit_or (x y : UInt16) (i : ℕ) : (x ||| y).toNat.testBit i = (x.toNat.testBit i || y.toNat.testBit i) := by
  rw [UInt16.toNat_or, Nat.testBit_or]

lemma FromMapPad.valid (h : FromMapPad r) : r.attr.toNat.testBit 0 = true := by
  obtain ⟨attr, prot, hattr, hr⟩ := h
  have hvalid : Mattr.validBlock.toNat.testBit 0 = true := by decide
  dsimp only [attrOf] at hattr
  generalize (if r.mobj.secure = true then Mattr.secure else 0) = secure at hattr
  split_ifs at hattr
  · cases hattr
    simp only [hr, testBit_or, hvalid, Bool.true_or]
  cases hc : r.mobj.cattr with
  | none => simp [hc] at hattr
  | some cattr =>
    simp only [hc, Except.ok.injEq] at hattr
    simp only [hr, ← hattr, testBit_or, hvalid, Bool.or_true, Bool.true_or]

lemma FromMapPad.skipped (h : FromMapPad r) : r.attr &&& Flag.nonpriv ≠ 0 := by
  intro h0
  have hbit := congrArg (fun x : UInt16 => x.toNat.testBit 0) h0
  simp only [UInt16.toNat_and, Nat.testBit_and, h.valid] at hbit
  exact absurd hbit (by decide)

def Touches (regions : List Region) (shared : UInt16) (va size : ℕ) : Prop :=
  ∃ r ∈ regions, r.flags &&& shared = 0 ∧ ∃ a, va ≤ a ∧ a < va + size ∧ r.Contains a

theorem intersects_private_iff (cfg : Config) (regions : List Region) (shared : UInt16) (va size : ℕ)
    (hr : ∀ r ∈ regions, FromMapPad r) :
    (vmBufIntersectsUmPrivate cfg regions va size = true ↔ Touches regions shared va size) ↔
      ∀ r ∈ regions, r.flags &&& shared = 0 → ∀ a, va ≤ a → a < va + size → ¬r.Contains a := by
  rw [vmBufIntersectsUmPrivate, any_eq_false.mpr fun r hmem => by simp [(hr r hmem).skipped]]
  constructor
  · intro h r hmem hflags a hlo hhi hc
    exact Bool.false_ne_true (h.mpr ⟨r, hmem, hflags, a, hlo, hhi, hc⟩)
  · intro h
    refine ⟨fun hf => absurd hf Bool.false_ne_true, ?_⟩
    rintro ⟨r, hmem, hflags, a, hlo, hhi, hc⟩
    exact absurd hc (h r hmem hflags a hlo hhi)

theorem intersects_private_iff_toy :
    ¬(vmBufIntersectsUmPrivate toyConfig toyMapped 0x100000 0x10 = true ↔
      Touches toyMapped Flag.ephemeral 0x100000 0x10) := by
  have hmapped : ∀ r ∈ toyMapped, FromMapPad r := by
    rintro r (_ | _)
    · exact ⟨_, (Mattr.pr ||| Mattr.ur).toUInt32, rfl, by decide⟩
    · contradiction
  rw [intersects_private_iff toyConfig toyMapped Flag.ephemeral 0x100000 0x10 hmapped]
  intro h
  exact absurd (h _ mem_cons_self (by decide +kernel) 0x100000 le_rfl (by decide)) (by decide +kernel)

theorem private_buffer_not_seen :
    vmBufIsInsideUmPrivate toyConfig toyMapped 0x100000 0x10 = true ∧
      vmBufIntersectsUmPrivate toyConfig toyMapped 0x100000 0x10 = false := by
  decide +kernel

end Optee.Vm
