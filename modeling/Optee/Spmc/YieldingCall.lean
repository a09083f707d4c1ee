import Optee.TeeResult

/-! The message of a yielding call: where the call reaches in the memory the normal world shares. -/

namespace Optee.Spmc.YieldingCall

structure MobjFfa where
  size : ℕ
  pageOffset : ℕ
  smem : Option ℕ

def MobjFfa.getVa (mobj : MobjFfa) (offset : ℕ) : Option ℕ :=
  if mobj.size ≤ offset then none else mobj.smem.map (· + offset + mobj.pageOffset)

def sizeofMsgArg : ℕ := 32

def numParamsOffset : ℕ := 28

def getArgSize (numParams : ℕ) : ℕ := sizeofMsgArg + 32 * numParams

def maxNumParams : ℕ := (4096 - sizeofMsgArg) / 32

def szRpc : ℕ := getArgSize 4

structure Access where
  va : ℕ
  len : ℕ

/-- What a call reads of the message itself, the structures it passes to its handlers, and what it returns. -/
structure Call where
  reads : List Access
  handed : List Access
  rv : TeeResult Unit

def yieldingCallWithArg (mobj : Option MobjFfa) (incMap : TeeResult Unit) (offset numParams : UInt32)
    (teeEntryStd : TeeResult Unit) : Call :=
  match mobj, incMap with
  | none, _ => ⟨[], [], .error .badParameters⟩
  | some _, .error e => ⟨[], [], .error e⟩
  | some mobj, .ok () =>
    -- The second check is on the size of the header, wherever the message is.
    match mobj.getVa offset.toNat, mobj.getVa sizeofMsgArg with
    | some arg, some _ =>
      let reads := [⟨arg + numParamsOffset, 4⟩]
      let sz := getArgSize numParams.toNat
      if maxNumParams < numParams.toNat then ⟨reads, [], .error .badParameters⟩
      else
        match mobj.getVa (offset.toNat + sz), mobj.getVa (offset.toNat + sz + szRpc) with
        | some rpcArg, some _ => ⟨reads, [⟨arg, sz⟩, ⟨rpcArg, szRpc⟩], teeEntryStd⟩
        | _, _ => ⟨reads, [], .error .badParameters⟩
    | _, _ => ⟨[], [], .error .badParameters⟩

def MobjFfa.Inside (mobj : MobjFfa) (a : Access) : Prop :=
  ∃ smem, mobj.smem = some smem ∧ smem + mobj.pageOffset ≤ a.va ∧ a.va + a.len ≤ smem + mobj.pageOffset + mobj.size

def Call.Within (call : Call) (mobj : Option MobjFfa) (offset numParams : UInt32) : Prop :=
  (∀ a ∈ call.reads ++ call.handed, ∃ m, mobj = some m ∧ m.Inside a) ∧
    (call.handed ≠ [] → ∃ m, mobj = some m ∧ offset.toNat + getArgSize numParams.toNat + szRpc ≤ m.size)

variable {mobj : MobjFfa} {offset va : ℕ}

lemma getVa_eq_some : mobj.getVa offset = some va ↔
    offset < mobj.size ∧ ∃ smem, mobj.smem = some smem ∧ va = smem + offset + mobj.pageOffset := by
  unfold MobjFfa.getVa
  split_ifs with h
  · simp only [false_iff]
    omega
  rw [Option.map_eq_some_iff]
  constructor
  · rintro ⟨smem, hsmem, rfl⟩
    exact ⟨by omega, smem, hsmem, rfl⟩
  · rintro ⟨-, smem, hsmem, rfl⟩
    exact ⟨smem, hsmem, rfl⟩

lemma inside_getVa (h : mobj.getVa offset = some va) (k len : ℕ) :
    mobj.Inside ⟨va + k, len⟩ ↔ offset + k + len ≤ mobj.size := by
  obtain ⟨-, smem, hsmem, rfl⟩ := getVa_eq_some.mp h
  constructor
  · rintro ⟨smem', hsmem', -, hle⟩
    obtain rfl : smem = smem' := Option.some.inj (hsmem.symm.trans hsmem')
    dsimp only at hle
    omega
  · intro hle
    exact ⟨smem, hsmem, by dsimp only; omega, by dsimp only; omega⟩

theorem call_inside_iff (mobj : Option MobjFfa) (incMap : TeeResult Unit) (offset numParams : UInt32)
    (teeEntryStd : TeeResult Unit) :
    (yieldingCallWithArg mobj incMap offset numParams teeEntryStd).Within mobj offset numParams ↔
      ∀ m, mobj = some m → incMap = .ok () → (m.getVa offset.toNat).isSome → (m.getVa sizeofMsgArg).isSome →
        offset.toNat + sizeofMsgArg ≤ m.size := by
  unfold Call.Within yieldingCallWithArg
  rcases mobj with - | m
  · simp
  rcases incMap with e | ⟨⟩
  · simp
  cases harg : m.getVa offset.toNat with
  | none => simp [harg]
  | some arg =>
    cases hhdr : m.getVa sizeofMsgArg with
    | none => simp [harg, hhdr]
    | some hdr =>
      have hread : m.Inside ⟨arg + numParamsOffset, 4⟩ ↔ offset.toNat + sizeofMsgArg ≤ m.size := by
        rw [inside_getVa harg, numParamsOffset, sizeofMsgArg]
      dsimp only
      split_ifs with hmany
      · simp [harg, hhdr, hread]
      cases hrpc : m.getVa (offset.toNat + getArgSize numParams.toNat) with
      | none => simp [harg, hhdr, hread]
      | some rpcArg =>
        cases hend : m.getVa (offset.toNat + getArgSize numParams.toNat + szRpc) with
        | none => simp [harg, hhdr, hread]
        | some e =>
          have hlt := Nat.le_of_lt (getVa_eq_some.mp hend).1
          have hhandlers : m.Inside ⟨arg, getArgSize numParams.toNat⟩ ∧ m.Inside ⟨rpcArg, szRpc⟩ :=
            ⟨(inside_getVa harg 0 _).mpr (by omega), (inside_getVa hrpc 0 _).mpr (by omega)⟩
          simp [harg, hhdr, hread, hhandlers, hlt]

def toyMobj : MobjFfa := ⟨4096, 0, some 0x1000⟩

/-- The message starts eight bytes before the end of a page that is shared. -/
theorem numParams_read_outside :
    ¬(yieldingCallWithArg (some toyMobj) (.ok ()) 4088 0 (.ok ())).Within (some toyMobj) 4088 0 := by
  rintro ⟨hinside, -⟩
  obtain ⟨m, hm, smem, hsmem, -, hle⟩ := hinside ⟨0x2014, 4⟩ (List.mem_singleton.mpr rfl)
  cases hm
  cases hsmem
  exact absurd hle (by decide)

end Optee.Spmc.YieldingCall
