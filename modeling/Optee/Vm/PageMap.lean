import Optee.Vm.Access

/-! What the calls on a range, and those that map parameters, do to the regions of a user mode context. -/

namespace Optee.Vm

open Lib.Effects List

theorem range_calls_exact (cfg : Config) (s : VmInfo) (va len : ℕ) (prot : UInt32) (hs : Sound cfg s.regions) :
    Ends (fun _ t => ∀ a, view t.regions a = reprotect (view s.regions) va (va + roundup len smallPageSize) prot a)
        (fun e t => e ≠ .panic → ∀ a, view t.regions a = view s.regions a) (vmSetProt cfg va len prot s) ∧
      Ends (fun _ t => ∀ a, view t.regions a = outside (view s.regions) va (va + roundup len smallPageSize) a)
        (fun _ t => ∀ a, view t.regions a = view s.regions a) (vmUnmap cfg va len s) := by
  constructor
  · refine (vmSetProt_shows va len prot s hs.shows).mono (fun _ t ht => ?_) fun e t ht he => ?_
    · rw [roundup_of_dvd (by decide) ht.1]
      exact ht.2.2
    · exact (ht.resolve_right fun h => he h.1).2
  · exact (vmUnmap_shows va len s hs.shows).mono (fun _ t ht => ht.2) fun _ t ht => ht.2

theorem range_calls_exact_toy :
    Ends (fun _ t => ∀ a, view t.regions a = outside (view toyMapped) 0x100000 0x101000 a)
      (fun _ t => ∀ a, view t.regions a = view toyMapped a) (vmUnmap toyConfig 0x100000 0x800 ⟨toyMapped, []⟩) :=
  (range_calls_exact toyConfig ⟨toyMapped, []⟩ 0x100000 0x800 0
    (keeps_stateOf (vmMapPad_keeps sound_stable trivial _ _ _ _ _ _ _ _) sound_nil)).2

variable {cfg : Config} {base : List Region} {reg : Region}

/-- `base` are the regions that are not there for the parameters of a call. -/
def Lasting (base regions : List Region) : Prop := regions.filter (fun r => !isEphemeral r) = base

lemma addRegion_lasting (hreg : isEphemeral reg = true) (padBegin padEnd align : ℕ) :
    Spec (OnRegions (Lasting base)) (addRegion cfg reg padBegin padEnd align)
      (fun r s => isEphemeral r = true ∧ OnRegions (Lasting base) s) (fun _ => OnRegions (Lasting base)) := by
  refine .get_bind fun s hs => ?_
  cases hp : umapAddRegion cfg s.regions reg padBegin padEnd align with
  | error e => exact .throw fun t ht => ht ▸ hs
  | ok p =>
    obtain ⟨granul, -, -, -, -, -, hins⟩ := umapAddRegion_eq_ok hp
    obtain ⟨front, back, va, hsplit, rfl, -, -⟩ := insertFrom_cases hins
    have hkept : Lasting base (front ++ { reg with va } :: back) := by
      rw [OnRegions, hsplit] at hs
      rw [← hs]
      simp [Lasting, show isEphemeral { reg with va } = true from hreg]
    exact fun _ _ => ⟨hreg, hkept⟩

lemma mapParam_lasting (m : Mobj × ℕ × ℕ) : Invariant (OnRegions (Lasting base)) (mapParam cfg m) := by
  refine Spec.bind ((check_keeps _ _).bind fun _ => (allocate_keeps _).bind fun _ => (ofResult_keeps _).bind fun attr =>
    Spec.bind (addRegion_lasting (decide_eq_true (by decide :
      (Flag.ephemeral ||| Flag.shareable).toUInt32.toUInt16 &&& Flag.ephemeral ≠ 0)) _ _ _) fun r => Spec.and_left fun hr =>
        Spec.bind ?_ fun _ => Spec.pure fun _ => id) fun _ => Spec.pure fun _ => id
  refine (mapTables_keeps _).tryCatch fun e => .bind (.modify fun t ht => ?_) fun _ => .throw e
  have hout : r ∉ base := fun hmem => by
    rw [← show _ = base from ht, mem_filter, hr] at hmem
    exact absurd hmem.2 (by simp)
  rw [OnRegions, Lasting, ← erase_filter, show _ = base from ht, erase_of_not_mem hout]

lemma vmMapParam_lasting (params : List ParamMem) : Spec (·.regions = base) (vmMapParam cfg params)
    (fun _ => OnRegions (Lasting base)) (fun _ t => t.regions = base) := by
  refine .get_bind fun s hs => .of_imp (P := (·.regions = base)) ?_ fun t ht => ht ▸ hs
  refine .bind (check_spec fun _ => id) fun _ => .and_left fun hall => ?_
  refine .of_imp (P := OnRegions (Lasting base)) ?_ fun t ht => ?_
  · refine Spec.tryCatch (R := fun _ => OnRegions (Lasting base)) ?_ fun e => Spec.bind (Spec.modify fun _ => id) fun _ =>
      .throw fun _ => id
    refine (Invariant.forM _ mapParam_lasting).bind fun _ => (Invariant.forM _ fun p => ?_).bind fun _ => allocate_keeps _
    rw [paramVa]
    split
    · exact .pure _
    · exact .get_bind fun _ _ => (ofResult_keeps _).bind fun _ => .pure _
  · rw [OnRegions, ht, Lasting, filter_eq_self, ← hs]
    exact all_eq_true.mp hall

theorem params_leave_no_trace (cfg : Config) (params : List ParamMem) (s : VmInfo) :
    Ends (fun _ t => t.regions = s.regions) (fun _ t => t.regions = s.regions)
      ((vmMapParam cfg params >>= fun _ => vmCleanParam) s) :=
  (vmMapParam_lasting params).bind (fun _ => .modify fun _ => id) s rfl

end Optee.Vm
