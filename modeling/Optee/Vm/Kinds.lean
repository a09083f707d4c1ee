import Optee.Vm.Access

/-! Regions of different kinds are kept apart by a gap, unless one of them has no flags at all. -/

namespace Optee.Vm

open Lib List

def Region.kind (r : Region) : UInt16 := r.flags &&& Flag.nonpriv

def Separated (rs : List Region) : Prop := rs.Pairwise fun x y => x.endVa = y.va → x.kind = y.kind

variable {cfg : Config} {rs : List Region} {x y r reg prev : Region} {granul padBegin padEnd va point : ℕ}
  {p : List Region × Region}

lemma kind_eq_of_separator (h : separator x reg = 0) (hx : x.flags = 0 → reg.kind = 0) : x.kind = reg.kind := by
  by_contra hne
  have hflags : x.flags ≠ 0 := by
    intro h0
    exact hne ((show x.kind = 0 by rw [Region.kind, h0, UInt16.zero_and]).trans (hx h0).symm)
  exact absurd ((if_pos ⟨hflags, hne⟩ : separator x reg = smallPageSize).symm.trans h) (by decide)

section Neighbours

variable {f : Region} {n : ℕ}

lemma kind_of_front (h : Sound cfg rs) (hsep : Separated rs) (hkind : ∀ x ∈ rs, x.flags = 0 → reg.kind = 0)
    (hle : (rs.getLastD f).endVa + separator (rs.getLastD f) reg ≤ n) : ∀ x ∈ rs, x.endVa = n → x.kind = reg.kind := by
  obtain rfl | ⟨init, last, rfl⟩ := rs.eq_nil_or_concat'
  · exact nofun
  rw [getLastD_concat] at hle
  have hlast : last.endVa = n → last.kind = reg.kind := fun heq => kind_eq_of_separator (by omega) (hkind last (by simp))
  have hproper : last.va ≤ last.endVa := Nat.le_add_right _ _
  intro x hx heq
  obtain hx | hx := mem_append.mp hx
  · have hxl := (sound_append.mp h).2.2 x hx last mem_cons_self
    exact ((pairwise_append.mp hsep).2.2 x hx last mem_cons_self (by omega)).trans (hlast (by omega))
  · obtain rfl := mem_singleton.mp hx
    exact hlast heq

lemma kind_of_back (h : Sound cfg rs) (hsep : Separated rs) (hkind : ∀ x ∈ rs, x.flags = 0 → reg.kind = 0)
    (hfit : n + separator (rs.headD f) reg ≤ (rs.headD f).va) : ∀ x ∈ rs, n = x.va → reg.kind = x.kind := by
  cases rs with
  | nil => exact nofun
  | cons r rs =>
    have hr : n = r.va → reg.kind = r.kind := fun heq =>
      (kind_eq_of_separator (by simp only [headD_cons] at hfit; omega) (hkind r mem_cons_self)).symm
    have hproper : r.va ≤ r.endVa := Nat.le_add_right _ _
    intro x hx heq
    obtain rfl | hx := mem_cons.mp hx
    · exact hr heq
    · have hrx := (sound_cons.mp h).2.1 x hx
      simp only [headD_cons] at hfit
      exact (hr (by omega)).trans ((pairwise_cons.mp hsep).1 x hx (by omega))

end Neighbours

lemma umapAddRegion_separated {align : ℕ} (h : Sound cfg rs) (hsep : Separated rs)
    (hkind : ∀ x ∈ rs, x.flags = 0 → reg.kind = 0) (hp : umapAddRegion cfg rs reg padBegin padEnd align = .ok p) :
    Separated p.1 := by
  obtain ⟨granul, hg, hpos, hva, -, -, hp⟩ := umapAddRegion_eq_ok hp
  obtain ⟨front, back, va, rfl, rfl, hne, rfl⟩ := insertFrom_cases hp
  obtain ⟨hle, hfit, -⟩ := selectVaInRange_spec hg hpos hva hne
  obtain ⟨hfront, hback, -⟩ := sound_append.mp h
  obtain ⟨hfsep, hbsep, hall⟩ := pairwise_append.mp hsep
  obtain ⟨hfkind, hbkind⟩ := forall_mem_append.mp hkind
  refine pairwise_append.mpr ⟨hfsep, pairwise_cons.mpr ⟨kind_of_back hback hbsep hbkind hfit, hbsep⟩, fun x hx => ?_⟩
  exact forall_mem_cons.mpr ⟨kind_of_front hfront hfsep hfkind hle x hx, hall x hx⟩

lemma flags_of_mem_splitVmRegion (hy : y ∈ splitVmRegion point va rs) : ∃ x ∈ rs, y.flags = x.flags := by
  obtain ⟨-, heq⟩ | ⟨front, r, back, -, rfl, heq⟩ := splitVmRegion_cases point va rs
  · exact ⟨y, heq ▸ hy, rfl⟩
  rw [heq, mem_append, mem_cons, mem_cons] at hy
  obtain hy | rfl | rfl | hy := hy
  · exact ⟨y, by simp [hy], rfl⟩
  · exact ⟨r, by simp, rfl⟩
  · exact ⟨r, by simp, rfl⟩
  · exact ⟨y, by simp [hy], rfl⟩

lemma splitVmRegion_separated (h : Sound cfg rs) (hsep : Separated rs)
    (hcut : ∀ r ∈ rs, r.Contains point → r.va < va ∧ va < r.endVa) : Separated (splitVmRegion point va rs) := by
  obtain ⟨-, heq⟩ | ⟨front, r, back, hc, rfl, heq⟩ := splitVmRegion_cases point va rs
  · rwa [heq]
  obtain ⟨hlo, hhi⟩ := hcut r (by simp) hc
  have hhead : (r.head va).endVa = va := Nat.add_sub_cancel' hlo.le
  obtain ⟨-, hback, hall⟩ := sound_append.mp h
  obtain ⟨hfsep, hrsep, hfall⟩ := pairwise_append.mp hsep
  obtain ⟨hrall, hbsep⟩ := pairwise_cons.mp hrsep
  rw [heq]
  refine pairwise_append.mpr ⟨hfsep, pairwise_cons.mpr ⟨forall_mem_cons.mpr ⟨fun _ => rfl, fun y hy heq => ?_⟩,
    pairwise_cons.mpr ⟨fun y hy heq => ?_, hbsep⟩⟩, fun x hx => forall_mem_cons.mpr ⟨?_, forall_mem_cons.mpr ⟨?_, ?_⟩⟩⟩
  · have := (sound_cons.mp hback).2.1 y hy
    omega
  · rw [endVa_tail hlo hhi] at heq
    exact hrall y hy heq
  · exact hfall x hx r mem_cons_self
  · exact fun heq => absurd heq ((hall x hx r mem_cons_self).trans_lt hlo).ne
  · exact fun y hy => hfall x hx y (mem_cons_of_mem _ hy)

def Held (cfg : Config) (G : UInt16 → Prop) (rs : List Region) : Prop :=
  Sound cfg rs ∧ Separated rs ∧ ∀ x ∈ rs, G x.flags

lemma held_stable {F G : UInt16 → Prop} (hFG : ∀ f, F f → G f)
    (hkind : ∀ f g, G f → F g → f = 0 → g &&& Flag.nonpriv = 0) : Stable cfg F (Held cfg G) where
  sound _ h := h.1
  sublist _ _ h hsub := ⟨h.1.sublist hsub, h.2.1.sublist hsub, fun x hx => h.2.2 x (hsub.subset hx)⟩
  insert rs reg padBegin padEnd align p h hreg hp := by
    obtain ⟨hsound, hins⟩ := umapAddRegion_spec h.1 hp
    refine ⟨hsound, umapAddRegion_separated h.1 h.2.1 (fun x hx => hkind _ _ (h.2.2 x hx) hreg) hp, fun x hx => ?_⟩
    obtain ⟨front, back, hrs, hq⟩ := hins.split
    obtain ⟨va, hnew⟩ := hins.region
    rw [hq, mem_append, mem_cons] at hx
    rcases hx with hx | rfl | hx
    · exact h.2.2 x (hrs ▸ mem_append_left _ hx)
    · exact hnew ▸ hFG _ hreg
    · exact h.2.2 x (hrs ▸ mem_append_right _ hx)
  cut rs point va h hva hcut := by
    refine ⟨splitVmRegion_sound h.1 hva hcut, splitVmRegion_separated h.1 h.2.1 hcut, fun y hy => ?_⟩
    obtain ⟨x, hx, hyx⟩ := flags_of_mem_splitVmRegion hy
    exact hyx ▸ h.2.2 x hx

lemma plain_stable : Stable cfg (· &&& Flag.nonpriv = 0) (Held cfg fun _ => True) :=
  held_stable (fun _ _ => trivial) fun _ _ _ hg _ => hg

lemma marked_stable : Stable cfg (· ≠ 0) (Held cfg (· ≠ 0)) :=
  held_stable (fun _ => id) fun _ _ hf _ h0 => absurd h0 hf

def Marked (s : VmInfo) (call : Call × List Bool) : Prop :=
  match call.1 with
  | .mapPad _ _ _ flags _ _ _ _ _ => flags.toUInt16 &&& Flag.nonpriv = 0 ∨ ∀ r ∈ s.regions, r.flags ≠ 0
  | .mapParam _ => ∀ r ∈ s.regions, r.flags ≠ 0
  | .addRwmem _ => True
  | .remap .. => (∀ r ∈ s.regions, r.flags ≠ 0) ∨ ∀ r ∈ s.regions, r.kind = 0
  | _ => False

lemma Held.forget {G : UInt16 → Prop} (h : Held cfg G rs) : Held cfg (fun _ => True) rs := ⟨h.1, h.2.1, fun _ _ => trivial⟩

lemma held_exec {s : VmInfo} {call : Call × List Bool} (hs : Held cfg (fun _ => True) s.regions) (hm : Marked s call) :
    Held cfg (fun _ => True) (s.exec cfg call).regions := by
  obtain ⟨call, outcomes⟩ := call
  cases call with
  | mapPad va len prot flags mobj offs padBegin padEnd align =>
    by_cases hf : flags.toUInt16 &&& Flag.nonpriv = 0
    · exact keeps_stateOf
        ((vmMapPad_keeps plain_stable hf _ _ _ _ _ _ _ _).bind fun _ => .pure _) hs
    · have hne : flags.toUInt16 ≠ 0 := fun h0 => hf (by rw [h0, UInt16.zero_and])
      exact (keeps_stateOf (s := { s with outcomes }) ((vmMapPad_keeps marked_stable hne _ _ _ _ _ _ _ _).bind fun _ => .pure _)
        ⟨hs.1, hs.2.1, hm.resolve_left hf⟩).forget
  | mapParam params =>
    exact (keeps_stateOf (s := { s with outcomes }) (vmMapParam_keeps marked_stable (by decide) params)
      ⟨hs.1, hs.2.1, hm⟩).forget
  | addRwmem mobj =>
    exact keeps_stateOf
      ((vmAddRwmem_keeps plain_stable UInt16.zero_and mobj).bind fun _ => .pure _) hs
  | remap newVa oldVa len padBegin padEnd =>
    rcases hm with hm | hm
    · exact (keeps_stateOf (s := { s with outcomes })
        ((vmRemap_keeps marked_stable (fun _ h => h.2.2) _ _ _ _ _).bind fun _ => .pure _) ⟨hs.1, hs.2.1, hm⟩).forget
    · exact (keeps_stateOf (s := { s with outcomes })
        ((vmRemap_keeps (held_stable (fun _ => id) fun _ _ _ hg _ => hg) (fun _ h => h.2.2) _ _ _ _ _).bind fun _ => .pure _) ⟨hs.1, hs.2.1, hm⟩).forget
  | cleanParam | remRwmem mobj va | setProt va len prot | unmap va len => exact hm.elim

def toyFlags (ptr : ℕ) (flags : UInt16) : Call × List Bool :=
  (.mapPad 0 0x1000 (Mattr.pr ||| Mattr.ur).toUInt32 flags.toUInt32 (toyMobj ptr) 0 0 0 0, [])

end Optee.Vm
