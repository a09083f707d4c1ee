import Optee.Vm.Calls

/-! The regions of an address space stay sorted, disjoint, aligned and inside what they map. -/

namespace Optee.Vm

open Lib.Effects Lib.Spans List Option

variable {cfg : Config} {regions rs rs' : List Region} {r reg prev next : Region}

structure Placed (cfg : Config) (r : Region) : Prop where
  va_aligned : smallPageSize ∣ r.va
  size_aligned : smallPageSize ∣ r.size
  base_le : cfg.vaRangeBase ≤ r.va
  end_le : r.endVa ≤ cfg.vaRangeBase + cfg.vaRangeSize
  covered : r.offset + r.size ≤ roundupPage cfg r.mobj.size

structure Sound (cfg : Config) (regions : List Region) : Prop where
  ascending : Ascending Region.va Region.endVa regions
  placed : ∀ r ∈ regions, Placed cfg r

lemma Sound.sublist (h : Sound cfg rs') (hs : rs.Sublist rs') : Sound cfg rs :=
  ⟨h.ascending.sublist hs, fun r hr => h.placed r (hs.subset hr)⟩

lemma sound_nil : Sound cfg [] := ⟨ascending_nil, nofun⟩

lemma sound_cons : Sound cfg (r :: rs) ↔ Placed cfg r ∧ (∀ x ∈ rs, r.endVa ≤ x.va) ∧ Sound cfg rs := by
  constructor
  · intro h
    obtain ⟨-, hall, hl⟩ := ascending_cons.mp h.ascending
    exact ⟨h.placed r mem_cons_self, hall, hl, fun x hx => h.placed x (mem_cons_of_mem _ hx)⟩
  · rintro ⟨hr, hall, hl⟩
    refine ⟨ascending_cons.mpr ⟨Nat.le_add_right _ _, hall, hl.ascending⟩, fun x hx => ?_⟩
    rcases mem_cons.mp hx with rfl | hx
    · exact hr
    · exact hl.placed x hx

lemma sound_append : Sound cfg (rs ++ rs') ↔ Sound cfg rs ∧ Sound cfg rs' ∧ ∀ x ∈ rs, ∀ y ∈ rs', x.endVa ≤ y.va := by
  constructor
  · intro h
    obtain ⟨h1, h2, h12⟩ := ascending_append.mp h.ascending
    exact ⟨⟨h1, fun x hx => h.placed x (mem_append_left _ hx)⟩,
      ⟨h2, fun x hx => h.placed x (mem_append_right _ hx)⟩, h12⟩
  · rintro ⟨h1, h2, h12⟩
    refine ⟨ascending_append.mpr ⟨h1.ascending, h2.ascending, h12⟩, fun x hx => ?_⟩
    exact (mem_append.mp hx).elim (h1.placed x) (h2.placed x)

section Placement

lemma le_roundup {v g : ℕ} (hg : 0 < g) : v ≤ roundup v g := by
  have h := Nat.lt_div_mul_add hg (a := v + (g - 1))
  rw [roundup]
  omega

lemma addOverflow_eq {a b c : ℕ} (h : addOverflow cfg a b = some c) : c = a + b := by
  rw [addOverflow] at h
  split_ifs at h
  exact (Option.some.inj h).symm

lemma roundupOverflow_eq {a g c : ℕ} (h : roundupOverflow cfg a g = some c) : c = roundup a g := by
  rw [roundupOverflow] at h
  split_ifs at h
  exact (Option.some.inj h).symm

variable {granul padBegin padEnd : ℕ} {p : List Region × Region}

lemma beginVa_spec {va : ℕ} (hg : 0 < granul) (h : beginVa cfg prev reg padBegin granul = some va) :
    prev.endVa + separator prev reg ≤ va ∧ granul ∣ va := by
  simp only [beginVa, bind_eq_bind, bind_eq_some_iff] at h
  obtain ⟨a, ha, b, hb, c, hc, hva⟩ := h
  rw [roundupOverflow_eq hva]
  have ha := addOverflow_eq ha
  have hb := addOverflow_eq hb
  have hc := addOverflow_eq hc
  refine ⟨?_, Nat.dvd_mul_left _ _⟩
  exact le_trans (by rw [Region.endVa]; omega) (le_roundup hg)

lemma fitBefore_spec {va : ℕ} (hg : 0 < granul) (h : fitBefore cfg next reg va padEnd granul ≠ 0) :
    fitBefore cfg next reg va padEnd granul = va ∧ va + reg.size + separator next reg ≤ next.va := by
  rw [fitBefore] at h ⊢
  cases he : endVaFor cfg next reg va padEnd granul with
  | none => simp [he] at h
  | some e =>
    simp only [he] at h ⊢
    split_ifs at h ⊢ with hle
    · simp only [endVaFor, bind_eq_bind, bind_eq_some_iff] at he
      obtain ⟨a, ha, b, hb, c, hc, hva⟩ := he
      have ha := addOverflow_eq ha
      have hb := addOverflow_eq hb
      have hc := addOverflow_eq hc
      have hround := le_roundup (v := c) hg
      rw [← roundupOverflow_eq hva] at hround
      exact ⟨rfl, by omega⟩
    · exact absurd rfl h

lemma granulFor_dvd (cfg : Config) (neighbour reg : Region) (hg : smallPageSize ∣ granul) :
    smallPageSize ∣ granulFor cfg neighbour reg granul := by
  rw [granulFor]
  split_ifs
  · exact cfg.pgdir_aligned
  · exact hg

lemma granulFor_pos (cfg : Config) (neighbour reg : Region) (hg : 0 < granul) :
    0 < granulFor cfg neighbour reg granul := by
  rw [granulFor]
  split_ifs
  · exact cfg.pgdir_pos
  · exact hg

lemma selectVaInRange_spec (hg : smallPageSize ∣ granul) (hpos : 0 < granul) (hva : smallPageSize ∣ reg.va)
    (h : selectVaInRange cfg prev next reg padBegin padEnd granul ≠ 0) :
    let va := selectVaInRange cfg prev next reg padBegin padEnd granul
    prev.endVa + separator prev reg ≤ va ∧ va + reg.size + separator next reg ≤ next.va ∧ smallPageSize ∣ va ∧
      (reg.va ≠ 0 → va = reg.va) := by
  have hg1 := granulFor_dvd cfg prev reg hg
  have hpos1 := granulFor_pos cfg prev reg hpos
  have hpos2 := granulFor_pos cfg next reg hpos1
  intro va
  have hva' : va = selectVaInRange cfg prev next reg padBegin padEnd granul := rfl
  rw [selectVaInRange] at h hva'
  cases hb : beginVa cfg prev reg padBegin (granulFor cfg prev reg granul) with
  | none => simp [hb] at h
  | some b =>
    obtain ⟨hle, hdvd⟩ := beginVa_spec hpos1 hb
    simp only [hb] at h hva'
    split_ifs at h hva' with h0 hlt
    · obtain ⟨heq, hfit⟩ := fitBefore_spec hpos2 h
      rw [hva', heq]
      exact ⟨hle, hfit, Nat.dvd_trans hg1 hdvd, fun hne => absurd h0 hne⟩
    · exact absurd rfl h
    · obtain ⟨heq, hfit⟩ := fitBefore_spec hpos2 h
      rw [hva', heq]
      exact ⟨hle.trans (not_lt.mp hlt), hfit, hva, fun _ => rfl⟩

structure Inserted (regions : List Region) (reg : Region) (p : List Region × Region) : Prop where
  split : ∃ front back, regions = front ++ back ∧ p.1 = front ++ p.2 :: back
  region : ∃ va, p.2 = { reg with va }
  nonzero : p.2.va ≠ 0
  asked : reg.va ≠ 0 → p.2.va = reg.va

lemma insertFrom_cases (hp : insertFrom cfg reg padBegin padEnd granul prev rs = .ok p) : ∃ front back va,
    rs = front ++ back ∧ p = (front ++ { reg with va } :: back, { reg with va }) ∧ va ≠ 0 ∧ selectVaInRange cfg
      (front.getLastD prev) (back.headD (dummyRegion (cfg.vaRangeBase + cfg.vaRangeSize))) reg padBegin padEnd granul = va := by
  induction rs generalizing prev p with
  | nil =>
    rw [insertFrom] at hp
    split_ifs at hp with hne
    cases hp
    exact ⟨[], [], _, rfl, rfl, hne, rfl⟩
  | cons r rs ih =>
    rw [insertFrom] at hp
    split_ifs at hp with hne
    · cases hp
      exact ⟨[], r :: rs, _, rfl, rfl, hne, rfl⟩
    cases hrec : insertFrom cfg reg padBegin padEnd granul r rs with
    | error e => simp [hrec, Except.map] at hp
    | ok q =>
      simp only [hrec, Except.map, Except.ok.injEq] at hp
      obtain ⟨front, back, va, rfl, rfl, hne, hva⟩ := ih hrec
      exact ⟨r :: front, back, va, rfl, hp.symm, hne, by rwa [getLastD_cons]⟩

lemma Sound.front_le {v : ℕ} (h : Sound cfg rs) (hv : (rs.getLastD (dummyRegion cfg.vaRangeBase)).endVa ≤ v) :
    cfg.vaRangeBase ≤ v ∧ ∀ x ∈ rs, x.endVa ≤ v := by
  obtain rfl | ⟨init, last, rfl⟩ := rs.eq_nil_or_concat'
  · exact ⟨hv, nofun⟩
  rw [getLastD_concat] at hv
  obtain ⟨-, hlast, hall⟩ := sound_append.mp h
  have hle : last.va ≤ v := (Nat.le_add_right _ _).trans hv
  refine ⟨(hlast.placed last mem_cons_self).base_le.trans hle, fun x hx => ?_⟩
  obtain hx | hx := mem_append.mp hx
  · exact (hall x hx last mem_cons_self).trans hle
  · rwa [mem_singleton.mp hx]

lemma Sound.le_back {v : ℕ} (h : Sound cfg rs)
    (hv : v ≤ (rs.headD (dummyRegion (cfg.vaRangeBase + cfg.vaRangeSize))).va) :
    v ≤ cfg.vaRangeBase + cfg.vaRangeSize ∧ ∀ x ∈ rs, v ≤ x.va := by
  cases rs with
  | nil => exact ⟨hv, nofun⟩
  | cons r rs =>
    have hr := (h.placed r mem_cons_self).end_le
    exact ⟨hv.trans ((Nat.le_add_right _ _).trans hr), h.ascending.le_of_head hv⟩

lemma dvd_of_pageAligned {v : ℕ} (h : pageAligned v = true) : smallPageSize ∣ v :=
  Nat.dvd_of_mod_eq_zero (by simpa [pageAligned] using h)

lemma page_dvd_granul {align : ℕ} (h : max align smallPageSize = 2 ^ (max align smallPageSize).log2) :
    smallPageSize ∣ max align smallPageSize := by
  have hle : 2 ^ 12 ≤ max align smallPageSize := le_max_right _ _
  rw [h]
  exact Nat.pow_dvd_pow 2 ((Nat.le_log2 (lt_of_lt_of_le (by decide) hle).ne').mpr hle)

lemma umapAddRegion_eq_ok {align : ℕ} (hp : umapAddRegion cfg regions reg padBegin padEnd align = .ok p) :
    ∃ granul, smallPageSize ∣ granul ∧ 0 < granul ∧ smallPageSize ∣ reg.va ∧ smallPageSize ∣ reg.size ∧
      reg.offset + reg.size ≤ roundupPage cfg reg.mobj.size ∧
      insertFrom cfg reg padBegin padEnd granul (dummyRegion cfg.vaRangeBase) regions = .ok p := by
  rw [umapAddRegion] at hp
  split_ifs at hp with halign hoverflow hcover hpow
  simp only [Bool.not_eq_true', Bool.not_eq_false, Bool.and_eq_true] at halign
  obtain ⟨⟨⟨hva, hsize⟩, -⟩, -⟩ := halign
  exact ⟨_, page_dvd_granul (not_not.mp hpow), lt_of_lt_of_le (by decide : 0 < smallPageSize) (le_max_right _ _),
    dvd_of_pageAligned hva, dvd_of_pageAligned hsize, not_lt.mp hcover, hp⟩

lemma umapAddRegion_spec {align : ℕ} (h : Sound cfg regions)
    (hp : umapAddRegion cfg regions reg padBegin padEnd align = .ok p) : Sound cfg p.1 ∧ Inserted regions reg p := by
  obtain ⟨granul, hg, hpos, hva, hsize, hcover, hp⟩ := umapAddRegion_eq_ok hp
  obtain ⟨front, back, va, rfl, rfl, hne, rfl⟩ := insertFrom_cases hp
  obtain ⟨hle, hfit, hdvd, hasked⟩ := selectVaInRange_spec hg hpos hva hne
  obtain ⟨hfront, hback, hall⟩ := sound_append.mp h
  obtain ⟨hbase, hbefore⟩ := hfront.front_le (Nat.le_of_add_right_le hle)
  obtain ⟨hend, hbehind⟩ := hback.le_back (Nat.le_of_add_right_le hfit)
  refine ⟨sound_append.mpr ⟨hfront, sound_cons.mpr ⟨⟨hdvd, hsize, hbase, hend, hcover⟩, hbehind, hback⟩, ?_⟩,
    ⟨front, back, rfl, rfl⟩, ⟨_, rfl⟩, hne, hasked⟩
  exact fun x hx => forall_mem_cons.mpr ⟨hbefore x hx, hall x hx⟩

end Placement

section Lists

variable {point va endVa : ℕ}

lemma Placed.head (h : Placed cfg r) (hva : smallPageSize ∣ va) (hlo : r.va < va) (hhi : va < r.endVa) :
    Placed cfg (r.head va) := by
  have hend : (r.head va).endVa = va := Nat.add_sub_cancel' hlo.le
  refine ⟨h.va_aligned, Nat.dvd_sub hva h.va_aligned, h.base_le, hend.le.trans (hhi.le.trans h.end_le), ?_⟩
  refine le_trans (Nat.add_le_add_left ?_ _) h.covered
  exact Nat.sub_le_iff_le_add'.mpr hhi.le

lemma endVa_tail (hlo : r.va < va) (hhi : va < r.endVa) : (r.tail va).endVa = r.endVa := by
  simp only [Region.tail, Region.endVa] at hhi ⊢
  omega

lemma Placed.tail (h : Placed cfg r) (hva : smallPageSize ∣ va) (hlo : r.va < va) (hhi : va < r.endVa) :
    Placed cfg (r.tail va) := by
  refine ⟨hva, Nat.dvd_sub h.size_aligned (Nat.dvd_sub hva h.va_aligned), h.base_le.trans hlo.le,
    (endVa_tail hlo hhi).le.trans h.end_le, le_trans ?_ h.covered⟩
  simp only [Region.tail]
  rw [Region.endVa] at hhi
  omega

lemma splitVmRegion_cases (point va : ℕ) (rs : List Region) :
    (∀ r ∈ rs, ¬r.Contains point) ∧ splitVmRegion point va rs = rs ∨ ∃ front r back, r.Contains point ∧
      rs = front ++ r :: back ∧ splitVmRegion point va rs = front ++ r.head va :: r.tail va :: back := by
  induction rs with
  | nil => exact .inl ⟨nofun, rfl⟩
  | cons r rs ih =>
    rw [splitVmRegion]
    split_ifs with hc
    · exact .inr ⟨[], r, rs, hc, rfl, rfl⟩
    · obtain ⟨hno, heq⟩ | ⟨front, x, back, hx, hrs, heq⟩ := ih
      · exact .inl ⟨forall_mem_cons.mpr ⟨hc, hno⟩, by rw [heq]⟩
      · exact .inr ⟨r :: front, x, back, hx, by rw [hrs]; rfl, by rw [heq]; rfl⟩

lemma splitVmRegion_sound (h : Sound cfg rs) (hva : smallPageSize ∣ va)
    (hcut : ∀ r ∈ rs, r.Contains point → r.va < va ∧ va < r.endVa) : Sound cfg (splitVmRegion point va rs) := by
  obtain ⟨-, heq⟩ | ⟨front, r, back, hc, rfl, heq⟩ := splitVmRegion_cases point va rs
  · rwa [heq]
  obtain ⟨hlo, hhi⟩ := hcut r (by simp) hc
  obtain ⟨hfront, hback, hall⟩ := sound_append.mp h
  obtain ⟨hr, hrb, hb⟩ := sound_cons.mp hback
  have hend : (r.head va).endVa = va := Nat.add_sub_cancel' hlo.le
  have htail : Sound cfg (r.tail va :: back) :=
    sound_cons.mpr ⟨hr.tail hva hlo hhi, by rwa [endVa_tail hlo hhi], hb⟩
  have hboth : Sound cfg (r.head va :: r.tail va :: back) :=
    sound_cons.mpr ⟨hr.head hva hlo hhi, htail.ascending.le_of_head hend.le, htail⟩
  rw [heq]
  exact sound_append.mpr ⟨hfront, hboth, fun x hx => hboth.ascending.le_of_head (hall x hx r mem_cons_self)⟩

lemma sound_merged (h : Sound cfg (r :: next :: rs)) (hm : mergeable r next = true) :
    Sound cfg ({ r with size := r.size + next.size } :: rs) := by
  simp only [mergeable, Bool.and_eq_true, decide_eq_true_eq] at hm
  obtain ⟨⟨⟨⟨hend, hmobj⟩, -⟩, -⟩, hoffs⟩ := hm
  obtain ⟨hr, -, hrest⟩ := sound_cons.mp h
  obtain ⟨hnext, hall, hrs⟩ := sound_cons.mp hrest
  have hends : r.va + (r.size + next.size) = next.endVa := by
    rw [Region.endVa, ← hend, Region.endVa, add_assoc]
  refine sound_cons.mpr ⟨⟨hr.va_aligned, Nat.dvd_add hr.size_aligned hnext.size_aligned, hr.base_le, ?_, ?_⟩, ?_, hrs⟩
  · exact hends.le.trans hnext.end_le
  · have := hnext.covered
    rw [← hoffs, ← hmobj, add_assoc] at this
    exact this
  · intro x hx
    exact hends.le.trans (hall x hx)

lemma mergeFrom_sound (h : Sound cfg (r :: rs)) : Sound cfg (mergeFrom va endVa r rs) ∧
    ∀ x ∈ mergeFrom va endVa r rs, r.va ≤ x.va := by
  induction rs generalizing r with
  | nil => exact ⟨h, h.ascending.le_of_head le_rfl⟩
  | cons next rs ih =>
    obtain ⟨hr, hall, hrest⟩ := sound_cons.mp h
    have hkeep : Sound cfg (r :: mergeFrom va endVa next rs) ∧
        ∀ x ∈ r :: mergeFrom va endVa next rs, r.va ≤ x.va := by
      obtain ⟨hsound, hlow⟩ := ih hrest
      have hnext := hall next mem_cons_self
      have hs : Sound cfg (r :: mergeFrom va endVa next rs) :=
        sound_cons.mpr ⟨hr, fun x hx => hnext.trans (hlow x hx), hsound⟩
      exact ⟨hs, hs.ascending.le_of_head le_rfl⟩
    rw [mergeFrom]
    split_ifs with h1 h2 h3
    · exact hkeep
    · exact ⟨h, h.ascending.le_of_head le_rfl⟩
    · exact ih (sound_merged h h3)
    · exact hkeep

lemma mergeVmRange_sound (h : Sound cfg rs) : Sound cfg (mergeVmRange va endVa rs) := by
  cases rs with
  | nil => exact h
  | cons r rs => exact (mergeFrom_sound h).1

lemma before_fromVa (va : ℕ) (rs : List Region) : before va rs ++ fromVa va rs = rs := takeWhile_append_dropWhile

lemma before_within_beyond (va endVa : ℕ) (rs : List Region) : before va rs ++ within va endVa rs ++ beyond va endVa rs = rs := by
  rw [append_assoc, within, beyond, takeWhile_append_dropWhile, before_fromVa]

lemma Sound.map {f : Region → Region} (h : Sound cfg (rs ++ regions ++ rs'))
    (hf : ∀ r, (f r).va = r.va ∧ (f r).size = r.size ∧ (f r).offset = r.offset ∧ (f r).mobj = r.mobj) :
    Sound cfg (rs ++ regions.map f ++ rs') := by
  have hend : ∀ r, (f r).endVa = r.endVa := fun r => by rw [Region.endVa, (hf r).1, (hf r).2.1, Region.endVa]
  obtain ⟨h12, h3, h123⟩ := sound_append.mp h
  obtain ⟨h1, h2, hcross⟩ := sound_append.mp h12
  have hmapped : Sound cfg (regions.map f) := by
    refine ⟨⟨pairwise_map.mpr (h2.ascending.ordered.imp fun hxy => ?_), fun x _ => Nat.le_add_right _ _⟩,
      forall_mem_map.mpr fun r hr => ?_⟩
    · rw [hend, (hf _).1]
      exact hxy
    · have hp := h2.placed r hr
      refine ⟨?_, ?_, ?_, ?_, ?_⟩
      · rw [(hf r).1]
        exact hp.va_aligned
      · rw [(hf r).2.1]
        exact hp.size_aligned
      · rw [(hf r).1]
        exact hp.base_le
      · rw [hend]
        exact hp.end_le
      · rw [(hf r).2.1, (hf r).2.2.1, (hf r).2.2.2]
        exact hp.covered
  refine sound_append.mpr ⟨sound_append.mpr ⟨h1, hmapped, fun x hx => forall_mem_map.mpr fun y hy => ?_⟩, h3, ?_⟩
  · rw [(hf y).1]
    exact hcross x hx y hy
  · intro x hx y hy
    rcases mem_append.mp hx with hx | hx
    · exact h123 x (mem_append_left _ hx) y hy
    · obtain ⟨z, hz, rfl⟩ := mem_map.mp hx
      rw [hend]
      exact h123 z (mem_append_right _ hz) y hy

lemma unmapUntil_sublist : (unmapUntil endVa rs).Sublist rs := by
  induction rs with
  | nil => exact .slnil
  | cons r rs ih =>
    rw [unmapUntil]
    split_ifs
    · exact sublist_cons_self _ _
    · exact ih.cons _

end Lists

def OnRegions (J : List Region → Prop) (s : VmInfo) : Prop := J s.regions

structure Stable (cfg : Config) (F : UInt16 → Prop) (J : List Region → Prop) : Prop where
  sound : ∀ rs, J rs → Sound cfg rs
  sublist : ∀ rs rs', J rs' → rs.Sublist rs' → J rs
  insert : ∀ rs reg padBegin padEnd align p, J rs → F reg.flags →
    umapAddRegion cfg rs reg padBegin padEnd align = .ok p → J p.1
  cut : ∀ rs point va, J rs → smallPageSize ∣ va → (∀ r ∈ rs, r.Contains point → r.va < va ∧ va < r.endVa) →
    J (splitVmRegion point va rs)

lemma sound_stable : Stable cfg (fun _ => True) (Sound cfg) where
  sound _ h := h
  sublist _ _ h hsub := h.sublist hsub
  insert _ _ _ _ _ _ h _ hp := (umapAddRegion_spec h hp).1
  cut _ _ _ h hva hcut := splitVmRegion_sound h hva hcut

section Programs

variable {J : List Region → Prop} {F : UInt16 → Prop} {α : Type}

lemma allocate_spec (e : TeeError) :
    Preserves (OnRegions J) (allocate e) (fun e' s => e' = e ∧ OnRegions J s) := by
  intro s hs
  change Ends _ _ ((if s.outcomes.headD true then pure () else throw e : UserMode Unit) { s with outcomes := s.outcomes.tail })
  split_ifs
  · exact hs
  · exact ⟨rfl, hs⟩

lemma allocate_keeps (e : TeeError) : Invariant (OnRegions J) (allocate e) :=
  (allocate_spec e).fails fun _ _ h => h.2

lemma ofResult_keeps (x : TeeResult α) : Invariant (OnRegions J) (ofResult x) := by
  cases x with
  | ok a => exact .pure a
  | error e => exact .throw e

lemma check_keeps (p : Prop) [Decidable p] (e : TeeError) : Invariant (OnRegions J) (check p e) := by
  rw [check]
  split_ifs
  · exact .pure _
  · exact .throw _

lemma setRegions_keeps (h : J rs) : Invariant (OnRegions J) (setRegions rs) := .modify fun _ _ => h

lemma allocTables_keeps (paged : Bool) : Invariant (OnRegions J) (allocTables paged) := by
  refine (allocate_keeps _).bind fun _ => ?_
  split_ifs
  · exact allocate_keeps _
  · exact .pure _

variable {R : TeeError → VmInfo → Prop} {P : VmInfo → Prop} {p : UserMode α}

lemma check_spec {p : Prop} [Decidable p] {e : TeeError} (h : ∀ s, P s → R e s) :
    Spec P (check p e) (fun _ s => p ∧ P s) R := by
  rw [check]
  split_ifs with hp
  · exact .pure fun s hs => ⟨hp, hs⟩
  · exact .throw h

lemma findOr_spec {va : ℕ} {e : TeeError} (h : ∀ s, P s → R e s) :
    Spec P (findOr e va) (fun r s => findVmRegion s.regions va = some r ∧ P s) R := by
  intro s hs
  change Ends _ _ (ofResult (orError e (findVmRegion s.regions va)) s)
  cases hf : findVmRegion s.regions va with
  | none => exact h s hs
  | some r => exact ⟨hf, hs⟩

lemma addRegion_keeps (h : Stable cfg F J) (reg : Region) (hreg : F reg.flags) (padBegin padEnd align : ℕ) :
    Invariant (OnRegions J) (addRegion cfg reg padBegin padEnd align) := by
  refine .get_bind fun s hs => ?_
  cases hp : umapAddRegion cfg s.regions reg padBegin padEnd align with
  | error e => exact .throw e
  | ok p => exact (setRegions_keeps (h.insert _ _ _ _ _ _ hs hreg hp)).bind fun _ => .pure _

lemma orRemove_keeps (h : Stable cfg F J) {p : UserMode Unit} (hp : Invariant (OnRegions J) p) :
    Invariant (OnRegions J) (orRemove reg p) := by
  refine hp.tryCatch fun e => Invariant.bind (.modify fun s hs => ?_) fun _ => .throw e
  exact h.sublist _ _ hs erase_sublist

lemma mapTables_keeps (mobj : Mobj) : Invariant (OnRegions J) (mapTables mobj) := by
  refine (allocate_keeps _).bind fun _ => ?_
  split_ifs
  · exact (check_keeps _ _).bind fun _ => allocate_keeps _
  · exact .pure _

lemma vmMapPad_keeps (h : Stable cfg F J) {flags : UInt32} (hflags : F flags.toUInt16) (va len : ℕ) (prot : UInt32)
    (mobj : Mobj) (offs padBegin padEnd align : ℕ) :
    Invariant (OnRegions J) (vmMapPad cfg va len prot flags mobj offs padBegin padEnd align) := by
  refine (check_keeps _ _).bind fun _ => (allocate_keeps _).bind fun _ => (ofResult_keeps _).bind fun _ =>
    (addRegion_keeps h _ hflags _ _ _).bind fun _ => ?_
  exact (orRemove_keeps h (mapTables_keeps mobj)).bind fun _ => .pure _

lemma splitUnless_spec (h : Stable cfg F J) {point va : ℕ} (aligned : Bool) (hva : smallPageSize ∣ va) :
    Spec (OnRegions fun rs => findVmRegion rs point = some r ∧ J rs) (splitUnless aligned r point va)
      (fun _ => OnRegions J) (fun _ => OnRegions J) := by
  rw [splitUnless]
  split_ifs
  · exact .pure fun s hs => hs.2
  · refine .bind (check_spec fun s hs => hs.2) fun _ => .and_left fun hcut => ?_
    refine .bind ((allocTables_keeps _).fails fun _ s hs => hs.2) fun _ => ?_
    refine .modify fun s hs => ?_
    obtain ⟨hfind, hJ⟩ := hs
    have hascending := (h.sound _ hJ).ascending
    obtain ⟨hmem, hcov⟩ := (covering_eq_some hascending).mp hfind
    refine h.cut _ _ _ hJ hva fun x hx hxp => ?_
    rw [hascending.eq_of_covers hx hmem hxp hcov, Region.endVa]
    omega

lemma splitVmRange_keeps (h : Stable cfg F J) (va len : ℕ) (cmp : Region → Region → Region → Bool) :
    Invariant (OnRegions J) (splitVmRange cfg va len cmp) := by
  refine Spec.bind (check_spec fun s hs => hs) fun _ => Spec.and_left fun halign => ?_
  have hva := dvd_of_pageAligned halign.1
  have hend := Nat.dvd_add hva (dvd_of_pageAligned halign.2)
  refine (check_keeps _ _).bind fun _ => ?_
  refine Spec.bind (findOr_spec fun s hs => hs) fun r => ?_
  refine Spec.bind (Q := fun _ s => findVmRegion s.regions va = some r ∧ OnRegions J s)
    (.get fun s hs => hs) fun s => ?_
  refine Spec.bind (check_spec fun s hs => hs.2) fun _ => Spec.and_left fun _ => ?_
  refine .bind (splitUnless_spec h _ hva) fun _ => ?_
  exact .bind (findOr_spec fun s hs => hs) fun last => splitUnless_spec h _ hend

lemma setPagerAttr_spec (r : Region) :
    Preserves (OnRegions J) (setPagerAttr r) (fun e s => e = .panic ∧ OnRegions J s) := by
  rw [setPagerAttr]
  split_ifs
  · exact allocate_spec _
  · exact .pure fun _ => id

lemma setPagerAttr_keeps (r : Region) : Invariant (OnRegions J) (setPagerAttr r) :=
  (setPagerAttr_spec r).fails fun _ _ h => h.2

lemma vmSetProt_keeps (va len : ℕ) (prot : UInt32) : Invariant (OnRegions (Sound cfg)) (vmSetProt cfg va len prot) := by
  refine (check_keeps _ _).bind fun _ => (splitVmRange_keeps sound_stable _ _ _).bind fun first => .get_bind fun s hs => ?_
  refine (setRegions_keeps ?_).bind fun _ => (Invariant.forM _ setPagerAttr_keeps).bind fun _ =>
    .modify fun s hs => mergeVmRange_sound hs
  refine Sound.map ?_ fun r => ⟨rfl, rfl, rfl, rfl⟩
  rw [before_within_beyond]
  exact hs

lemma before_append_sublist {va : ℕ} (h : rs'.Sublist (fromVa va rs)) : (before va rs ++ rs').Sublist rs := by
  conv_rhs => rw [← before_fromVa va rs]
  exact (List.Sublist.refl _).append h

lemma vmUnmap_keeps (va len : ℕ) : Invariant (OnRegions (Sound cfg)) (vmUnmap cfg va len) := by
  refine (ofResult_keeps _).bind fun l => (check_keeps _ _).bind fun _ => (check_keeps _ _).bind fun _ =>
    (splitVmRange_keeps sound_stable _ _ _).bind fun first => .modify fun s hs => ?_
  exact Sound.sublist hs (before_append_sublist unmapUntil_sublist)

lemma orPanic_keeps (hp : Invariant (OnRegions J) p) : Invariant (OnRegions J) (orPanic p) :=
  hp.tryCatch fun _ => .throw _

variable {regs : List Region}

lemma restoreMap_keeps (h : Stable cfg F J) (paged : Bool) (nextVa : ℕ)
    (hregs : ∀ r ∈ regs, F r.flags) : Invariant (OnRegions J) (restoreMap cfg paged nextVa regs) := by
  induction regs generalizing nextVa with
  | nil => exact .pure _
  | cons r rs ih =>
    rw [forall_mem_cons] at hregs
    exact (orPanic_keeps (addRegion_keeps h { r with va := nextVa } hregs.1 _ _ _)).bind fun _ =>
      (orPanic_keeps (allocTables_keeps _)).bind fun _ => ih _ hregs.2

variable (h : Stable cfg F J) (hall : ∀ rs, J rs → ∀ r ∈ rs, F r.flags)
include h hall

lemma takeBack_keeps (first last : Region) :
    Spec (OnRegions J) (takeBack first last) (fun moved s => (∀ r ∈ moved, F r.flags) ∧ OnRegions J s)
      (fun _ => OnRegions J) := by
  refine .get_bind fun s hs => .bind (Q := fun _ _ => True) ?_ fun _ => ?_
  · rw [check]
    split_ifs
    · exact .pure fun _ _ => trivial
    · exact .throw fun t ht => ht ▸ hs
  refine .bind (.modify fun _ _ => ?_) fun _ => .pure fun t ht => ⟨?_, ht⟩
  · refine h.sublist _ _ hs ?_
    conv_rhs => rw [← takeWhile_append_dropWhile (p := (· ≠ first)) (l := s.regions)]
    exact (List.Sublist.refl _).append (dropWhile_sublist _)
  · exact fun r hr => hall _ hs r ((dropWhile_sublist _).subset ((takeWhile_sublist _).subset hr))

lemma failMove_keeps (paged : Bool) (oldVa : ℕ) (hregs : ∀ r ∈ regs, F r.flags)
    (placed : Option (Region × Region)) (e : TeeError) :
    Invariant (OnRegions J) (failMove cfg paged oldVa regs placed e : UserMode α) := by
  refine Spec.bind (Q := fun moved s => (∀ r ∈ moved, F r.flags) ∧ OnRegions J s) ?_ fun moved =>
    Spec.and_left fun hmoved => (restoreMap_keeps h _ _ ?_).bind fun _ => .throw _
  · cases placed with
    | none => exact .pure fun s hs => ⟨by simp, hs⟩
    | some p => exact takeBack_keeps h hall p.1 p.2
  · exact forall_mem_append.mpr ⟨hmoved, hregs⟩

omit hall in
lemma placeRegion_keeps (newVa len padBegin padEnd : ℕ) (hr : F r.flags) (placed : Option (Region × Region)) :
    Invariant (OnRegions J) (placeRegion cfg newVa len padBegin padEnd r placed) := by
  cases placed with
  | none => exact addRegion_keeps h { r with va := newVa } hr _ _ _
  | some p => exact addRegion_keeps h { r with va := p.2.endVa } hr _ _ _

lemma moveRegions_keeps (newVa oldVa len padBegin padEnd : ℕ) (paged : Bool) (placed : Option (Region × Region))
    (hregs : ∀ r ∈ regs, F r.flags) :
    Invariant (OnRegions J) (moveRegions cfg newVa oldVa len padBegin padEnd paged placed regs) := by
  induction regs generalizing placed with
  | nil => exact ofResult_keeps _
  | cons r rs ih =>
    have hrs := forall_mem_cons.mp hregs
    exact ((placeRegion_keeps h _ _ _ _ hrs.1 _).tryCatch fun e => failMove_keeps h hall _ _ hregs _ e).bind fun reg =>
      ((allocTables_keeps _).tryCatch fun e => failMove_keeps h hall _ _ hrs.2 _ e).bind fun _ => ih _ hrs.2

lemma vmRemap_keeps (newVa oldVa len padBegin padEnd : ℕ) :
    Invariant (OnRegions J) (vmRemap cfg newVa oldVa len padBegin padEnd) := by
  refine (check_keeps _ _).bind fun _ => (splitVmRange_keeps h _ _ _).bind fun first => .get_bind fun s hs => ?_
  have hwithin : ∀ r ∈ within oldVa (oldVa + len) s.regions, F r.flags := fun r hr =>
    hall _ hs r ((dropWhile_sublist _).subset ((takeWhile_sublist _).subset hr))
  cases hw : within oldVa (oldVa + len) s.regions with
  | nil => exact .throw _
  | cons r rs =>
    refine (check_keeps _ _).bind fun _ => Invariant.bind (.modify fun s hs => ?_) fun _ =>
      moveRegions_keeps h hall _ _ _ _ _ _ _ (hw ▸ hwithin)
    exact h.sublist _ _ hs (before_append_sublist (dropWhile_sublist _))

omit hall

lemma vmCleanParam_keeps : Invariant (OnRegions J) vmCleanParam :=
  .modify fun _ hs => h.sublist _ _ hs filter_sublist

lemma vmMapParam_keeps (hflags : F (Flag.ephemeral ||| Flag.shareable).toUInt32.toUInt16) (params : List ParamMem) :
    Invariant (OnRegions J) (vmMapParam cfg params) := by
  refine .get_bind fun s _ => (check_keeps _ _).bind fun _ => Invariant.tryCatch ?_ fun e =>
    (vmCleanParam_keeps h).bind fun _ => .throw e
  refine (Invariant.forM _ fun m => ?_).bind fun _ => (Invariant.forM _ fun p => ?_).bind fun _ => allocate_keeps _
  · exact (vmMapPad_keeps h hflags _ _ _ _ _ _ _ _).bind fun _ => .pure _
  · rw [paramVa]
    split
    · exact .pure _
    · exact .get_bind fun _ _ => (ofResult_keeps _).bind fun _ => .pure _

lemma vmAddRwmem_keeps (hflags : F 0) (mobj : Mobj) : Invariant (OnRegions J) (vmAddRwmem cfg mobj) :=
  (allocate_keeps _).bind fun _ => (addRegion_keeps h _ hflags _ _ _).bind fun _ =>
    (orRemove_keeps h (allocate_keeps _)).bind fun _ => .pure _

lemma mapKernel_keeps (hflags : F Flag.permanent.toUInt32.toUInt16) (prot : UInt16) (k : KernelMap) :
    Invariant (OnRegions J) (mapKernel cfg prot k) := by
  rw [mapKernel]
  split_ifs
  · exact .pure _
  · exact (vmMapPad_keeps h hflags _ _ _ _ _ _ _ _).bind fun _ => .pure _

lemma vmInfoInit_keeps (hflags : F Flag.permanent.toUInt32.toUInt16) (hnil : J []) (kcode kdata : KernelMap) :
    Invariant (OnRegions J) (vmInfoInit cfg kcode kdata) :=
  Invariant.tryCatch ((mapKernel_keeps h hflags _ _).bind fun _ => mapKernel_keeps h hflags _ _) fun e =>
    (setRegions_keeps hnil).bind fun _ => .throw e

omit h

lemma body_keeps (call : Call) : Invariant (OnRegions (Sound cfg)) (call.body cfg) := by
  cases call with
  | mapPad va len prot flags mobj offs padBegin padEnd align =>
    exact (vmMapPad_keeps sound_stable trivial _ _ _ _ _ _ _ _).bind fun _ => .pure _
  | mapParam params => exact vmMapParam_keeps sound_stable trivial params
  | cleanParam => exact vmCleanParam_keeps sound_stable
  | addRwmem mobj => exact (vmAddRwmem_keeps sound_stable trivial mobj).bind fun _ => .pure _
  | remRwmem mobj va => exact .modify fun s hs => Sound.sublist hs eraseP_sublist
  | remap newVa oldVa len padBegin padEnd =>
    exact (vmRemap_keeps sound_stable (fun _ _ _ _ => trivial) _ _ _ _ _).bind fun _ => .pure _
  | setProt va len prot => exact vmSetProt_keeps va len prot
  | unmap va len => exact vmUnmap_keeps va len

lemma keeps_stateOf {s : VmInfo} (hp : Invariant (OnRegions J) p) (hs : J s.regions) : J (stateOf (p s)).regions := by
  have := hp s hs
  cases hx : p s with
  | ok a t | error e t =>
    rw [hx] at this
    exact this

end Programs

end Optee.Vm
