import Mathlib.Data.List.TakeWhile
import Optee.Lib.Runs
import Optee.Vm.AddressSpace

/-! What the system calls of `ldelf` do to the pages of an address space. -/

namespace Optee.Vm

open Lib Lib.Effects Lib.Spans List Option

structure Page where
  mobj : Mobj
  offset : ℕ
  attr : UInt16
  flags : UInt16
  deriving DecidableEq

def Region.page (r : Region) (va : ℕ) : Page := ⟨r.mobj, r.offset + (va - r.va), r.attr, r.flags⟩

def view (regions : List Region) (va : ℕ) : Option Page := (findVmRegion regions va).map (·.page va)

def Page.withProt (prot : UInt32) (p : Page) : Page :=
  { p with attr := (p.attr &&& ~~~Mattr.protMask.toUInt16) ||| prot.toUInt16 }

def Page.Permanent (p : Page) : Prop := p.flags &&& Flag.permanent ≠ 0

def Page.Readonly (p : Page) : Prop := p.flags &&& Flag.readonly ≠ 0

def Page.Writeable (p : Page) : Prop := p.attr &&& (Mattr.uw ||| Mattr.pw) ≠ 0

variable {x : Region} {prot : UInt32}

section View

variable {cfg : Config} {rs rs' xs ys zs : List Region} {r next : Region} {a va endVa point : ℕ} {p : Page}

lemma contains_iff : r.Contains a ↔ r.va ≤ a ∧ a < r.va + r.size := Iff.rfl

lemma view_nil : view [] a = none := rfl

lemma view_cons : view (r :: rs) a = if r.Contains a then some (r.page a) else view rs a := by
  rw [view, findVmRegion, covering]
  by_cases h : Covers Region.va Region.endVa r a
  · simp [h, Region.Contains]
  · simp [h, Region.Contains, view, findVmRegion, covering]

lemma view_append : view (xs ++ ys) a = (view xs a).or (view ys a) := by
  induction xs with
  | nil => simp [view_nil]
  | cons x xs ih =>
    rw [cons_append, view_cons, view_cons]
    split_ifs
    · rfl
    · exact ih

lemma exists_of_view (h : view rs a = some p) : ∃ r ∈ rs, r.Contains a ∧ r.page a = p := by
  obtain ⟨r, hr, rfl⟩ := map_eq_some_iff.mp h
  exact ⟨r, mem_of_find?_eq_some hr, by simpa [Region.Contains] using find?_some hr, rfl⟩

lemma view_of_mem (h : Sound cfg rs) (hr : r ∈ rs) (ha : r.Contains a) : view rs a = some (r.page a) := by
  rw [view, findVmRegion, (covering_eq_some h.ascending).mpr ⟨hr, ha⟩]
  rfl

lemma view_splitVmRegion (hcut : ∀ r ∈ rs, r.Contains point → r.va < va ∧ va < r.endVa) :
    view (splitVmRegion point va rs) a = view rs a := by
  obtain ⟨-, heq⟩ | ⟨front, r, back, hc, rfl, heq⟩ := splitVmRegion_cases point va rs
  · rw [heq]
  obtain ⟨hlo, hhi⟩ := hcut r (by simp) hc
  rw [Region.endVa] at hhi
  rw [heq, view_append, view_append]
  simp only [view_cons, contains_iff, Region.head, Region.tail, Region.page]
  split_ifs with h1 h2 h3 h4 h5
  · rfl
  · omega
  · rw [show r.offset + (va - r.va) + (a - va) = r.offset + (a - r.va) by omega]
  · omega
  · omega
  · rfl

lemma view_mergeFrom : view (mergeFrom va endVa r rs) a = view (r :: rs) a := by
  induction rs generalizing r with
  | nil => rfl
  | cons next rs ih =>
    rw [mergeFrom]
    split_ifs with h1 h2 hm
    · rw [view_cons, ih, view_cons (r := r)]
    · rfl
    · rw [ih]
      simp only [mergeable, Bool.and_eq_true, decide_eq_true_eq] at hm
      obtain ⟨⟨⟨⟨hend, hmobj⟩, hflags⟩, hattr⟩, hoffs⟩ := hm
      rw [Region.endVa] at hend
      simp only [view_cons, contains_iff, Region.page, ← hmobj, ← hflags, ← hattr, ← hoffs, ← hend]
      split_ifs with h3 h4 h5 h6 h7
      · rfl
      · rw [show r.offset + r.size + (a - (r.va + r.size)) = r.offset + (a - r.va) by omega]
      · omega
      · omega
      · omega
      · rfl
    · rw [view_cons, ih, view_cons (r := r)]

lemma view_mergeVmRange : view (mergeVmRange va endVa rs) a = view rs a := by
  cases rs with
  | nil => rfl
  | cons r rs => exact view_mergeFrom

lemma view_map_withProt (prot : UInt32) : view (rs.map (·.withProt prot)) a = (view rs a).map (·.withProt prot) := by
  induction rs with
  | nil => rfl
  | cons r rs ih =>
    have hc : (r.withProt prot).Contains a ↔ r.Contains a := Iff.rfl
    rw [map_cons, view_cons, view_cons, ih]
    by_cases h : r.Contains a
    · rw [if_pos h, if_pos (hc.mpr h)]
      rfl
    · rw [if_neg h, if_neg (mt hc.mp h)]

def Kept (W : ℕ → Option Page) (rs : List Region) : Prop := ∀ a p, W a = some p → view rs a = some p

def outside (V : ℕ → Option Page) (lo hi a : ℕ) : Option Page := if lo ≤ a ∧ a < hi then none else V a

variable {W V : ℕ → Option Page}

lemma Kept.remove (hs : Sound cfg (xs ++ ys ++ zs)) (h : Kept W (xs ++ ys ++ zs))
    (hy : ∀ y ∈ ys, ∀ a, y.Contains a → W a = none) : Kept W (xs ++ zs) := by
  intro a p ha
  obtain ⟨r, hr, hra, hp⟩ := exists_of_view (h a p ha)
  have hsub : (xs ++ zs).Sublist (xs ++ ys ++ zs) := (sublist_append_left xs ys).append (List.Sublist.refl zs)
  have hmem : r ∈ xs ++ zs := by
    rcases mem_append.mp hr with hr | hr
    · rcases mem_append.mp hr with hr | hr
      · exact mem_append_left _ hr
      · rw [hy r hr a hra] at ha
        cases ha
    · exact mem_append_right _ hr
  rw [view_of_mem (hs.sublist hsub) hmem hra, hp]

lemma Kept.insert {reg : Region} {q : List Region × Region} (h : Kept W rs) (hs : Sound cfg q.1)
    (hins : Inserted rs reg q) : Kept W q.1 ∧ ∀ a, q.2.Contains a → W a = none := by
  obtain ⟨front, back, hsplit, hq⟩ := hins.split
  have hsub : ∀ x ∈ rs, x ∈ q.1 := by
    intro x hx
    rw [hsplit] at hx
    rw [hq]
    exact (mem_append.mp hx).elim (fun hx => mem_append_left _ hx)
      fun hx => mem_append_right _ (mem_cons_of_mem _ hx)
  refine ⟨fun a p ha => ?_, fun a hqa => ?_⟩
  · obtain ⟨r, hr, hra, hp⟩ := exists_of_view (h a p ha)
    rw [view_of_mem hs (hsub r hr) hra, hp]
  · by_contra hne
    obtain ⟨p, hp⟩ := ne_none_iff_exists'.mp hne
    obtain ⟨r, hr, hra, -⟩ := exists_of_view (h a p hp)
    -- the region of that page is in front of the new one or behind it
    rw [hq] at hs
    obtain ⟨-, hback, hfront⟩ := sound_append.mp hs
    obtain ⟨-, hbehind, -⟩ := sound_cons.mp hback
    rw [hsplit] at hr
    rcases mem_append.mp hr with hr | hr
    · exact absurd (hra.2.trans_le ((hfront r hr _ mem_cons_self).trans hqa.1)) (lt_irrefl _)
    · exact absurd (hqa.2.trans_le ((hbehind r hr).trans hra.1)) (lt_irrefl _)

def StartsAt (va : ℕ) (rs : List Region) : Prop := ∃ x ∈ rs, x.va = va ∧ 0 < x.size

def EndsAt (va : ℕ) (rs : List Region) : Prop := ∃ x ∈ rs, x.endVa = va ∧ 0 < x.size

lemma contains_of_fromVa (h : fromVa va rs = r :: xs) : r.Contains va := by
  have := head?_dropWhile_not (p := fun r : Region => ¬r.Contains va) (l := rs)
  rw [show rs.dropWhile (fun r => ¬r.Contains va) = r :: xs from h] at this
  simpa using this

lemma le_of_mem_fromVa (h : Sound cfg rs) (hstart : StartsAt va rs) : ∀ x ∈ fromVa va rs, va ≤ x.va := by
  have hsub : (fromVa va rs).Sublist rs := dropWhile_sublist _
  cases hf : fromVa va rs with
  | nil => simp
  | cons y ys =>
    have hy := contains_of_fromVa hf
    rw [hf] at hsub
    obtain ⟨x, hx, rfl, hpos⟩ := hstart
    have hxy := h.ascending.eq_of_covers hx (hsub.subset mem_cons_self) ⟨le_rfl, Nat.lt_add_of_pos_right hpos⟩ hy
    exact (h.sublist hsub).ascending.le_of_head (hxy ▸ le_rfl)

lemma view_eq_none (h : ∀ x ∈ xs, ¬x.Contains a) : view xs a = none := by
  by_contra hne
  obtain ⟨p, hp⟩ := ne_none_iff_exists'.mp hne
  obtain ⟨x, hx, hxa, -⟩ := exists_of_view hp
  exact h x hx hxa

structure Cut (va endVa : ℕ) (xs ys zs : List Region) : Prop where
  front : ∀ x ∈ xs, x.endVa ≤ va
  inside : ∀ y ∈ ys, va ≤ y.va ∧ y.endVa ≤ endVa
  back : ∀ z ∈ zs, endVa ≤ z.va

lemma Cut.view_ends (h : Cut va endVa xs ys zs) (ha : va ≤ a ∧ a < endVa) : view xs a = none ∧ view zs a = none :=
  ⟨view_eq_none fun x hx hxa => absurd ((h.front x hx).trans ha.1) (not_le.mpr hxa.2),
    view_eq_none fun z hz hza => absurd ((h.back z hz).trans hza.1) (not_le.mpr ha.2)⟩

lemma Cut.view_middle (h : Cut va endVa xs ys zs) (ha : ¬(va ≤ a ∧ a < endVa)) : view ys a = none :=
  view_eq_none fun y hy hya => ha ⟨(h.inside y hy).1.trans hya.1, hya.2.trans_le (h.inside y hy).2⟩

lemma Cut.view_remove (h : Cut va endVa xs ys zs) : view (xs ++ zs) a = outside (view (xs ++ ys ++ zs)) va endVa a := by
  rw [outside]
  split_ifs with ha
  · rw [view_append, (h.view_ends ha).1, (h.view_ends ha).2, none_or]
  · rw [view_append, view_append, view_append, h.view_middle ha, or_none]

def reprotect (V : ℕ → Option Page) (lo hi : ℕ) (prot : UInt32) (a : ℕ) : Option Page :=
  if lo ≤ a ∧ a < hi then (V a).map (·.withProt prot) else V a

lemma Cut.view_map (h : Cut va endVa xs ys zs) (prot : UInt32) :
    view (xs ++ ys.map (·.withProt prot) ++ zs) a = reprotect (view (xs ++ ys ++ zs)) va endVa prot a := by
  rw [reprotect, view_append, view_append, view_append, view_append, view_map_withProt]
  split_ifs with ha
  · simp [h.view_ends ha]
  · simp [h.view_middle ha]

lemma endVa_le_of_mem_before (h : Sound cfg rs) (hstart : StartsAt va rs) : ∀ x ∈ before va rs, x.endVa ≤ va := by
  intro x hx
  obtain ⟨y, hy, hyva, hpos⟩ := hstart
  rw [← before_fromVa va rs] at h hy
  refine hyva ▸ (sound_append.mp h).2.2 x hx y ((mem_append.mp hy).resolve_left fun hb => ?_)
  have hya : y.Contains va := ⟨hyva.le, hyva ▸ Nat.lt_add_of_pos_right hpos⟩
  simpa [hya] using mem_takeWhile_imp hb

lemma cut_range (h : Sound cfg rs) (hstart : StartsAt va rs) (hend : EndsAt endVa rs) :
    Cut va endVa (before va rs) (within va endVa rs) (beyond va endVa rs) := by
  refine ⟨endVa_le_of_mem_before h hstart, fun y hy => ⟨?_, ?_⟩, fun z hz => ?_⟩
  · exact le_of_mem_fromVa h hstart y ((takeWhile_sublist _).subset hy)
  · simpa using mem_takeWhile_imp hy
  · obtain ⟨e, he, rfl, -⟩ := hend
    rw [← before_within_beyond va e.endVa rs] at h he
    obtain ⟨-, hback, hcross⟩ := sound_append.mp h
    refine hcross e ((mem_append.mp he).resolve_right fun hb => ?_) z hz
    -- the first region behind the range reaches beyond its end
    cases hbeyond : beyond va e.endVa rs with
    | nil => simp [hbeyond] at hb
    | cons x xs =>
      have hx : e.endVa < x.endVa := by
        have := head?_dropWhile_not (p := fun r : Region => decide (r.endVa ≤ e.endVa)) (l := fromVa va rs)
        rw [show (fromVa va rs).dropWhile (fun r => r.endVa ≤ e.endVa) = x :: xs from hbeyond] at this
        simpa using this
      rw [hbeyond] at hb hback
      rcases mem_cons.mp hb with rfl | hb
      · exact lt_irrefl _ hx
      · exact absurd (((sound_cons.mp hback).2.1 e hb).trans (Nat.le_add_right _ _)) (not_le.mpr hx)

end View

section Programs

variable {cfg : Config} {V W : ℕ → Option Page} {α : Type}

def Shows (cfg : Config) (V : ℕ → Option Page) (rs : List Region) : Prop := Sound cfg rs ∧ ∀ a, view rs a = V a

def Keeps (cfg : Config) (W : ℕ → Option Page) (rs : List Region) : Prop := Sound cfg rs ∧ Kept W rs

variable {rs : List Region} {va point lo hi endVa : ℕ} {r : Region} {placed : Option (Region × Region)}

lemma Shows.cut (h : Shows cfg V rs) (hva : smallPageSize ∣ va) (hfind : findVmRegion rs point = some r)
    (hcut : r.va < va ∧ va - r.va < r.size) : Shows cfg V (splitVmRegion point va rs) := by
  obtain ⟨hmem, hcov⟩ := (covering_eq_some h.1.ascending).mp hfind
  have hcuts : ∀ x ∈ rs, x.Contains point → x.va < va ∧ va < x.endVa := by
    intro x hx hxp
    rw [h.1.ascending.eq_of_covers hx hmem hxp hcov, Region.endVa]
    omega
  exact ⟨splitVmRegion_sound h.1 hva hcuts, fun a => (view_splitVmRegion hcuts).trans (h.2 a)⟩

lemma mem_splitVmRegion (h : Sound cfg rs) (hfind : findVmRegion rs point = some r) :
    r.head va ∈ splitVmRegion point va rs ∧ r.tail va ∈ splitVmRegion point va rs := by
  obtain ⟨hmem, hcov⟩ := (covering_eq_some h.ascending).mp hfind
  obtain ⟨hno, -⟩ | ⟨front, x, back, hx, rfl, heq⟩ := splitVmRegion_cases point va rs
  · exact absurd hcov (hno r hmem)
  · obtain rfl := h.ascending.eq_of_covers hmem (by simp) hcov hx
    rw [heq]
    simp

lemma mem_splitVmRegion_of_not (hx : x ∈ rs) (hp : ¬x.Contains point) : x ∈ splitVmRegion point va rs := by
  obtain ⟨-, heq⟩ | ⟨front, r, back, hr, rfl, heq⟩ := splitVmRegion_cases point va rs
  · rwa [heq]
  · have hne : x ≠ r := fun hxr => hp (hxr ▸ hr)
    simp only [mem_append, mem_cons, hne, false_or] at hx
    rw [heq]
    obtain hx | hx := hx <;> simp [hx]

lemma pos_of_contains {a : ℕ} (h : r.Contains a) : 0 < r.size := by
  rw [contains_iff] at h
  omega

lemma StartsAt.cut {start : ℕ} (h : StartsAt start rs) (hs : Sound cfg rs) (hfind : findVmRegion rs point = some r)
    (hlo : r.va < va) : StartsAt start (splitVmRegion point va rs) := by
  obtain ⟨x, hx, hstart, hpos⟩ := h
  by_cases hp : x.Contains point
  · obtain ⟨hmem, hcov⟩ := (covering_eq_some hs.ascending).mp hfind
    obtain rfl := hs.ascending.eq_of_covers hx hmem hp hcov
    exact ⟨_, (mem_splitVmRegion hs hfind).1, hstart, Nat.sub_pos_of_lt hlo⟩
  · exact ⟨x, mem_splitVmRegion_of_not hx hp, hstart, hpos⟩

lemma splitUnless_shows {J K : List Region → Prop} {aligned : Bool} (hva : smallPageSize ∣ va)
    (hwhole : aligned = true → ∀ rs, Shows cfg V rs → J rs → findVmRegion rs point = some r → K rs)
    (hcut : ∀ rs, Shows cfg V rs → J rs → findVmRegion rs point = some r → r.va < va → va - r.va < r.size →
      K (splitVmRegion point va rs)) :
    Spec (OnRegions fun rs => findVmRegion rs point = some r ∧ Shows cfg V rs ∧ J rs) (splitUnless aligned r point va)
      (fun _ => OnRegions fun rs => Shows cfg V rs ∧ K rs) (fun _ => OnRegions (Shows cfg V)) := by
  rw [splitUnless]
  split_ifs with ha
  · exact .pure fun s hs => ⟨hs.2.1, hwhole ha _ hs.2.1 hs.2.2 hs.1⟩
  · refine .bind (check_spec fun s hs => hs.2.1) fun _ => .and_left fun hin => ?_
    refine .bind ((allocTables_keeps _).fails fun _ s hs => hs.2.1) fun _ => ?_
    exact .modify fun s hs => ⟨hs.2.1.cut hva hs.1 hin, hcut _ hs.2.1 hs.2.2 hs.1 hin.1 hin.2⟩

lemma splitVmRange_shows {len : ℕ} (cmp : Region → Region → Region → Bool) :
    Spec (OnRegions (Shows cfg V)) (splitVmRange cfg va len cmp)
      (fun _ => OnRegions fun rs => Shows cfg V rs ∧ smallPageSize ∣ len ∧ StartsAt va rs ∧ EndsAt (va + len) rs)
      (fun _ => OnRegions (Shows cfg V)) := by
  refine .bind (check_spec fun s hs => hs) fun _ => .and_left fun halign => ?_
  have hva := dvd_of_pageAligned halign.1
  have hlen := dvd_of_pageAligned halign.2
  have hend := Nat.dvd_add hva hlen
  refine .bind (check_keeps _ _) fun _ => ?_
  refine .bind (findOr_spec fun s hs => hs) fun r => ?_
  refine .bind (Q := fun _ s => findVmRegion s.regions va = some r ∧ OnRegions (Shows cfg V) s)
    (.get fun s hs => hs) fun s => ?_
  refine .bind (check_spec fun s hs => hs.2) fun _ => .and_left fun _ => ?_
  refine .bind ((splitUnless_shows (J := fun _ => True) (K := StartsAt va) hva ?_ ?_).of_imp
    fun s hs => ⟨hs.1, hs.2, trivial⟩) fun _ => ?_
  · intro ha rs hs _ hfind
    obtain ⟨hmem, hcov⟩ := (covering_eq_some hs.1.ascending).mp hfind
    exact ⟨r, hmem, (of_decide_eq_true ha).symm, pos_of_contains hcov⟩
  · intro rs hs _ hfind hlo hhi
    exact ⟨_, (mem_splitVmRegion hs.1 hfind).2, rfl, Nat.sub_pos_of_lt hhi⟩
  refine .bind (findOr_spec fun s hs => hs.1) fun last => ?_
  refine splitUnless_shows hend ?_ ?_
  · intro ha rs hs hstart hfind
    obtain ⟨hmem, hcov⟩ := (covering_eq_some hs.1.ascending).mp hfind
    exact ⟨hlen, hstart, last, hmem, (of_decide_eq_true ha).symm, pos_of_contains hcov⟩
  · intro rs hs hstart hfind hlo hhi
    refine ⟨hlen, hstart.cut hs.1 hfind hlo, _, (mem_splitVmRegion hs.1 hfind).1, ?_, Nat.sub_pos_of_lt hlo⟩
    exact Nat.add_sub_cancel' hlo.le

def Reprotected (cfg : Config) (V : ℕ → Option Page) (lo hi : ℕ) (prot : UInt32) (rs : List Region) : Prop :=
  Sound cfg rs ∧ ∀ a, view rs a = V a ∨ (lo ≤ a ∧ a < hi) ∧ view rs a = (V a).map (·.withProt prot)

lemma vmSetProt_shows (va len : ℕ) (prot : UInt32) :
    Spec (OnRegions (Shows cfg V)) (vmSetProt cfg va len prot)
      (fun _ s => smallPageSize ∣ len ∧ OnRegions (Shows cfg (reprotect V va (va + len) prot)) s)
      (fun e => OnRegions fun rs => Shows cfg V rs ∨ e = .panic ∧ Shows cfg (reprotect V va (va + len) prot) rs) := by
  refine .bind (check_spec fun s hs => .inl hs) fun _ => .and_left fun hargs => ?_
  refine .bind ((splitVmRange_shows _).fails fun _ s hs => .inl hs) fun _ => ?_
  refine .get_bind fun s ⟨hshows, hdvd, hstart, hend⟩ => ?_
  refine .bind (Q := fun _ => OnRegions (Shows cfg (reprotect V va (va + len) prot))) (.modify fun _ _ => ?_)
    fun _ => ?_
  · refine ⟨Sound.map ?_ fun r => ⟨rfl, rfl, rfl, rfl⟩, fun a => ?_⟩
    · rw [before_within_beyond]
      exact hshows.1
    · rw [(cut_range hshows.1 hstart hend).view_map, before_within_beyond, reprotect, reprotect, hshows.2]
  · refine Spec.bind ((Spec.forM _ setPagerAttr_spec).fails fun e s hs => .inr hs) fun _ => ?_
    refine .modify fun s hs => ⟨hdvd, mergeVmRange_sound hs.1, fun a => ?_⟩
    rw [view_mergeVmRange]
    exact hs.2 a

lemma Shows.reprotected_of (h : Shows cfg (reprotect V lo hi prot) rs) : Reprotected cfg V lo hi prot rs := by
  refine ⟨h.1, fun a => ?_⟩
  rw [h.2, reprotect]
  split_ifs with ha
  · exact .inr ⟨ha, rfl⟩
  · exact .inl rfl

lemma unmapUntil_eq (h : Sound cfg rs) (hend : ∃ x ∈ rs, x.endVa = endVa) :
    ∃ gone, rs = gone ++ unmapUntil endVa rs ∧ (∀ x ∈ gone, x.endVa ≤ endVa) ∧ ∀ x ∈ unmapUntil endVa rs, endVa ≤ x.va := by
  induction rs with
  | nil =>
    obtain ⟨x, hx, -⟩ := hend
    cases hx
  | cons r rs ih =>
    obtain ⟨-, hall, hrs⟩ := sound_cons.mp h
    rw [unmapUntil]
    split_ifs with hr
    · exact ⟨[r], rfl, by simp [hr], hr ▸ hall⟩
    obtain ⟨x, hx, hxe⟩ := hend
    have hx' := (mem_cons.mp hx).resolve_left fun he => hr (he ▸ hxe)
    obtain ⟨gone, hgone, hle, hbehind⟩ := ih hrs ⟨x, hx', hxe⟩
    refine ⟨r :: gone, by rw [cons_append, ← hgone], fun y hy => ?_, hbehind⟩
    rcases mem_cons.mp hy with rfl | hy
    · exact (hall x hx').trans (hxe ▸ Nat.le_add_right _ _)
    · exact hle y hy

lemma Keeps.of_reprotected (h : Reprotected cfg V lo hi prot rs) : Keeps cfg (outside V lo hi) rs := by
  refine ⟨h.1, fun a p ha => ?_⟩
  rw [outside] at ha
  split_ifs at ha with hin
  rcases h.2 a with hv | ⟨hin', -⟩
  · rw [hv, ha]
  · exact absurd hin' hin

lemma Shows.keeps (h : Shows cfg V rs) (lo hi : ℕ) : Keeps cfg (outside V lo hi) rs :=
  ⟨h.1, fun a p ha => by rw [h.2]; rw [outside] at ha; split_ifs at ha; exact ha⟩

lemma Keeps.remove {xs ys zs : List Region} (h : Keeps cfg W (xs ++ ys ++ zs))
    (hy : ∀ y ∈ ys, ∀ a, y.Contains a → W a = none) : Keeps cfg W (xs ++ zs) :=
  ⟨h.1.sublist ((sublist_append_left xs ys).append (List.Sublist.refl zs)), Kept.remove h.1 h.2 hy⟩

lemma shows_unmapped (h : Shows cfg V rs) (hstart : StartsAt va rs) (hend : EndsAt endVa rs) (hlt : va < endVa) :
    Shows cfg (outside V va endVa) (before va rs ++ unmapUntil endVa (fromVa va rs)) := by
  have hfront := endVa_le_of_mem_before h.1 hstart
  have hfrom : Sound cfg (fromVa va rs) := h.1.sublist (dropWhile_sublist _)
  have hlast : ∃ x ∈ fromVa va rs, x.endVa = endVa := by
    obtain ⟨x, hx, hxe, -⟩ := hend
    rw [← before_fromVa va rs] at hx
    exact ⟨x, (mem_append.mp hx).resolve_left fun hb => absurd (hxe ▸ hfront x hb) (not_le.mpr hlt), hxe⟩
  obtain ⟨gone, hgone, hle, hbehind⟩ := unmapUntil_eq hfrom hlast
  have hcut : Cut va endVa (before va rs) gone (unmapUntil endVa (fromVa va rs)) := by
    refine ⟨hfront, fun y hy => ⟨?_, hle y hy⟩, hbehind⟩
    exact le_of_mem_fromVa h.1 hstart y (by rw [hgone]; exact mem_append_left _ hy)
  refine ⟨h.1.sublist (before_append_sublist unmapUntil_sublist), fun a => ?_⟩
  rw [hcut.view_remove, append_assoc, ← hgone, before_fromVa, outside, outside, h.2]

lemma roundup_of_dvd {v g : ℕ} (hg : 0 < g) (h : g ∣ v) : roundup v g = v := by
  obtain ⟨k, rfl⟩ := h
  rw [roundup, Nat.mul_add_div hg, Nat.div_eq_of_lt (Nat.sub_one_lt_of_lt hg), add_zero, mul_comm]

lemma vmUnmap_shows (va len : ℕ) :
    Spec (OnRegions (Shows cfg V)) (vmUnmap cfg va len)
      (fun _ => OnRegions (Shows cfg (outside V va (va + roundup len smallPageSize)))) (fun _ => OnRegions (Shows cfg V)) := by
  refine .bind (Q := fun l s => l = roundup len smallPageSize ∧ OnRegions (Shows cfg V) s) ?_
    fun l => .and_left fun hl => ?_
  · cases hr : roundupOverflow cfg len smallPageSize with
    | none => exact .throw fun _ => id
    | some l => exact .pure fun s hs => ⟨roundupOverflow_eq hr, hs⟩
  subst hl
  refine .bind (check_spec fun _ => id) fun _ => .and_left fun hpos => ?_
  refine .bind (check_spec fun _ => id) fun _ => .and_left fun _ => ?_
  refine .bind (splitVmRange_shows _) fun _ => .modify fun s hs => ?_
  obtain ⟨hshows, -, hstart, hend⟩ := hs
  exact shows_unmapped hshows hstart hend (Nat.lt_add_of_pos_right (Nat.pos_of_ne_zero hpos.1))

lemma addRegion_keeps_pages (reg : Region) (padBegin padEnd align : ℕ) :
    Spec (OnRegions (Keeps cfg W)) (addRegion cfg reg padBegin padEnd align)
      (fun r s => ((∀ a, r.Contains a → W a = none) ∧ r.va ≠ 0 ∧ (reg.va ≠ 0 → r.va = reg.va)) ∧ OnRegions (Keeps cfg W) s)
      (fun _ => OnRegions (Keeps cfg W)) := by
  refine .get_bind fun s hs => ?_
  cases hp : umapAddRegion cfg s.regions reg padBegin padEnd align with
  | error e =>
    rintro _ rfl
    exact hs
  | ok p =>
    rintro _ rfl
    obtain ⟨hsound, hins⟩ := umapAddRegion_spec hs.1 hp
    obtain ⟨hkept, hfree⟩ := hs.2.insert hsound hins
    exact ⟨⟨hfree, hins.nonzero, hins.asked⟩, hsound, hkept⟩

lemma restoreMap_keeps_pages (paged : Bool) (nextVa : ℕ) (regs : List Region) :
    Invariant (OnRegions (Keeps cfg W)) (restoreMap cfg paged nextVa regs) := by
  induction regs generalizing nextVa with
  | nil => exact .pure _
  | cons r rs ih =>
    exact (orPanic_keeps ((addRegion_keeps_pages _ _ _ _).post fun _ _ h => h.2)).bind fun _ =>
      (orPanic_keeps (allocTables_keeps _)).bind fun _ => ih _

def Clear (W : ℕ → Option Page) (p : Region × Region) : Prop :=
  p.2.va ≠ 0 ∧ ∀ a, p.1.va ≤ a → a < p.2.endVa → W a = none

lemma takeBack_keeps_pages {p : Region × Region} (hclear : Clear W p) :
    Invariant (OnRegions (Keeps cfg W)) (takeBack p.1 p.2) := by
  refine .get_bind fun s hs => (Spec.bind (check_spec fun _ h => h) fun _ => Spec.and_left fun hlast => ?_)
  refine Invariant.bind (setRegions_keeps ?_) fun _ => .pure _
  have hsplit : s.regions = s.regions.takeWhile (· ≠ p.1) ++ (s.regions.dropWhile (· ≠ p.1)).takeWhile (· ≠ p.2) ++
      (s.regions.dropWhile (· ≠ p.1)).dropWhile (· ≠ p.2) := by
    rw [append_assoc, takeWhile_append_dropWhile, takeWhile_append_dropWhile]
  have hall := hs
  rw [OnRegions, hsplit] at hall
  refine hall.remove fun y hy a ha => ?_
  have hrest : Sound cfg (s.regions.dropWhile (· ≠ p.1)) := hs.1.sublist (dropWhile_sublist _)
  -- the regions that are taken lie between the first one and the last one
  have hlo : p.1.va ≤ y.va := by
    have hy' := (takeWhile_sublist _).subset hy
    cases hr : s.regions.dropWhile (· ≠ p.1) with
    | nil =>
      rw [hr] at hlast
      cases hlast
    | cons x xs =>
      have hx : x = p.1 := by
        have := head?_dropWhile_not (p := fun r : Region => decide (r ≠ p.1)) (l := s.regions)
        rw [hr] at this
        simpa using this
      rw [hr] at hy' hrest
      exact hrest.ascending.le_of_head (hx ▸ le_rfl) y hy'
  have hhi : y.endVa ≤ p.2.va := by
    rw [← takeWhile_append_dropWhile (l := s.regions.dropWhile (· ≠ p.1))] at hrest hlast
    refine (sound_append.mp hrest).2.2 y hy p.2 ?_
    refine (mem_append.mp hlast).resolve_left fun hmem => ?_
    simpa using mem_takeWhile_imp hmem
  exact hclear.2 a (hlo.trans ha.1) (ha.2.trans_le (hhi.trans (Nat.le_add_right _ _)))

lemma failMove_keeps_pages {Q : α → VmInfo → Prop} (hclear : ∀ p ∈ placed, Clear W p) (paged : Bool) (oldVa : ℕ)
    (regs : List Region) (e : TeeError) :
    Spec (OnRegions (Keeps cfg W)) (failMove cfg paged oldVa regs placed e : UserMode α) Q
      (fun _ => OnRegions (Keeps cfg W)) := by
  refine .bind ?_ fun _ =>
    .bind (restoreMap_keeps_pages _ _ _) fun _ => .throw fun _ => id
  cases placed with
  | none => exact .pure fun _ => id
  | some p => exact takeBack_keeps_pages (hclear p rfl)

lemma placeRegion_clear (hclear : ∀ p ∈ placed, Clear W p) (newVa len padBegin padEnd : ℕ) (r : Region) :
    Spec (OnRegions (Keeps cfg W)) (placeRegion cfg newVa len padBegin padEnd r placed)
      (fun reg s => Clear W (withLast placed reg) ∧ OnRegions (Keeps cfg W) s) (fun _ => OnRegions (Keeps cfg W)) := by
  cases placed with
  | none =>
    refine (addRegion_keeps_pages _ _ _ _).post fun reg s ⟨⟨hfree, hne, _⟩, hs⟩ => ⟨⟨hne, fun a hlo hhi => ?_⟩, hs⟩
    exact hfree a ⟨hlo, hhi⟩
  | some p =>
    obtain ⟨hpne, hp⟩ := hclear p rfl
    refine (addRegion_keeps_pages _ _ _ _).post fun reg s ⟨⟨hfree, hne, hasked⟩, hs⟩ => ⟨⟨hne, fun a hlo hhi => ?_⟩, hs⟩
    have hva : reg.va = p.2.endVa := hasked (Nat.add_pos_left (Nat.pos_of_ne_zero hpne) _).ne'
    by_cases ha : a < p.2.endVa
    · exact hp a hlo ha
    · exact hfree a ⟨hva.le.trans (not_lt.mp ha), hhi⟩

lemma moveRegions_keeps_pages (hclear : ∀ p ∈ placed, Clear W p) (newVa oldVa len padBegin padEnd : ℕ) (paged : Bool)
    (regs : List Region) :
    Invariant (OnRegions (Keeps cfg W)) (moveRegions cfg newVa oldVa len padBegin padEnd paged placed regs) := by
  induction regs generalizing placed with
  | nil => exact ofResult_keeps _
  | cons r rs ih =>
    refine Spec.bind ((placeRegion_clear hclear _ _ _ _ _).tryCatch fun e => failMove_keeps_pages hclear _ _ _ e) fun reg =>
      Spec.and_left fun hnew => ?_
    have hall : ∀ p ∈ some (withLast placed reg), Clear W p := by
      rintro _ ⟨⟩
      exact hnew
    exact .bind ((allocTables_keeps _).tryCatch fun e => failMove_keeps_pages hall _ _ _ e) fun _ => ih hall

lemma vmRemap_keeps_outside (newVa oldVa len padBegin padEnd : ℕ) :
    Spec (OnRegions (Shows cfg V)) (vmRemap cfg newVa oldVa len padBegin padEnd)
      (fun _ => OnRegions (Keeps cfg (outside V oldVa (oldVa + len))))
      (fun _ => OnRegions (Keeps cfg (outside V oldVa (oldVa + len)))) := by
  have hfail : ∀ s, OnRegions (Shows cfg V) s → OnRegions (Keeps cfg (outside V oldVa (oldVa + len))) s :=
    fun s hs => hs.keeps _ _
  refine .bind (check_spec hfail) fun _ => .and_left fun _ => ?_
  refine .bind ((splitVmRange_shows _).fails fun _ s hs => hfail s hs) fun _ => ?_
  refine .get_bind fun s ⟨hshows, _, hstart, hend⟩ => ?_
  have hkeeps := hshows.keeps oldVa (oldVa + len)
  cases hw : within oldVa (oldVa + len) s.regions with
  | nil =>
    rintro _ rfl
    exact hkeeps
  | cons r rs =>
    refine .bind (Q := fun _ t => t = s) ?_ fun _ => ?_
    · rw [check]
      split_ifs
      · exact .pure fun _ => id
      · rintro _ rfl
        exact hkeeps
    · refine .bind (.modify fun t ht => ?_)
        fun _ => moveRegions_keeps_pages (fun _ h => absurd h (not_mem_none _)) _ _ _ _ _ _ _
      subst ht
      rw [← before_within_beyond oldVa (oldVa + len) t.regions] at hkeeps
      refine hkeeps.remove fun y hy a ha => ?_
      obtain ⟨hlo, hhi⟩ := (cut_range hshows.1 hstart hend).inside y hy
      exact if_pos ⟨hlo.trans ha.1, ha.2.trans_le hhi⟩

end Programs

/-! The system calls -/

namespace MapFlag

def shareable : UInt64 := 1
def writeable : UInt64 := 2
def executable : UInt64 := 4

end MapFlag

section Syscalls

variable (cfg : Config)

def protOf (flags : UInt64) : UInt32 :=
  (Mattr.ur ||| Mattr.pr).toUInt32 |||
    (if flags &&& MapFlag.writeable ≠ 0 then (Mattr.uw ||| Mattr.pw).toUInt32 else 0) |||
    (if flags &&& MapFlag.executable ≠ 0 then Mattr.ux.toUInt32 else 0)

def ldelfSetProt (va numBytes : ℕ) (flags : UInt64) : UserMode Unit := do
  let sz := roundupPage cfg numBytes
  check (flags &&& (MapFlag.writeable ||| MapFlag.executable) = flags) .badParameters
  check (va + sz < cfg.wordSize) .badParameters
  let vmFlags ← vmGetFlags cfg va sz
  check (vmFlags &&& Flag.permanent = 0) .accessDenied
  check (vmFlags &&& Flag.readonly = 0 ∨ protOf flags &&& (Mattr.uw ||| Mattr.pw).toUInt32 = 0) .accessDenied
  vmSetProt cfg va sz (protOf flags)

def ldelfUnmap (va numBytes : ℕ) : UserMode Unit := do
  let sz := roundupPage cfg numBytes
  check (va + sz < cfg.wordSize) .badParameters
  let vmFlags ← vmGetFlags cfg va sz
  check (vmFlags &&& Flag.permanent = 0) .accessDenied
  vmUnmap cfg va sz

def ldelfRemap (oldVa newVa numBytes padBegin padEnd : ℕ) : UserMode Unit := do
  let vmFlags ← vmGetFlags cfg oldVa numBytes
  check (vmFlags &&& Flag.permanent = 0) .accessDenied
  let _ ← vmRemap cfg newVa oldVa numBytes padBegin padEnd

inductive Request
  | vm (call : Call)
  | setProt (va numBytes : ℕ) (flags : UInt64)
  | unmap (va numBytes : ℕ)
  | remap (oldVa newVa numBytes padBegin padEnd : ℕ)

def Request.body : Request → UserMode Unit
  | .vm call => call.body cfg
  | .setProt va numBytes flags => ldelfSetProt cfg va numBytes flags
  | .unmap va numBytes => ldelfUnmap cfg va numBytes
  | .remap oldVa newVa numBytes padBegin padEnd => ldelfRemap cfg oldVa newVa numBytes padBegin padEnd

def VmInfo.request (s : VmInfo) (req : Request × List Bool) : TeeResult VmInfo :=
  .ok (stateOf (req.1.body cfg { s with outcomes := req.2 }))

def Request.range : Request → Option (ℕ × ℕ)
  | .vm _ => none
  | .setProt va numBytes _ => some (va, roundupPage cfg numBytes)
  | .unmap va numBytes => some (va, roundupPage cfg numBytes)
  | .remap oldVa _ numBytes _ _ => some (oldVa, numBytes)

def Alike (s : VmInfo) (req : Request × List Bool) : Prop :=
  ∀ range ∈ req.1.range cfg, (findVmRegion s.regions (range.1 + range.2 - 1)).map Region.flags =
    (findVmRegion s.regions range.1).map Region.flags

def PermanentKept (s t : VmInfo) : Prop := ∀ a p, view s.regions a = some p → p.Permanent → view t.regions a = some p

def ReadonlyKept (s t : VmInfo) : Prop :=
  ∀ a p q, view s.regions a = some p → p.Readonly → view t.regions a = some q → q.Writeable → p.Writeable

/-- A system call leaves permanent pages as they are, and a change of protection makes no read-only page writeable. -/
def Protects (s : VmInfo) (req : Request × List Bool) : Prop :=
  ∀ t, s.request cfg req = .ok t →
    match req.1 with
    | .vm _ => True
    | .setProt .. => PermanentKept s t ∧ ReadonlyKept s t
    | .unmap .. | .remap .. => PermanentKept s t

instance (s : VmInfo) (req : Request × List Bool) : Decidable (Alike cfg s req) :=
  inferInstanceAs (Decidable (∀ range ∈ req.1.range cfg, _))

end Syscalls

section Guards

variable {cfg : Config} {rs : List Region} {r r₀ : Region} {va len endVa a : ℕ} {p : Page}

lemma contains_last (h : Sound cfg (r :: rs)) (hle : endVa ≤ r.endVa) (hx : x ∈ r :: rs) (hxa : x.Contains a)
    (ha : a < endVa) : x.Contains (endVa - 1) := by
  obtain ⟨-, hall, -⟩ := sound_cons.mp h
  rcases mem_cons.mp hx with rfl | hx
  · exact ⟨hxa.1.trans (Nat.le_sub_one_of_lt ha), lt_of_lt_of_le (Nat.sub_one_lt_of_lt ha) hle⟩
  · exact absurd (ha.trans_le (hle.trans ((hall x hx).trans hxa.1))) (lt_irrefl _)

lemma contiguousFrom_flags (h : Sound cfg (r :: rs)) (hc : contiguousFrom cmpRegionForGetFlags r₀ endVa r rs = true) :
    ∀ x ∈ r :: rs, x.Contains a → a < endVa → x.flags = r₀.flags ∨ x.Contains (endVa - 1) := by
  induction rs generalizing r with
  | nil =>
    intro x hx hxa ha
    exact .inr (contains_last h (of_decide_eq_true hc) hx hxa ha)
  | cons next rs ih =>
    intro x hx hxa ha
    simp only [contiguousFrom, Bool.or_eq_true, Bool.and_eq_true, decide_eq_true_eq, cmpRegionForGetFlags] at hc
    rcases hc with hle | ⟨⟨-, hflags⟩, hc⟩
    · exact .inr (contains_last h hle hx hxa ha)
    · rcases mem_cons.mp hx with rfl | hx
      · exact .inl hflags.symm
      · exact ih (sound_cons.mp h).2.2 hc x hx hxa ha

lemma flags_of_view (h : Sound cfg rs) (hfind : findVmRegion rs va = some r)
    (hc : vaRangeIsContiguous cmpRegionForGetFlags rs va endVa = true)
    (hlast : (findVmRegion rs (endVa - 1)).map Region.flags = (findVmRegion rs va).map Region.flags) (hlo : va ≤ a)
    (hhi : a < endVa) (hp : view rs a = some p) : p.flags = r.flags := by
  obtain ⟨hr, hrva⟩ := (covering_eq_some h.ascending).mp hfind
  obtain ⟨x, hx, hxa, rfl⟩ := exists_of_view hp
  have hall := before_fromVa va rs
  rw [vaRangeIsContiguous] at hc
  cases hfrom : fromVa va rs with
  | nil => simp [hfrom] at hc
  | cons y ys =>
    simp only [hfrom] at hc
    rw [hfrom] at hall
    have hy := contains_of_fromVa hfrom
    have hymem : y ∈ rs := hall ▸ mem_append_right _ mem_cons_self
    obtain rfl := h.ascending.eq_of_covers hymem hr hy hrva
    have hsplit := h
    rw [← hall] at hsplit
    obtain ⟨-, hback, hfront⟩ := sound_append.mp hsplit
    have hxfrom : x ∈ y :: ys := by
      rw [← hall] at hx
      refine (mem_append.mp hx).resolve_left fun hb => ?_
      have := hfront x hb y mem_cons_self
      exact absurd (hxa.2.trans_le (this.trans (hy.1.trans hlo))) (lt_irrefl _)
    rcases contiguousFrom_flags hback hc x hxfrom hxa hhi with hflags | hxlast
    · exact hflags
    · have hfindlast := (covering_eq_some h.ascending).mpr ⟨hx, hxlast⟩
      rw [findVmRegion, hfindlast, hfind] at hlast
      exact Option.some.inj hlast

lemma vmGetFlags_spec (s : VmInfo) :
    Spec (· = s) (vmGetFlags cfg va len)
      (fun flags t => (∃ r, findVmRegion s.regions va = some r ∧ r.flags = flags ∧
        vaRangeIsContiguous cmpRegionForGetFlags s.regions va (va + len) = true ∧ pageAligned len = true) ∧ t = s)
      (fun _ t => t = s) := by
  refine .bind (check_spec fun _ => id) fun _ => .and_left fun halign => ?_
  refine .bind (findOr_spec fun _ => id) fun r => ?_
  refine .get_bind fun t ⟨hfind, hts⟩ => ?_
  subst hts
  refine .bind (check_spec fun _ => id) fun _ => .and_left fun hc => .pure fun t ht => ?_
  exact ⟨⟨r, hfind, rfl, hc.2, halign.2.1⟩, ht⟩

lemma or_and_eq_zero {x y w : UInt16} (hx : x &&& w = 0) (hy : y &&& w = 0) : (x ||| y) &&& w = 0 := by
  apply UInt16.toNat_inj.mp
  rw [UInt16.toNat_and, UInt16.toNat_or, Nat.and_or_distrib_right, ← UInt16.toNat_and, ← UInt16.toNat_and, hx, hy]
  rfl

lemma not_writeable_withProt (h : prot &&& (Mattr.uw ||| Mattr.pw).toUInt32 = 0) : ¬(p.withProt prot).Writeable := by
  have hprot : prot.toUInt16 &&& (Mattr.uw ||| Mattr.pw) = 0 := by
    have := congrArg UInt32.toUInt16 h
    rwa [UInt32.toUInt16_and] at this
  have hmask : (p.attr &&& ~~~Mattr.protMask.toUInt16) &&& (Mattr.uw ||| Mattr.pw) = 0 := by
    rw [UInt16.and_assoc, show ~~~Mattr.protMask.toUInt16 &&& (Mattr.uw ||| Mattr.pw) = 0 by decide, UInt16.and_zero]
  exact not_not.mpr (or_and_eq_zero hmask hprot)

variable {Q : VmInfo → Prop} {numBytes : ℕ} {req : Request × List Bool}

lemma guarded_spec {s : VmInfo} {f : UInt16 → UserMode Unit} (hs : Sound cfg s.regions)
    (hlast : (findVmRegion s.regions (va + len - 1)).map Region.flags = (findVmRegion s.regions va).map Region.flags)
    (hQ : Q s) (hf : ∀ flags : UInt16, flags &&& Flag.permanent = 0 → pageAligned len = true →
      (∀ a p, va ≤ a → a < va + len → view s.regions a = some p → p.flags = flags) →
        Spec (· = s) (f flags) (fun _ => Q) (fun _ => Q)) : Spec (· = s) (do
      let flags ← vmGetFlags cfg va len
      check (flags &&& Flag.permanent = 0) .accessDenied
      f flags) (fun _ => Q) (fun _ => Q) := by
  refine .bind ((vmGetFlags_spec s).fails fun _ t ht => ht ▸ hQ) fun flags => ?_
  refine .and_left ?_
  rintro ⟨r, hfind, rfl, hc, halign⟩
  refine .bind (check_spec fun t ht => ht ▸ hQ) fun _ => .and_left fun hperm => ?_
  exact hf _ hperm halign fun a p hlo hhi hp => flags_of_view hs hfind hc hlast hlo hhi hp

lemma permanent_kept {s t : VmInfo} {flags : UInt16} (hperm : flags &&& Flag.permanent = 0)
    (hflags : ∀ a p, va ≤ a → a < va + len → view s.regions a = some p → p.flags = flags)
    (h : Kept (outside (view s.regions) va (va + len)) t.regions) (hp : view s.regions a = some p) (hpp : p.Permanent) :
    view t.regions a = some p := by
  refine h a p ?_
  rw [outside, if_neg, hp]
  rintro ⟨hlo, hhi⟩
  rw [Page.Permanent, hflags a p hlo hhi hp] at hpp
  exact hpp hperm

lemma Sound.shows {s : VmInfo} (h : Sound cfg s.regions) : Shows cfg (view s.regions) s.regions := ⟨h, fun _ => rfl⟩

variable {s : VmInfo}

lemma readonlyKept_self : ReadonlyKept s s := by
  intro a p q hp _ hq hw
  rw [hp] at hq
  exact Option.some.inj hq ▸ hw

lemma ldelfUnmap_spec (hs : Sound cfg s.regions)
    (hlast : (findVmRegion s.regions (va + roundupPage cfg numBytes - 1)).map Region.flags =
      (findVmRegion s.regions va).map Region.flags) :
    Spec (· = s) (ldelfUnmap cfg va numBytes) (fun _ => PermanentKept s) (fun _ => PermanentKept s) := by
  have hself : PermanentKept s s := fun _ _ hp _ => hp
  refine .bind (check_spec fun t ht => ht ▸ hself) fun _ => .and_left fun _ => ?_
  refine guarded_spec hs hlast hself fun flags hperm halign hflags => ?_
  have hround := roundup_of_dvd (by decide) (dvd_of_pageAligned halign)
  refine (vmUnmap_shows _ _).mono (fun t ht => by rw [ht]; exact hs.shows) (fun _ t ht a p hp hpp => ?_)
    fun _ t ht a p hp _ => (ht.2 a).trans hp
  rw [hround] at ht
  exact permanent_kept hperm hflags (fun a p ha => (ht.2 a).trans ha) hp hpp

lemma ldelfRemap_spec {oldVa newVa padBegin padEnd : ℕ} (hs : Sound cfg s.regions)
    (hlast : (findVmRegion s.regions (oldVa + numBytes - 1)).map Region.flags =
      (findVmRegion s.regions oldVa).map Region.flags) :
    Spec (· = s) (ldelfRemap cfg oldVa newVa numBytes padBegin padEnd) (fun _ => PermanentKept s)
      (fun _ => PermanentKept s) := by
  refine guarded_spec hs hlast (fun _ _ hp _ => hp) fun flags hperm _ hflags => ?_
  refine .bind ((vmRemap_keeps_outside _ _ _ _ _).mono (fun t ht => by rw [ht]; exact hs.shows) (fun _ t ht => ?_)
    fun _ t ht a p hp hpp => permanent_kept hperm hflags ht.2 hp hpp) fun _ => .pure fun _ => id
  exact fun a p hp hpp => permanent_kept hperm hflags ht.2 hp hpp

lemma ldelfSetProt_spec {mapFlags : UInt64} (hs : Sound cfg s.regions)
    (hlast : (findVmRegion s.regions (va + roundupPage cfg numBytes - 1)).map Region.flags =
      (findVmRegion s.regions va).map Region.flags) :
    Spec (· = s) (ldelfSetProt cfg va numBytes mapFlags) (fun _ t => PermanentKept s t ∧ ReadonlyKept s t)
      (fun _ t => PermanentKept s t ∧ ReadonlyKept s t) := by
  have hself : PermanentKept s s ∧ ReadonlyKept s s := ⟨fun _ _ hp _ => hp, readonlyKept_self⟩
  refine .bind (check_spec fun t ht => ht ▸ hself) fun _ => .and_left fun _ => ?_
  refine .bind (check_spec fun t ht => ht ▸ hself) fun _ => .and_left fun _ => ?_
  refine guarded_spec hs hlast hself fun flags hperm _ hflags => ?_
  refine .bind (check_spec fun t ht => ht ▸ hself) fun _ => .and_left fun hread => ?_
  have hpost : ∀ t : VmInfo, Reprotected cfg (view s.regions) va (va + roundupPage cfg numBytes) (protOf mapFlags) t.regions →
      PermanentKept s t ∧ ReadonlyKept s t := by
    intro t ht
    refine ⟨fun a p hp hpp => permanent_kept hperm hflags (Keeps.of_reprotected ht).2 hp hpp, ?_⟩
    intro a p q hp hpr hq hw
    rcases ht.2 a with hsame | ⟨⟨hlo, hhi⟩, hnew⟩
    · rw [hsame, hp] at hq
      exact Option.some.inj hq ▸ hw
    · rw [hnew, hp] at hq
      obtain rfl := Option.some.inj hq
      rw [Page.Readonly, hflags a p hlo hhi hp] at hpr
      exact absurd hw (not_writeable_withProt (hread.resolve_left hpr))
  exact (vmSetProt_shows _ _ _).mono (fun t ht => by rw [ht]; exact hs.shows) (fun _ t ht => hpost t ht.2.reprotected_of)
    fun _ t ht => hpost t (ht.elim (fun h => ⟨h.1, fun a => .inl (h.2 a)⟩) fun h => h.2.reprotected_of)

lemma ends_stateOf {x : EStateM.Result TeeError VmInfo Unit} (h : Ends (fun _ => Q) (fun _ => Q) x) :
    Q (stateOf x) := by
  cases x with
  | ok a t | error e t => exact h

lemma protects_of_alike (hs : Sound cfg s.regions) (halike : Alike cfg s req) : Protects cfg s req := by
  obtain ⟨req, outcomes⟩ := req
  rintro t ⟨⟩
  cases req with
  | vm call => trivial
  | setProt va numBytes flags =>
    exact ends_stateOf (ldelfSetProt_spec (s := { s with outcomes }) hs (halike _ rfl) _ rfl)
  | unmap va numBytes =>
    exact ends_stateOf (ldelfUnmap_spec (s := { s with outcomes }) hs (halike _ rfl) _ rfl)
  | remap oldVa newVa numBytes padBegin padEnd =>
    exact ends_stateOf (ldelfRemap_spec (s := { s with outcomes }) hs (halike _ rfl) _ rfl)

lemma request_sound {t : VmInfo} (hs : Sound cfg s.regions) (ht : s.request cfg req = .ok t) : Sound cfg t.regions := by
  cases ht
  have hget : ∀ va len, Invariant (OnRegions (Sound cfg)) (vmGetFlags cfg va len) := fun va len s hs =>
    (vmGetFlags_spec s s rfl).mono (fun _ t h => h.2 ▸ hs) fun _ t h => h ▸ hs
  refine keeps_stateOf ?_ hs
  cases req.1 with
  | vm call => exact body_keeps call
  | setProt va numBytes flags =>
    exact (check_keeps _ _).bind fun _ => (check_keeps _ _).bind fun _ => (hget _ _).bind fun _ =>
      (check_keeps _ _).bind fun _ => (check_keeps _ _).bind fun _ => vmSetProt_keeps _ _ _
  | unmap va numBytes =>
    exact (check_keeps _ _).bind fun _ => (hget _ _).bind fun _ => (check_keeps _ _).bind fun _ => vmUnmap_keeps _ _
  | remap oldVa newVa numBytes padBegin padEnd =>
    exact (hget _ _).bind fun _ => (check_keeps _ _).bind fun _ => (vmRemap_keeps sound_stable (fun _ _ _ _ => trivial) _ _ _ _ _).bind fun _ => .pure _

end Guards

theorem pages_protected (cfg : Config) (kcode kdata : KernelMap) (outcomes : List Bool)
    (reqs : List (Request × List Bool))
    (h : Runs.Along (VmInfo.request cfg) (Alike cfg) (VmInfo.init cfg kcode kdata outcomes) reqs) :
    Runs.Along (VmInfo.request cfg) (Protects cfg) (VmInfo.init cfg kcode kdata outcomes) reqs :=
  h.imp_of_invariant (keeps_stateOf (vmInfoInit_keeps sound_stable trivial sound_nil kcode kdata) sound_nil)
    (fun _ _ _ hs _ ht => request_sound hs ht) fun _ _ hs halike => protects_of_alike hs halike

def toyConfig : Config where
  wordSize := 2 ^ 32
  vaRangeBase := 0x100000
  vaRangeSize := 0x100000
  withLpae := true
  pgdirSize := 0x100000
  range_fits := by decide
  pgdir_aligned := by decide
  pgdir_pos := by decide

def toyMobj (ptr : ℕ) : Mobj := ⟨ptr, 0x1000, false, true, some 1, false, 0⟩

def noKernelMap : KernelMap := ⟨nullMobj, 0, 0, 0⟩

def toyMap (ptr va : ℕ) (flags : UInt16) : Request × List Bool :=
  (.vm (.mapPad va 0x1000 (Mattr.pr ||| Mattr.ur).toUInt32 flags.toUInt32 (toyMobj ptr) 0 0 0 0), [])

def toyReadonly : List (Request × List Bool) :=
  [toyMap 1 0x100000 0, toyMap 2 0x101000 Flag.readonly, (.setProt 0x100000 0x1000 MapFlag.writeable, []),
    (.setProt 0x101000 0x1000 MapFlag.executable, [])]

theorem pages_protected_toy :
    Runs.Along (VmInfo.request toyConfig) (Protects toyConfig) (VmInfo.init toyConfig noKernelMap noKernelMap [])
      toyReadonly :=
  pages_protected toyConfig noKernelMap noKernelMap [] toyReadonly (by decide +kernel)

theorem pages_not_protected :
    (Runs.run (VmInfo.request toyConfig) (VmInfo.init toyConfig noKernelMap noKernelMap [])
        [toyMap 1 0x100000 0, toyMap 2 0x101000 Flag.readonly]).toOption.map (fun s =>
          ((view s.regions 0x101000).map fun p => (p.flags, p.attr &&& Mattr.uw),
          (view (stateOf (ldelfSetProt toyConfig 0x100000 0x2000 MapFlag.writeable s)).regions 0x101000).map fun p =>
            (p.flags, p.attr &&& Mattr.uw))) =
      some (some (Flag.readonly, 0), some (Flag.readonly, Mattr.uw)) ∧
    (Runs.run (VmInfo.request toyConfig) (VmInfo.init toyConfig noKernelMap noKernelMap [])
        [toyMap 1 0x100000 0, toyMap 2 0x101000 Flag.permanent]).toOption.map (fun s =>
          ((view s.regions 0x101000).map Page.flags,
            view (stateOf (ldelfUnmap toyConfig 0x100000 0x2000 s)).regions 0x101000)) =
      some (some Flag.permanent, none) := by
  decide +kernel

end Optee.Vm
