import Optee.ReeFs.Dirfile

/-! Directory entries with distinct names and numbers, and what the steps on the directory file make of them. -/

namespace Optee.ReeFs

open Lib.ByteStrings Lib BitString

def LiveAt (es : List Dirent) (m : ℕ) (x : Dirent) : Prop := es[m]? = some x ∧ x.oid ≠ []

def NamesDistinct (es : List Dirent) : Prop :=
  ∀ {m n x y}, LiveAt es m x → LiveAt es n y → x.uuid = y.uuid → x.oid = y.oid → m = n

structure Distinct (es : List Dirent) : Prop where
  names : NamesDistinct es
  numbers : ∀ {m n x y}, LiveAt es m x → LiveAt es n y → x.fileNumber = y.fileNumber → m = n

namespace Dirh

variable {d : Dirh} {uuid : Uuid} {oid : List UInt8} {dfh : Fileh} {k n : ℕ} {x z : Dirent}

structure Numbered (d : Dirh) : Prop where
  distinct : ∀ {m n x y}, LiveAt d.dents m x → LiveAt d.dents n y → x.fileNumber = y.fileNumber → m = n
  bits : ∀ {m x}, LiveAt d.dents m x → d.testFile x.fileNumber = true

structure Sound (d : Dirh) : Prop extends Numbered d where
  names : NamesDistinct d.dents

structure Reserved (d : Dirh) (n : ℕ) : Prop where
  bit : d.testFile n = true
  unused : ∀ {m x}, LiveAt d.dents m x → x.fileNumber ≠ n

lemma Numbered.not_lostBit (h : d.Numbered) : ¬d.LostBit := by
  rintro ⟨x, hx, hoid, hbit⟩
  obtain ⟨m, hm⟩ := List.mem_iff_getElem?.mp hx
  rw [h.bits ⟨hm, hoid⟩] at hbit
  cases hbit

variable {m : ℕ} {es : List Dirent} {e : Dirent} {files : List Bool}

lemma liveAt_writeDent (hk : k ≤ d.dents.length) (h : LiveAt (d.writeDent k z).dents m x) :
    m = k ∧ x = z ∨ m ≠ k ∧ LiveAt d.dents m x := by
  obtain ⟨hx, hxo⟩ := h
  rw [getElem?_writeDent hk] at hx
  split_ifs at hx with hm
  · cases hx
    exact .inl ⟨hm, rfl⟩
  · exact .inr ⟨hm, hx, hxo⟩

lemma liveAt_cleared (hk : k ≤ d.dents.length) (h : LiveAt (d.writeDent k Dirent.zero).dents m x) :
    m ≠ k ∧ LiveAt d.dents m x := by
  rcases liveAt_writeDent hk h with ⟨-, rfl⟩ | h'
  · exact absurd rfl h.2
  · exact h'

lemma Numbered.write (h : d.Numbered) (hk : k ≤ d.dents.length) (hbit : d.testFile z.fileNumber = true)
    (hz : ∀ {m x}, m ≠ k → LiveAt d.dents m x → x.fileNumber ≠ z.fileNumber) : (d.writeDent k z).Numbered where
  distinct hx hy hnum := by
    rcases liveAt_writeDent hk hx with ⟨hm, hxz⟩ | ⟨hm, hx'⟩ <;> rcases liveAt_writeDent hk hy with ⟨hn, hyz⟩ | ⟨hn, hy'⟩
    · rw [hm, hn]
    · exact absurd (hxz ▸ hnum.symm) (hz hn hy')
    · exact absurd (hyz ▸ hnum) (hz hm hx')
    · exact h.distinct hx' hy' hnum
  bits hx := by
    rcases liveAt_writeDent hk hx with ⟨-, rfl⟩ | ⟨-, hx⟩
    · exact hbit
    · exact h.bits hx

lemma names_write (h : NamesDistinct d.dents) (hk : k ≤ d.dents.length)
    (hz : ∀ m, m ≠ k → ¬d.HasName m z.uuid z.oid) : NamesDistinct (d.writeDent k z).dents := by
  intro m n x y hx hy huuid hoid
  rcases liveAt_writeDent hk hx with ⟨hm, hxz⟩ | ⟨hm, hx'⟩ <;> rcases liveAt_writeDent hk hy with ⟨hn, hyz⟩ | ⟨hn, hy'⟩
  · rw [hm, hn]
  · exact absurd ⟨y, hy'.1, hxz ▸ huuid.symm, hxz ▸ hoid.symm⟩ (hz n hn)
  · exact absurd ⟨x, hx'.1, hyz ▸ huuid, hyz ▸ hoid⟩ (hz m hm)
  · exact h hx' hy' huuid hoid

lemma Numbered.clear (h : d.Numbered) (hx : LiveAt d.dents k x) :
    ((d.writeDent k Dirent.zero).clearFile x.fileNumber).Numbered := by
  have hk : k ≤ d.dents.length := (List.getElem?_eq_some_iff.mp hx.1).1.le
  refine ⟨fun hy hz hnum => h.distinct (liveAt_cleared hk hy).2 (liveAt_cleared hk hz).2 hnum, fun {m y} hy => ?_⟩
  obtain ⟨hm, hy⟩ := liveAt_cleared hk hy
  have hne : y.fileNumber ≠ x.fileNumber := fun hnum => hm (h.distinct hy hx hnum)
  change BitString.test (BitString.clear d.files x.fileNumber) y.fileNumber = true
  rw [test_clear, show BitString.test d.files y.fileNumber = true from h.bits hy]
  simpa using hne

lemma names_clear (hk : k ≤ d.dents.length)
    (h : ∀ {m n x y}, m ≠ k → n ≠ k → LiveAt d.dents m x → LiveAt d.dents n y → x.uuid = y.uuid → x.oid = y.oid → m = n) :
    NamesDistinct (d.writeDent k Dirent.zero).dents := by
  intro m n x y hx hy huuid hoid
  obtain ⟨hm, hx⟩ := liveAt_cleared hk hx
  obtain ⟨hn, hy⟩ := liveAt_cleared hk hy
  exact h hm hn hx hy huuid hoid

lemma Numbered.getTmp (h : d.Numbered) : d.getTmp.Numbered where
  distinct := h.distinct
  bits {m x} hx := by
    change BitString.test (BitString.set d.files d.tmpNumber) x.fileNumber = true
    rw [test_set, show BitString.test d.files x.fileNumber = true from h.bits hx, Bool.or_true]

lemma Numbered.reserved_getTmp (h : d.Numbered) : d.getTmp.Reserved d.tmpNumber where
  bit := by
    change BitString.test (BitString.set d.files d.tmpNumber) d.tmpNumber = true
    rw [test_set, decide_eq_true rfl, Bool.true_or]
  unused {m x} hx hnum := by
    have hbit : d.testFile x.fileNumber = true := h.bits hx
    rw [hnum] at hbit
    exact absurd (hbit.symm.trans (test_firstClear d.files)) (by simp)

lemma Sound.name (h : d.Sound) (hn : d.Reserved z.fileNumber) (hk : d.Placed k z.uuid z.oid) (hoid : z.oid ≠ []) :
    (d.writeDent k z).Sound := by
  have hlen : k ≤ d.dents.length := by
    rcases hk with ⟨x, hx, -⟩ | ⟨hfree, -⟩
    · exact (List.getElem?_eq_some_iff.mp hx).1.le
    · exact hfree.1
  refine ⟨h.write hlen hn.bit (fun _ hx => hn.unused hx), names_write h.names hlen (fun m hm hname => ?_)⟩
  obtain ⟨y, hy, huuid, hyo⟩ := hname
  rcases hk with ⟨x, hx, hxu, hxo⟩ | ⟨-, hnew⟩
  · exact hm (h.names ⟨hy, by rw [hyo]; exact hoid⟩ ⟨hx, by rw [hxo]; exact hoid⟩ (huuid.trans hxu.symm) (hyo.trans hxo.symm))
  · exact hnew m ⟨y, hy, huuid, hyo⟩

section Rename

variable {o r : ℕ} (h : d.Sound) (ho : LiveAt d.dents o x) (hz : z.fileNumber = x.fileNumber)
include h ho hz

lemma Sound.numbered_rename : (d.writeDent o z).Numbered := by
  refine h.write (List.getElem?_eq_some_iff.mp ho.1).1.le (hz ▸ h.bits ho) (fun {m y} hm hy hnum => ?_)
  exact hm (h.distinct hy ho (hnum.trans hz))

lemma Sound.rename (hnew : ∀ m, m ≠ o → ¬d.HasName m z.uuid z.oid) : (d.writeDent o z).Sound :=
  ⟨h.numbered_rename ho hz, names_write h.names (List.getElem?_eq_some_iff.mp ho.1).1.le hnew⟩

lemma Sound.rename_remove {y : Dirent} (hoid : z.oid ≠ []) (hr : d.HasName r z.uuid z.oid)
    (hy : LiveAt (d.writeDent o z).dents r y) :
    (((d.writeDent o z).writeDent r Dirent.zero).clearFile y.fileNumber).Sound := by
  have hlen : o ≤ d.dents.length := (List.getElem?_eq_some_iff.mp ho.1).1.le
  refine ⟨(h.numbered_rename ho hz).clear hy, names_clear (List.getElem?_eq_some_iff.mp hy.1).1.le ?_⟩
  obtain ⟨w, hw, hwu, hwo⟩ := hr
  have hwlive : LiveAt d.dents r w := ⟨hw, by rw [hwo]; exact hoid⟩
  intro m n a b hm hn ha hb huuid hab
  rcases liveAt_writeDent hlen ha with ⟨hmo, hax⟩ | ⟨hmo, ha'⟩ <;> rcases liveAt_writeDent hlen hb with ⟨hno, hbx⟩ | ⟨hno, hb'⟩
  · rw [hmo, hno]
  · rw [hax] at huuid hab
    exact absurd (h.names hb' hwlive (huuid.symm.trans hwu.symm) (hab.symm.trans hwo.symm)) hn
  · rw [hbx] at huuid hab
    exact absurd (h.names ha' hwlive (huuid.trans hwu.symm) (hab.trans hwo.symm)) hm
  · exact h.names ha' hb' huuid hab

end Rename

lemma Sound.updateHash (h : d.Sound) (hx : d.dents[k]? = some x) (hash : Bytes 32) :
    (d.writeDent k { x with hash }).Sound := by
  have hk : k ≤ d.dents.length := (List.getElem?_eq_some_iff.mp hx).1.le
  -- the entry keeps its name and its number, so it can be put back where it was
  have hlive : ∀ {m y}, LiveAt (d.writeDent k { x with hash }).dents m y → ∃ y', LiveAt d.dents m y' ∧
      y'.uuid = y.uuid ∧ y'.oid = y.oid ∧ y'.fileNumber = y.fileNumber := by
    intro m y hy
    rcases liveAt_writeDent hk hy with ⟨rfl, rfl⟩ | ⟨-, hy'⟩
    · exact ⟨x, ⟨hx, hy.2⟩, rfl, rfl, rfl⟩
    · exact ⟨y, hy', rfl, rfl, rfl⟩
  refine ⟨⟨fun ha hb hnum => ?_, fun ha => ?_⟩, fun ha hb huuid hoid => ?_⟩
  · obtain ⟨a, ha, -, -, hna⟩ := hlive ha
    obtain ⟨b, hb, -, -, hnb⟩ := hlive hb
    exact h.distinct ha hb (hna.trans (hnum.trans hnb.symm))
  · obtain ⟨a, ha, -, -, hna⟩ := hlive ha
    have hbit := h.bits ha
    rw [hna] at hbit
    exact hbit
  · obtain ⟨a, ha, hau, hao, -⟩ := hlive ha
    obtain ⟨b, hb, hbu, hbo, -⟩ := hlive hb
    exact h.names ha hb (hau.trans (huuid.trans hbu.symm)) (hao.trans (hoid.trans hbo.symm))

lemma Sound.remove (h : d.Sound) (hx : LiveAt d.dents k x) :
    ((d.writeDent k Dirent.zero).clearFile x.fileNumber).Sound :=
  ⟨h.clear hx, names_clear (List.getElem?_eq_some_iff.mp hx.1).1.le (fun _ _ ha hb => h.names ha hb)⟩

lemma Sound.of_remove {d' : Dirh} (h : d.Sound) (hr : d.remove dfh = .ok d') : d'.Sound := by
  obtain ⟨n, x, ⟨-, hx⟩, ⟨-, rfl⟩ | ⟨hoid, rfl⟩⟩ := remove_ok hr
  · exact h
  · exact h.remove ⟨hx, hoid⟩

lemma Sound.of_updateHash {d' : Dirh} (h : d.Sound) (hr : d.updateHash dfh = .ok d') : d'.Sound := by
  obtain ⟨n, x, ⟨-, hx⟩, -, rfl⟩ := updateHash_ok hr
  exact h.updateHash hx dfh.hash

lemma liveAt_cons (h : LiveAt (e :: es) m x) : m = 0 ∧ x = e ∨ ∃ k, m = k + 1 ∧ LiveAt es k x := by
  cases m with
  | zero => exact .inl ⟨rfl, (Option.some.inj h.1).symm⟩
  | succ k => exact .inr ⟨k, rfl, h⟩

structure OpenedAs (files : List Bool) (es : List Dirent) (r : List Bool × List Dirent) : Prop where
  kept : ∀ {m x}, LiveAt r.2 m x → LiveAt es m x
  fresh : ∀ {m x}, LiveAt r.2 m x → BitString.test files x.fileNumber = false
  bits : ∀ {m x}, LiveAt r.2 m x → BitString.test r.1 x.fileNumber = true
  distinct : ∀ {m n x y}, LiveAt r.2 m x → LiveAt r.2 n y → x.fileNumber = y.fileNumber → m = n
  mono : ∀ {n}, BitString.test files n = true → BitString.test r.1 n = true

lemma OpenedAs.free {r : List Bool × List Dirent} (h : OpenedAs files es r) (hz : z.oid = []) :
    OpenedAs files (e :: es) (r.1, z :: r.2) := by
  have hlive : ∀ {m x}, LiveAt (z :: r.2) m x → ∃ k, m = k + 1 ∧ LiveAt r.2 k x := by
    intro m x hx
    rcases liveAt_cons hx with ⟨-, rfl⟩ | hx'
    · exact absurd hz hx.2
    · exact hx'
  refine ⟨fun hx => ?_, fun hx => ?_, fun hx => ?_, fun hx hy hnum => ?_, h.mono⟩
  · obtain ⟨k, rfl, hx⟩ := hlive hx
    exact h.kept hx
  · obtain ⟨k, rfl, hx⟩ := hlive hx
    exact h.fresh hx
  · obtain ⟨k, rfl, hx⟩ := hlive hx
    exact h.bits hx
  · obtain ⟨k, rfl, hx⟩ := hlive hx
    obtain ⟨l, rfl, hy⟩ := hlive hy
    rw [h.distinct hx hy hnum]

lemma OpenedAs.used {r : List Bool × List Dirent} (h : OpenedAs (BitString.set files e.fileNumber) es r)
    (hbit : BitString.test files e.fileNumber = false) : OpenedAs files (e :: es) (r.1, e :: r.2) := by
  have hfresh : ∀ {m x}, LiveAt r.2 m x → x.fileNumber ≠ e.fileNumber ∧ BitString.test files x.fileNumber = false := by
    intro m x hx
    have hset := h.fresh hx
    rw [test_set, Bool.or_eq_false_iff, decide_eq_false_iff_not] at hset
    exact hset
  refine ⟨fun hx => ?_, fun hx => ?_, fun hx => ?_, fun hx hy hnum => ?_, fun {n} hn => h.mono ?_⟩
  · rcases liveAt_cons hx with ⟨rfl, rfl⟩ | ⟨k, rfl, hx'⟩
    · exact ⟨rfl, hx.2⟩
    · exact h.kept hx'
  · rcases liveAt_cons hx with ⟨-, rfl⟩ | ⟨k, rfl, hx'⟩
    · exact hbit
    · exact (hfresh hx').2
  · rcases liveAt_cons hx with ⟨-, rfl⟩ | ⟨k, rfl, hx'⟩
    · exact h.mono (by rw [test_set, decide_eq_true rfl, Bool.true_or])
    · exact h.bits hx'
  · rcases liveAt_cons hx with ⟨rfl, rfl⟩ | ⟨k, rfl, hx'⟩ <;> rcases liveAt_cons hy with ⟨rfl, rfl⟩ | ⟨l, rfl, hy'⟩
    · rfl
    · exact absurd hnum.symm (hfresh hy').1
    · exact absurd hnum (hfresh hx').1
    · rw [h.distinct hx' hy' hnum]
  · rw [test_set, hn, Bool.or_true]

lemma openDents_openedAs (files : List Bool) (es : List Dirent) : OpenedAs files es (openDents files es) := by
  induction es generalizing files with
  | nil => exact ⟨fun h => h, fun h => (by cases h.1), fun h => (by cases h.1), fun h => (by cases h.1), fun h => h⟩
  | cons e es ih =>
    rw [openDents]
    split_ifs with hfree hbit
    · exact (ih files).free hfree
    · exact (ih files).free rfl
    · exact (ih _).used (by simpa using hbit)

lemma openDents_dents (hnum : ∀ {m n x y}, LiveAt es m x → LiveAt es n y → x.fileNumber = y.fileNumber → m = n)
    (hfresh : ∀ {m x}, LiveAt es m x → BitString.test files x.fileNumber = false) : (openDents files es).2 = es := by
  induction es generalizing files with
  | nil => rfl
  | cons e es ih =>
    have hnum' : ∀ {m n x y}, LiveAt es m x → LiveAt es n y → x.fileNumber = y.fileNumber → m = n :=
      fun {m n x y} hx hy h => Nat.succ.inj (hnum hx hy h)
    have hfresh' : ∀ {m x}, LiveAt es m x → BitString.test files x.fileNumber = false :=
      fun {m x} hx => hfresh (m := m + 1) hx
    rw [openDents]
    split_ifs with hfree hbit
    · exact congrArg (e :: ·) (ih hnum' hfresh')
    · rw [hfresh (m := 0) ⟨rfl, hfree⟩] at hbit
      cases hbit
    · refine congrArg (e :: ·) (ih hnum' (fun {m x} hx => ?_))
      have hne : x.fileNumber ≠ e.fileNumber := fun h => nomatch hnum (m := m + 1) (n := 0) hx ⟨rfl, hfree⟩ h
      rw [test_set, hfresh' hx, decide_eq_false hne, Bool.or_false]

lemma load_sound (id : ℕ) (h : NamesDistinct es) : (load id es).Sound :=
  have hr := openDents_openedAs [] es
  ⟨⟨hr.distinct, hr.bits⟩, fun hx hy => h (hr.kept hx) (hr.kept hy)⟩

end Dirh

end Optee.ReeFs
