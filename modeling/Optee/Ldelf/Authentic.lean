import Optee.Ldelf.Loads
import Optee.Lib.Runs

/-! What a load that succeeds has mapped is the signed image. -/

namespace Optee.Ldelf

open Optee.Lib Option List

variable {H δ : Type} {S : Store H δ}

def Shown (stream : List UInt8) (size offs : ℕ) (bytes : List UInt8) : Prop :=
  ∀ k b, bytes[k]? = some b → offs + k < size → stream[offs + k]? = some b

variable {offs numBytes : ℕ} {bytes stream : List UInt8} {a : MapBin}

lemma Shown.of_prefix {stream' : List UInt8} {size : ℕ} (h : Shown stream size offs bytes) (hpre : stream <+: stream') :
    Shown stream' size offs bytes := by
  obtain ⟨tail, rfl⟩ := hpre
  intro k b hk hlt
  have hb := h k b hk hlt
  rw [List.getElem?_append_left (List.getElem?_eq_some_iff.mp hb).1]
  exact hb

lemma Supply.length_bytes (supply : Supply) (offs len : ℕ) : (supply.bytes offs len).length = len := by
  simp [Supply.bytes]

structure Load.Later (l l' : Load H) : Prop where
  header : l'.header = l.header
  stream : l.stream <+: l'.stream
  verified : l.verified = true → l'.verified = true

lemma Load.Later.refl (l : Load H) : l.Later l := ⟨rfl, prefix_rfl, id⟩

lemma Load.Later.trans {l l' l'' : Load H} (h : l.Later l') (h' : l'.Later l'') : l.Later l'' :=
  ⟨h'.header.trans h.header, h.stream.trans h'.stream, fun hv => h'.verified (h.verified hv)⟩

namespace Load

variable {l l' : Load H}

def Checked (S : Store H δ) (l : Load H) : Prop :=
  l.stream.length ≤ l.size S ∧
    (l.verified = true → l.stream.length = l.size S ∧ S.digest l.header l.stream = S.tag l.header)

def Ended (S : Store H δ) (l : Load H) : Prop := l.stream.length = l.size S → 0 < l.size S → l.verified = true

structure Fed (l l' : Load H) : Prop extends Later l l' where
  file : l'.file = l.file
  closed : l'.closed = l.closed
  failed : l'.failed = l.failed
  mapped : l'.mapped = l.mapped

lemma Fed.refl (l : Load H) : l.Fed l := ⟨Later.refl l, rfl, rfl, rfl, rfl⟩

lemma Fed.trans {l'' : Load H} (h : l.Fed l') (h' : l'.Fed l'') : l.Fed l'' :=
  ⟨h.toLater.trans h'.toLater, h'.file.trans h.file, h'.closed.trans h.closed, h'.failed.trans h.failed,
    h'.mapped.trans h.mapped⟩

lemma Fed.size (h : l.Fed l') : l'.size S = l.size S := by rw [Load.size, Load.size, h.header]

structure Good (S : Store H δ) (l : Load H) : Prop where
  checked : l.Checked S
  ended : l.failed = false → l.Ended S
  complete : l.closed = true → l.failed = false → l.stream.length = l.size S

lemma Checked.fail_good (h : l.Checked S) : l.fail.Good S := by
  refine ⟨h, fun hf => ?_, fun _ hf => ?_⟩ <;> cases hf

lemma Good.addMapping_of_fed (offs : ℕ) (bytes : List UInt8) (h : l.Fed l') (hchecked : l'.Checked S)
    (hended : l.failed = false → l'.Ended S) (hopen : l.closed = false) : (l'.addMapping offs bytes).Good S := by
  refine ⟨hchecked, fun hf => hended (h.failed ▸ hf), fun hc _ => ?_⟩
  have := h.closed.symm.trans hc
  rw [hopen] at this
  cases this

structure Called (S : Store H δ) (l l' : Load H) (new : List Mapping) : Prop extends Later l l' where
  good : l'.Good S
  file : l'.file = l.file
  mapped : l'.mapped = new ++ l.mapped

lemma Called.fail_of_fed (h : l.Fed l') (hchecked : l'.Checked S) : l.Called S l'.fail [] :=
  ⟨⟨h.header, h.stream, h.verified⟩, hchecked.fail_good, h.file, h.mapped⟩

lemma Called.fail (h : l.Good S) : l.Called S l.fail [] := .fail_of_fed (Fed.refl l) h.checked

lemma Called.addMapping_of_fed (offs : ℕ) (bytes : List UInt8) (h : l.Fed l') (hchecked : l'.Checked S)
    (hended : l.failed = false → l'.Ended S) (hopen : l.closed = false) :
    l.Called S (l'.addMapping offs bytes) [⟨offs, bytes⟩] :=
  ⟨⟨h.header, h.stream, h.verified⟩, Good.addMapping_of_fed offs bytes h hchecked hended hopen, h.file,
    congrArg (List.cons _) h.mapped⟩

variable [DecidableEq δ]

lemma read_fed (data : List UInt8) : l.Fed (l.read S data).1 := by
  unfold read
  split
  · exact Fed.refl l
  dsimp only
  split
  · exact ⟨⟨rfl, prefix_append _ _, id⟩, rfl, rfl, rfl, rfl⟩
  · split
    · exact ⟨⟨rfl, prefix_append _ _, fun _ => rfl⟩, rfl, rfl, rfl, rfl⟩
    · exact ⟨⟨rfl, prefix_append _ _, id⟩, rfl, rfl, rfl, rfl⟩

lemma read_checked (data : List UInt8) (h : l.Checked S) : (l.read S data).1.Checked S := by
  -- After the end of a verified stream only the empty read gets through.
  have hnil : l.verified = true → ¬ l.size S < l.stream.length + data.length → data = [] := fun hv hlt => by
    have := (h.2 hv).1
    exact length_eq_zero_iff.mp (by omega)
  unfold read
  split
  · exact h
  case isFalse hlt =>
    have hle : (l.stream ++ data).length ≤ l.size S := by rw [length_append]; omega
    dsimp only
    split
    · refine ⟨hle, fun hv => ?_⟩
      rw [hnil hv hlt, append_nil]
      exact h.2 hv
    case isFalse hend =>
      split
      case isTrue hdig => exact ⟨hle, fun _ => ⟨not_not.mp hend, hdig⟩⟩
      · refine ⟨hle, fun hv => ?_⟩
        rw [hnil hv hlt, append_nil]
        exact h.2 hv

lemma read_ok {data : List UInt8} (h : (l.read S data).2 = true) :
    (l.read S data).1.stream = l.stream ++ data ∧ l.stream.length + data.length ≤ l.size S ∧
      (l.read S data).1.Ended S := by
  unfold read at h ⊢
  split at h
  · cases h
  case isFalse hlt =>
    rw [if_neg hlt]
    dsimp only at h ⊢
    split at h
    case isTrue hend =>
      rw [if_pos hend]
      exact ⟨rfl, by omega, fun he _ => absurd he hend⟩
    case isFalse hend =>
      rw [if_neg hend]
      split at h
      case isTrue hdig =>
        rw [if_pos hdig]
        exact ⟨rfl, by omega, fun _ _ => rfl⟩
      · cases h

lemma skipTo_fed (offs : ℕ) (supply : Supply) : l.Fed (l.skipTo S offs supply).1 := by
  unfold skipTo
  split
  · exact read_fed _
  · exact Fed.refl l

lemma skipTo_checked (offs : ℕ) (supply : Supply) (h : l.Checked S) : (l.skipTo S offs supply).1.Checked S := by
  unfold skipTo
  split
  · exact read_checked _ h
  · exact h

variable {supply : Supply}

lemma skipTo_ok (hle : l.stream.length ≤ offs) (h : l.Checked S) (hok : (l.skipTo S offs supply).2 = true) :
    (l.skipTo S offs supply).1.stream.length = offs ∧ offs ≤ l.size S := by
  unfold skipTo at hok ⊢
  split at hok
  case isTrue hlt =>
    rw [if_pos hlt]
    obtain ⟨hstream, hsize, -⟩ := read_ok hok
    rw [Supply.length_bytes] at hsize
    rw [hstream, length_append, Supply.length_bytes]
    omega
  case isFalse hlt =>
    rw [if_neg hlt]
    have hsize := h.1
    dsimp only
    exact ⟨by omega, by omega⟩

lemma readAt_ok (hoffs : l.stream.length = offs) (h : (l.readAt S offs numBytes supply).2 = some bytes) :
    (l.readAt S offs numBytes supply).1.Ended S ∧
      Shown (l.readAt S offs numBytes supply).1.stream (l.size S) offs bytes := by
  unfold readAt at h ⊢
  dsimp only at h ⊢
  split at h
  case isFalse => cases h
  case isTrue hok =>
    obtain ⟨hstream, -, hended⟩ := read_ok hok
    refine ⟨hended, fun k b hk hlt => ?_⟩
    obtain rfl := Option.some.inj h
    have hlen := Supply.length_bytes supply offs (l.inBinary S offs numBytes)
    have hin : k < l.inBinary S offs numBytes := by
      have hk' := (List.getElem?_eq_some_iff.mp hk).1
      rw [length_append, length_replicate, hlen] at hk'
      unfold inBinary at hk' ⊢
      split <;> rename_i hsz <;> simp only [hsz, if_true, if_false] at hk' <;> omega
    rw [getElem?_append_left (by rwa [hlen])] at hk
    rw [hstream, getElem?_append_right (by omega), hoffs, Nat.add_sub_cancel_left]
    exact hk

lemma copyTo_fed (offs numBytes : ℕ) (supply : Supply) : l.Fed (l.copyTo S offs numBytes supply).1 := by
  unfold copyTo
  split
  · exact Fed.refl l
  split
  · exact Fed.refl l
  · dsimp only
    split
    · exact (skipTo_fed offs supply).trans (read_fed _)
    · exact skipTo_fed offs supply

lemma copyTo_checked (offs numBytes : ℕ) (supply : Supply) (h : l.Checked S) :
    (l.copyTo S offs numBytes supply).1.Checked S := by
  unfold copyTo
  split
  · exact h
  split
  · exact h
  · dsimp only
    split
    · exact read_checked _ (skipTo_checked offs supply h)
    · exact skipTo_checked offs supply h

lemma copyTo_ok (h : l.Checked S) (hok : (l.copyTo S offs numBytes supply).2 = some bytes) :
    offs ≤ l.size S ∧ (l.copyTo S offs numBytes supply).1.Ended S ∧
      Shown (l.copyTo S offs numBytes supply).1.stream (l.size S) offs bytes := by
  unfold copyTo at hok ⊢
  split at hok
  · cases hok
  case isFalse hle =>
    rw [if_neg hle]
    split at hok
    · cases hok
    case isFalse hov =>
      rw [if_neg hov]
      dsimp only at hok ⊢
      split at hok
      case isFalse => cases hok
      case isTrue hskip =>
        rw [if_pos hskip]
        obtain ⟨hlen, hsize⟩ := skipTo_ok (by omega) h hskip
        obtain ⟨hended, hshown⟩ := readAt_ok hlen hok
        rw [(skipTo_fed offs supply).size] at hshown
        exact ⟨hsize, hended, hshown⟩

lemma copyFromBin_called (offs numBytes : ℕ) (supply : Supply) (h : l.Good S) (hopen : l.closed = false) :
    ∃ new, l.Called S (l.copyFromBin S offs numBytes supply) new ∧
      ∀ m ∈ new, Shown (l.copyFromBin S offs numBytes supply).stream (l.size S) m.offs m.bytes := by
  unfold copyFromBin
  have hfed := copyTo_fed (S := S) (l := l) offs numBytes supply
  have hchecked := copyTo_checked offs numBytes supply h.checked
  dsimp only
  split
  · exact ⟨[], .fail_of_fed hfed hchecked, by simp⟩
  case h_2 bytes hbytes =>
    obtain ⟨-, hended, hshown⟩ := copyTo_ok h.checked hbytes
    exact ⟨[⟨offs, bytes⟩], .addMapping_of_fed offs bytes hfed hchecked (fun _ => hended) hopen, by simpa [addMapping] using hshown⟩

lemma closeBin_called (supply : Supply) (h : l.Good S) : l.Called S (l.closeBin S supply) [] := by
  unfold closeBin
  have hle := h.checked.1
  split
  case isFalse hlt =>
    have hend : l.stream.length = l.size S := by omega
    exact ⟨⟨rfl, prefix_rfl, id⟩, ⟨h.checked, fun hf => h.ended (Bool.or_eq_false_iff.mp hf).1, fun _ _ => hend⟩, rfl,
      rfl⟩
  case isTrue hlt =>
    have hfed := read_fed (S := S) (l := l) (supply.bytes l.stream.length (l.size S - l.stream.length))
    refine ⟨⟨hfed.header, hfed.stream, hfed.verified⟩, ⟨read_checked _ h.checked, fun hf => ?_, fun _ hf => ?_⟩, hfed.file,
      hfed.mapped⟩
    · exact (read_ok (by simpa using (Bool.or_eq_false_iff.mp hf).2)).2.2
    · have hstream := (read_ok (by simpa using (Bool.or_eq_false_iff.mp hf).2)).1
      rw [hstream, length_append, Supply.length_bytes]
      refine Eq.trans ?_ hfed.size.symm
      omega

lemma mapFresh_called (owner : ℕ) (h : l.Good S) (hopen : l.closed = false) (hvalid : a.valid = true) :
    ∃ new, l.Called S (a.mapFresh S owner l).1 new ∧
      (∀ m ∈ new, Shown (a.mapFresh S owner l).1.stream (l.size S) m.offs m.bytes) ∧
      ∀ sl ∈ (a.mapFresh S owner l).2, sl.owner = owner ∧
        Shown (a.mapFresh S owner l).1.stream (l.size S) (sl.pageOffset * 4096) sl.content := by
  have hfed := copyTo_fed (S := S) (l := l) a.offs a.numBytes a.supply
  have hchecked := Load.copyTo_checked a.offs a.numBytes a.supply h.checked
  unfold MapBin.mapFresh
  split
  case isFalse => exact ⟨[], .fail h, by simp, by simp⟩
  case isTrue =>
    dsimp only
    split
    case h_1 => exact ⟨[], .fail_of_fed hfed hchecked, by simp, by simp⟩
    case h_2 bytes hbytes =>
      obtain ⟨hsize, hended, hshown⟩ := Load.copyTo_ok h.checked hbytes
      have hcall := Load.Called.addMapping_of_fed a.offs bytes hfed hchecked (fun _ => hended) hopen
      split
      · exact ⟨[], .fail_of_fed hfed hchecked, by simp, by simp⟩
      split
      · exact ⟨_, hcall, by simpa [Load.addMapping] using hshown, by simp⟩
      split
      case h_1 => exact ⟨[], .fail_of_fed hfed hchecked, by simp, by simp⟩
      case h_2 sl hsl =>
        refine ⟨_, hcall, by simpa [Load.addMapping] using hshown, fun sl' hsl' => ?_⟩
        obtain rfl := Option.some.inj hsl'
        unfold MapBin.newSlice at hsl
        split at hsl
        case isFalse => cases hsl
        case isTrue =>
          obtain rfl := Option.some.inj hsl
          simp only [MapBin.valid, Bool.and_eq_true, decide_eq_true_eq] at hvalid
          have hlt : l.size S < 2 ^ 32 := (S.imgSize l.header).toNat_lt
          have hoffs : pageOffsetOf a.offs * 4096 = a.offs := by
            rw [pageOffsetOf]
            omega
          refine ⟨rfl, ?_⟩
          rw [hoffs]
          exact hshown

end Load

lemma Slice.shown_bytes {sl : Slice} {size : ℕ} (h : Shown stream size (sl.pageOffset * 4096) sl.content)
    (hlen : numBytes ≤ sl.content.length) (hpage : sl.pageOffset = pageOffsetOf offs) (halign : offs % 4096 = 0)
    (hsize : size < 2 ^ 32) : Shown stream size offs (sl.bytes numBytes) := by
  intro k b hk hlt
  have hoffs : sl.pageOffset * 4096 = offs := by
    rw [hpage, pageOffsetOf]
    omega
  have hk' : k < numBytes := by simpa [Slice.bytes] using (List.getElem?_eq_some_iff.mp hk).1
  have hb : sl.content[k]? = some b := by
    simp only [Slice.bytes, getElem?_map, getElem?_range hk', map_some, Option.some.injEq] at hk
    rw [← hk, getD_eq_getElem?_getD, getElem?_eq_getElem (by omega), getD_some]
  rw [← hoffs] at hlt ⊢
  exact h k b hb hlt

namespace Loads

variable {s s' : Loads H δ} {i : ℕ} {l l' : Load H}

def Shows (S : Store H δ) (s : Loads H δ) (j : ℕ) (tag : δ) (offs : ℕ) (bytes : List UInt8) : Prop :=
  ∃ lo, s.loads[j]? = some lo ∧ S.tag lo.header = tag ∧ Shown lo.stream (lo.size S) offs bytes

def Trusted (s : Loads H δ) (i j : ℕ) : Prop := j = i ∨ ∃ lo ∈ s.loads[j]?, lo.verified = true

structure Good (S : Store H δ) (s : Loads H δ) : Prop where
  loads : ∀ l ∈ s.loads, l.Good S
  files : ∀ l ∈ s.loads, ∃ file, s.files[l.file]? = some file ∧ file.tag = S.tag l.header
  slices : ∀ file ∈ s.files, ∀ sl ∈ file.slices, s.Shows S sl.owner file.tag (sl.pageOffset * 4096) sl.content
  mapped : ∀ i l, s.loads[i]? = some l → ∀ m ∈ l.mapped,
    ∃ j, s.Trusted i j ∧ s.Shows S j (S.tag l.header) m.offs m.bytes

def Grows (s s' : Loads H δ) : Prop :=
  ∀ (j : ℕ) (lo : Load H), s.loads[j]? = some lo → ∃ lo', s'.loads[j]? = some lo' ∧ lo.Later lo'

lemma Shows.grows {j : ℕ} {tag : δ} (h : s.Shows S j tag offs bytes) (hg : s.Grows s') :
    s'.Shows S j tag offs bytes := by
  obtain ⟨lo, hlo, htag, hshown⟩ := h
  obtain ⟨lo', hlo', hlater⟩ := hg j lo hlo
  refine ⟨lo', hlo', hlater.header ▸ htag, ?_⟩
  rw [Load.size, hlater.header]
  exact hshown.of_prefix hlater.stream

lemma Trusted.grows {j : ℕ} (h : s.Trusted i j) (hg : s.Grows s') : s'.Trusted i j := by
  obtain rfl | ⟨lo, hlo, hv⟩ := h
  · exact .inl rfl
  · obtain ⟨lo', hlo', hlater⟩ := hg j lo hlo
    exact .inr ⟨lo', hlo', hlater.verified hv⟩

lemma getElem?_setLoad (hl : s.loads[i]? = some l) : (s.setLoad i l').loads[i]? = some l' :=
  List.getElem?_set_self (List.getElem?_eq_some_iff.mp hl).1

lemma grows_setLoad (hl : s.loads[i]? = some l) (h : l.Later l') : s.Grows (s.setLoad i l') := by
  intro j lo hlo
  by_cases hj : i = j
  · subst hj
    obtain rfl := mem_unique hl hlo
    exact ⟨l', getElem?_setLoad hl, h⟩
  · exact ⟨lo, (getElem?_set_ne hj).trans hlo, .refl lo⟩

lemma Good.setLoad {new : List Mapping} (h : s.Good S) (hl : s.loads[i]? = some l) (hcall : l.Called S l' new)
    (hnew : ∀ m ∈ new, ∃ j, (s.setLoad i l').Trusted i j ∧ (s.setLoad i l').Shows S j (S.tag l.header) m.offs m.bytes) :
    (s.setLoad i l').Good S := by
  have hg := grows_setLoad hl hcall.toLater
  refine ⟨fun lo hlo => ?_, fun lo hlo => ?_, fun file hfile sl hsl => (h.slices file hfile sl hsl).grows hg,
    fun j lo hlo m hm => ?_⟩
  · obtain hlo | rfl := mem_or_eq_of_mem_set hlo
    · exact h.loads lo hlo
    · exact hcall.good
  · obtain hlo | rfl := mem_or_eq_of_mem_set hlo
    · exact h.files lo hlo
    · obtain ⟨file, hfile, htag⟩ := h.files l (mem_of_getElem? hl)
      rw [hcall.file, hcall.header]
      exact ⟨file, hfile, htag⟩
  · by_cases hj : i = j
    · subst hj
      obtain rfl := Option.some.inj ((getElem?_setLoad hl).symm.trans hlo)
      rw [hcall.mapped] at hm
      rw [hcall.header]
      obtain hm | hm := mem_append.mp hm
      · exact hnew m hm
      · obtain ⟨j, htrust, hshows⟩ := h.mapped i l hl m hm
        exact ⟨j, htrust.grows hg, hshows.grows hg⟩
    · obtain ⟨j', htrust, hshows⟩ := h.mapped j lo ((getElem?_set_ne hj).symm.trans hlo) m hm
      exact ⟨j', htrust.grows hg, hshows.grows hg⟩

lemma Good.modifyFile {f : ℕ} {g : File δ → File δ} (h : s.Good S) (htag : ∀ file, (g file).tag = file.tag)
    (hslices : ∀ file, s.files[f]? = some file → ∀ sl ∈ (g file).slices,
      s.Shows S sl.owner file.tag (sl.pageOffset * 4096) sl.content) :
    Good S { s with files := s.files.modify f g } := by
  refine ⟨h.loads, fun l hl => ?_, fun file hfile sl hsl => ?_, h.mapped⟩
  · obtain ⟨file, hfile, hft⟩ := h.files l hl
    refine ⟨if f = l.file then g file else file, ?_, ?_⟩
    · rw [getElem?_modify, hfile]
      split <;> rfl
    · split
      · rw [htag, hft]
      · exact hft
  · obtain ⟨k, hk⟩ := mem_iff_getElem?.mp hfile
    rw [getElem?_modify] at hk
    obtain ⟨old, hold, rfl⟩ := map_eq_some_iff.mp hk
    split at hsl
    case isTrue hfk =>
      subst hfk
      rw [if_pos rfl, htag]
      exact hslices old hold sl hsl
    case isFalse hfk =>
      rw [if_neg hfk]
      exact h.slices old (mem_of_getElem? hold) sl hsl

lemma openLoad_eq_some (h : s.openLoad i = some l) : s.loads[i]? = some l ∧ l.closed = false := by
  obtain ⟨hl, hopen⟩ := filter_eq_some_iff.mp h
  exact ⟨hl, by simpa using hopen⟩

lemma Good.filePut (h : s.Good S) (f : ℕ) : (s.filePut f).Good S := by
  unfold Loads.filePut
  split
  · exact h
  · exact h.modifyFile (fun _ => rfl) (by simp)

lemma Good.mapSlice {file : File δ} {sl : Slice} (h : s.Good S) (hl : s.loads[i]? = some l) (hopen : l.closed = false)
    (hvalid : a.valid = true) (hfile : s.files[l.file]? = some file) (hmem : sl ∈ file.slices)
    (htrust : s.Trusted i sl.owner) (hlen : a.numBytes ≤ sl.content.length) :
    (s.setLoad i (a.mapSlice l sl)).Good S := by
  have hload := h.loads l (mem_of_getElem? hl)
  unfold MapBin.mapSlice
  split
  case isFalse => exact h.setLoad hl (.fail hload) (by simp)
  case isTrue hhit =>
    simp only [Bool.and_eq_true, decide_eq_true_eq] at hhit
    simp only [MapBin.valid, Bool.and_eq_true, decide_eq_true_eq] at hvalid
    have hcall := Load.Called.addMapping_of_fed a.offs (sl.bytes a.numBytes) (.refl l) hload.checked
      hload.ended hopen
    have hg := grows_setLoad hl hcall.toLater
    refine h.setLoad hl hcall fun m hm => ?_
    obtain rfl := mem_singleton.mp hm
    obtain ⟨file', hfile', htag⟩ := h.files l (mem_of_getElem? hl)
    obtain rfl := mem_unique hfile hfile'
    obtain ⟨lo, hlo, hlotag, hshown⟩ := h.slices file (mem_of_getElem? hfile) sl hmem
    have hbytes := sl.shown_bytes hshown hlen hhit.1.1.1 hvalid.1.2 (S.imgSize lo.header).toNat_lt
    exact ⟨sl.owner, htrust.grows hg, Shows.grows ⟨lo, hlo, hlotag.trans htag, hbytes⟩ hg⟩

lemma Good.openLoad {f : Load H → Loads H δ} (h : s.Good S) (hf : ∀ l, s.openLoad i = some l → (f l).Good S) :
    ((s.openLoad i).elim s f).Good S := by
  cases hl : s.openLoad i with
  | none => exact h
  | some l => exact hf l hl

lemma init_good : (init : Loads H δ).Good S := ⟨by simp [init], by simp [init], by simp [init], by simp [init]⟩

def Authentic (S : Store H δ) (s : Loads H δ) : Prop :=
  ∀ l ∈ s.loads, l.closed = true → l.failed = false → ∀ img, S.digest l.header img = S.tag l.header →
    ∀ m ∈ l.mapped, ∀ k b, m.bytes[k]? = some b → m.offs + k < l.size S → img[m.offs + k]? = some b

lemma Good.authentic (h : s.Good S) (hinj : ∀ h h' a b, S.digest h a = S.digest h' b → h = h' ∧ a = b) :
    s.Authentic S := by
  intro l hl hclosed hfailed img himg m hm k b hk hlt
  obtain ⟨i, hi⟩ := mem_iff_getElem?.mp hl
  have hgood := h.loads l hl
  have hver := hgood.ended hfailed (hgood.complete hclosed hfailed) (by omega)
  have hdig := (hgood.checked.2 hver).2
  obtain ⟨j, htrust, lo, hlo, htag, hshown⟩ := h.mapped i l hi m hm
  -- The load that is trusted has read the same stream under the same header.
  have hsame : lo.header = l.header ∧ lo.stream = l.stream := by
    obtain rfl | ⟨lo', hlo', hver'⟩ := htrust
    · obtain rfl := mem_unique hi hlo
      exact ⟨rfl, rfl⟩
    · obtain rfl := mem_unique hlo hlo'
      have hdig' := ((h.loads lo (mem_of_getElem? hlo)).checked.2 hver').2
      exact hinj _ _ _ _ (hdig'.trans (htag.trans hdig.symm))
  rw [Load.size, hsame.1, hsame.2] at hshown
  rw [(hinj _ _ _ _ (himg.trans hdig.symm)).2]
  exact hshown k b hk hlt

variable [DecidableEq δ]

/-- A slice is taken by its own load or after its load was verified, and not beyond the bytes it was filled with. -/
def Vetted (s : Loads H δ) : Event H → Prop
  | .mapBin i a => ∀ l ∈ s.openLoad i, ∀ file ∈ s.files[l.file]?,
      ∀ sl ∈ findSlice file.slices (pageOffsetOf a.offs), s.Trusted i sl.owner ∧ a.numBytes ≤ sl.content.length
  | _ => True

instance (s : Loads H δ) (e : Event H) : Decidable (s.Vetted e) := by
  unfold Vetted Trusted
  split <;> infer_instance

lemma fileGetByTag_spec (tag : δ) :
    (∀ (k : ℕ) (file : File δ), s.files[k]? = some file → (s.fileGetByTag tag).2[k]? = some file) ∧
      (∃ file, (s.fileGetByTag tag).2[(s.fileGetByTag tag).1]? = some file ∧ file.tag = tag) ∧
      ∀ file ∈ (s.fileGetByTag tag).2, file ∈ s.files ∨ file.slices = [] := by
  unfold fileGetByTag
  split
  case h_1 f hf =>
    obtain ⟨hlt, hp, -⟩ := findIdx?_eq_some_iff_getElem.mp hf
    simp only [Bool.and_eq_true, decide_eq_true_eq] at hp
    exact ⟨fun _ _ hk => hk, ⟨_, getElem?_eq_getElem hlt, hp.2⟩, fun f hf => .inl hf⟩
  case h_2 =>
    refine ⟨fun k file hk => (List.getElem?_append_left (List.getElem?_eq_some_iff.mp hk).1).trans hk,
      ⟨_, getElem?_concat_length, rfl⟩, fun f hf => ?_⟩
    obtain hf | hf := mem_append.mp hf
    · exact .inl hf
    · exact .inr (by rw [mem_singleton.mp hf])

lemma Good.openBin (h : s.Good S) (header : H) : (s.openBin S header).Good S := by
  have hg : s.Grows (s.openBin S header) := fun j lo hlo =>
    ⟨lo, (List.getElem?_append_left (List.getElem?_eq_some_iff.mp hlo).1).trans hlo, .refl lo⟩
  obtain ⟨hkept, ⟨file, hfile, htag⟩, hslices⟩ := s.fileGetByTag_spec (S.tag header)
  refine ⟨fun l hl => ?_, fun l hl => ?_, fun f hf sl hsl => ?_, fun j lo hlo m hm => ?_⟩
  · obtain hl | hl := mem_append.mp hl
    · exact h.loads l hl
    · rw [mem_singleton.mp hl]
      refine ⟨⟨Nat.zero_le _, fun hv => ?_⟩, fun _ he hpos => absurd he (Nat.ne_of_lt hpos), fun hc => ?_⟩
      · cases hv
      · cases hc
  · obtain hl | hl := mem_append.mp hl
    · obtain ⟨file, hfile, htag⟩ := h.files l hl
      exact ⟨file, hkept _ _ hfile, htag⟩
    · rw [mem_singleton.mp hl]
      exact ⟨file, hfile, htag⟩
  · obtain hf | hf := hslices f hf
    · exact (h.slices f hf sl hsl).grows hg
    · rw [hf] at hsl
      cases hsl
  · by_cases hj : j < s.loads.length
    · obtain ⟨j', htrust, hshows⟩ := h.mapped j lo ((getElem?_append_left hj).symm.trans hlo) m hm
      exact ⟨j', htrust.grows hg, hshows.grows hg⟩
    · have hnew := (getElem?_append_right (Nat.le_of_not_lt hj)).symm.trans hlo
      rw [mem_singleton.mp (mem_of_getElem? hnew)] at hm
      cases hm

lemma Good.copyFromBin (h : s.Good S) (hl : s.openLoad i = some l) (offs numBytes : ℕ) (supply : Supply) :
    (s.setLoad i (l.copyFromBin S offs numBytes supply)).Good S := by
  obtain ⟨hl, hopen⟩ := openLoad_eq_some hl
  obtain ⟨new, hcall, hshown⟩ := Load.copyFromBin_called offs numBytes supply (h.loads l (mem_of_getElem? hl)) hopen
  refine h.setLoad hl hcall fun m hm => ⟨i, .inl rfl, _, getElem?_setLoad hl, congrArg S.tag hcall.header, ?_⟩
  rw [Load.size, hcall.header]
  exact hshown m hm

lemma Good.closeBin (h : s.Good S) (hl : s.openLoad i = some l) (supply : Supply) :
    (s.setLoad i (l.closeBin S supply)).Good S := by
  obtain ⟨hl, -⟩ := openLoad_eq_some hl
  exact h.setLoad hl (Load.closeBin_called supply (h.loads l (mem_of_getElem? hl))) (by simp)

lemma Good.mapBin (h : s.Good S) (hl : s.openLoad i = some l) (hvet : s.Vetted (.mapBin i a)) :
    (s.mapBin S i l a).Good S := by
  have hvet := hvet l hl
  obtain ⟨hl, hopen⟩ := openLoad_eq_some hl
  have hload := h.loads l (mem_of_getElem? hl)
  obtain ⟨file, hfile, htag⟩ := h.files l (mem_of_getElem? hl)
  -- What the call leaves unchanged of the slices keeps the invariant.
  have hkept : ∀ s' : Loads H δ, s'.files = s.files → s'.Good S → (s'.setSlices l.file file.slices).Good S :=
    fun s' hs' h' => h'.modifyFile (fun _ => rfl) fun file' hfile' sl hsl => by
      rw [hs', hfile] at hfile'
      obtain rfl := Option.some.inj hfile'
      exact h'.slices file (hs' ▸ mem_of_getElem? hfile) sl hsl
  unfold Loads.mapBin MapBin.run
  rw [hfile]
  dsimp only
  split
  case isTrue => exact hkept _ rfl (h.setLoad hl (.fail hload) (by simp))
  case isFalse hvalid =>
    have hvalid : a.valid = true := by simpa using hvalid
    split
    case h_1 sl hsl =>
      obtain ⟨htrust, hlen⟩ := hvet file hfile sl hsl
      exact hkept _ rfl (h.mapSlice hl hopen hvalid hfile (mem_of_find?_eq_some hsl) htrust hlen)
    case h_2 =>
      obtain ⟨new, hcall, hnew, hslices⟩ := Load.mapFresh_called i hload hopen hvalid
      have hsize : (a.mapFresh S i l).1.size S = l.size S := by rw [Load.size, Load.size, hcall.header]
      have hshows : ∀ offs bytes, Shown (a.mapFresh S i l).1.stream (l.size S) offs bytes →
          (s.setLoad i (a.mapFresh S i l).1).Shows S i (S.tag l.header) offs bytes := fun offs bytes hshown =>
        ⟨_, getElem?_setLoad hl, congrArg S.tag hcall.header, hsize ▸ hshown⟩
      have hgood := h.setLoad hl hcall fun m hm => ⟨i, .inl rfl, hshows _ _ (hnew m hm)⟩
      refine hgood.modifyFile (fun _ => rfl) fun file' hfile' sl hsl => ?_
      obtain rfl := mem_unique hfile hfile'
      obtain hsl | hsl := mem_append.mp hsl
      · obtain ⟨rfl, hshown⟩ := hslices sl (by simpa using hsl)
        exact htag ▸ hshows _ _ hshown
      · exact hgood.slices file (mem_of_getElem? hfile) sl hsl

lemma step_good (h : s.Good S) (e : Event H) (hvet : s.Vetted e) : ∃ s', s.step S e = .ok s' ∧ s'.Good S := by
  cases e with
  | openBin header => exact ⟨_, rfl, h.openBin header⟩
  | mapBin i a => exact ⟨_, rfl, h.openLoad fun l hl => h.mapBin hl hvet⟩
  | copyFromBin i offs numBytes supply => exact ⟨_, rfl, h.openLoad fun l hl => h.copyFromBin hl offs numBytes supply⟩
  | closeBin i supply => exact ⟨_, rfl, h.openLoad fun l hl => h.closeBin hl supply⟩
  | filePut f => exact ⟨_, rfl, h.filePut f⟩

theorem mapped_authentic (S : Store H δ) (hinj : ∀ h h' a b, S.digest h a = S.digest h' b → h = h' ∧ a = b)
    (events : List (Event H)) (hvet : Runs.Along (step S) Vetted init events) :
    ∃ s, Runs.run (step S) init events = .ok s ∧ s.Authentic S := by
  obtain ⟨s, hs, hgood⟩ := hvet.completes init_good fun s e h he => step_good h e he
  exact ⟨s, hs, hgood.authentic hinj⟩

def toyStore : Store (List UInt8) (List UInt8 × List UInt8) where
  imgSize header := UInt32.ofNat header.length
  tag header := (header, header)
  digest header img := (header, img)

def toyShare (numBytes : ℕ) (supply : Supply) : MapBin := ⟨0, numBytes, ⟨true, false, true⟩, supply, ⟨true, true, true⟩⟩

def toyImage : Supply := fun k => [1, 2].getD k 0

def toyVetted : List (Event (List UInt8)) :=
  [.openBin [1, 2], .mapBin 0 (toyShare 1 toyImage), .closeBin 0 toyImage, .openBin [1, 2], .mapBin 1 (toyShare 1 toyImage),
    .closeBin 1 toyImage]

theorem mapped_authentic_toy : ∃ s, Runs.run (step toyStore) init toyVetted = .ok s ∧ s.Authentic toyStore :=
  mapped_authentic toyStore (fun _ _ _ _ h => Prod.mk.inj h) toyVetted (by decide)

def toyPoisoned : List (Event (List UInt8)) :=
  [.openBin [1, 2], .mapBin 0 (toyShare 1 fun _ => 7), .openBin [1, 2], .mapBin 1 (toyShare 1 toyImage), .closeBin 1 toyImage]

def toyShort : List (Event (List UInt8)) :=
  [.openBin [1, 2], .mapBin 0 (toyShare 1 toyImage), .mapBin 0 (toyShare 2 toyImage), .closeBin 0 toyImage]

theorem mapped_not_authentic :
    (∃ s, Runs.run (step toyStore) init toyPoisoned = .ok s ∧ ¬ s.Authentic toyStore) ∧
      ∃ s, Runs.run (step toyStore) init toyShort = .ok s ∧ ¬ s.Authentic toyStore := by
  refine ⟨⟨_, rfl, fun h => ?_⟩, ⟨_, rfl, fun h => ?_⟩⟩
  · have hbyte := h _ (mem_of_getElem? (i := 1) rfl) rfl rfl [1, 2] rfl ⟨0, [7]⟩ (by decide) 0 7 rfl (by decide)
    revert hbyte
    decide
  · have hbyte := h _ (mem_of_getElem? (i := 0) rfl) rfl rfl [1, 2] rfl ⟨0, [1, 0]⟩ (by decide) 1 0 rfl (by decide)
    revert hbyte
    decide

end Loads

end Optee.Ldelf
