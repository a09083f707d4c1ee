import Optee.Pkcs11.Attributes

/-! Reading attributes into a template of the client. -/

namespace Optee.Pkcs11.Keys

open Lib.ByteStrings List Option

def copied (h : Attrs) (id : UInt32) (size : ℕ) : Option (List UInt8) :=
  if attrHasIndirectAttributes id || !attributeIsExportable id h then none
  else (h.lookup id).filter (fun v => size ≠ 0 && v.length ≤ size)

def sizeField (h : Attrs) (id : UInt32) : Option ℕ :=
  if attrHasIndirectAttributes id then none
  else if !attributeIsExportable id h then some 0xffffffff
  else some ((h.lookup id).elim 0xffffffff List.length)

structure Walk where
  buf : List UInt8
  cur : ℕ
  attrSensitive : Bool
  attrTypeInvalid : Bool
  bufferTooSmall : Bool

def idAt (t : List UInt8) (off : ℕ) : UInt32 := .ofNat (leNat (slice t off 4))

def sizeAt (t : List UInt8) (off : ℕ) : ℕ := leNat (slice t (off + 4) 4)

inductive OutOfBounds
  | template

def Walk.turn (h : Attrs) (w : Walk) : Except OutOfBounds Walk :=
  let id := idAt w.buf w.cur
  let size := sizeAt w.buf w.cur
  let value := (copied h id size).getD []
  let known := !attrHasIndirectAttributes id && attributeIsExportable id h
  if w.buf.length < w.cur + 8 + value.length then .error .template
  else .ok
    { buf := (sizeField h id).elim w.buf (fun n => patch (patch w.buf (w.cur + 8) value) (w.cur + 4) (leBytes 4 n))
      cur := w.cur + 8 + size
      attrSensitive := w.attrSensitive || !attrHasIndirectAttributes id && !attributeIsExportable id h
      attrTypeInvalid := w.attrTypeInvalid || attrHasIndirectAttributes id || known && (h.lookup id).isNone
      bufferTooSmall := w.bufferTooSmall || known && size ≠ 0 && (h.lookup id).any (size < ·.length) }

def walk (h : Attrs) : ℕ → Walk → Except OutOfBounds Walk
  | 0, w => .ok w
  | fuel + 1, w => if w.buf.length ≤ w.cur then .ok w else w.turn h >>= walk h fuel

def Walk.rc (w : Walk) : Option Rc :=
  if w.bufferTooSmall then some .bufferTooSmall
  else if w.attrTypeInvalid then some .attributeTypeInvalid
  else if w.attrSensitive then some .attributeSensitive
  else none

def entryGetAttributeValue (s : SessionState) (h : Attrs) (template : List UInt8) (outSize : ℕ) :
    Except OutOfBounds (Option Rc × List UInt8) :=
  if checkAccessAttrsAgainstToken s h ≠ .ok () then .ok (some .objectHandleInvalid, [])
  else do
    let w ← walk h template.length ⟨template, 8, false, false, false⟩
    if template.length < outSize then .error .template else .ok (w.rc, w.buf.take outSize)

def headers (t : List UInt8) (cur : ℕ) : List ℕ :=
  if t.length ≤ cur then [] else cur :: headers t (cur + 8 + sizeAt t cur)
termination_by t.length - cur

variable {h : Attrs} {t : List UInt8} {w w' : Walk} {H : List ℕ}

def FitsAt (h : Attrs) (t : List UInt8) (off : ℕ) : Prop :=
  off + 8 + ((copied h (idAt t off) (sizeAt t off)).getD []).length ≤ t.length

def Harmless (h : Attrs) (t : List UInt8) (H : List ℕ) (i : ℕ) (b : UInt8) : Prop :=
  b = t.getD i 0 ∨ (∃ off ∈ H, off + 4 ≤ i ∧ i < off + 8) ∨
    ∃ off ∈ H, ∃ v, h.lookup (idAt t off) = some v ∧ attributeIsExportable (idAt t off) h = true ∧
      off + 8 ≤ i ∧ i < off + 8 + v.length ∧ b = v.getD (i - (off + 8)) 0

structure Walk.Agrees (h : Attrs) (t : List UInt8) (H : List ℕ) (w : Walk) : Prop where
  length : w.buf.length = t.length
  ahead : ∀ i, w.cur ≤ i → w.buf.getD i 0 = t.getD i 0
  bytes : ∀ i, Harmless h t H i (w.buf.getD i 0)

lemma Walk.Agrees.slice_eq (hw : w.Agrees h t H) {i n : ℕ} (hi : w.cur ≤ i) : slice w.buf i n = slice t i n := by
  refine ext_getD (by rw [slice_length, slice_length, hw.length]) (fun k _ => ?_)
  rw [getD_slice, getD_slice, hw.ahead (i + k) (by omega)]

lemma copied_eq_some {id : UInt32} {size : ℕ} {v : List UInt8} (hv : copied h id size = some v) :
    h.lookup id = some v ∧ attributeIsExportable id h = true ∧ v.length ≤ size := by
  unfold copied at hv
  split_ifs at hv with hexp
  obtain ⟨hl, hsize⟩ := filter_eq_some_iff.mp hv
  simp only [Bool.or_eq_true, Bool.not_eq_true', not_or, Bool.not_eq_false] at hexp
  simp only [Bool.and_eq_true, decide_eq_true_eq] at hsize
  exact ⟨hl, hexp.2, hsize.2⟩

lemma Harmless.value {off i : ℕ} {b : UInt8} (hmem : off ∈ H) (hb : Harmless h t H i b) :
    Harmless h t H i (if i < off + 8 then b
      else if i < off + 8 + ((copied h (idAt t off) (sizeAt t off)).getD []).length
      then ((copied h (idAt t off) (sizeAt t off)).getD []).getD (i - (off + 8)) 0 else b) := by
  split_ifs with hlo hi
  · exact hb
  · cases hv : copied h (idAt t off) (sizeAt t off) with
    | none => simp only [hv, getD_none, length_nil] at hi; omega
    | some v =>
      rw [hv] at hi
      obtain ⟨hl, hexp, -⟩ := copied_eq_some hv
      exact .inr (.inr ⟨off, hmem, v, hl, hexp, not_lt.mp hlo, hi, rfl⟩)
  · exact hb

lemma Walk.Agrees.turn (hw : w.Agrees h t H) (hmem : w.cur ∈ H) :
    (FitsAt h t w.cur ∧ ∃ w', w.turn h = .ok w' ∧ w'.Agrees h t H ∧ w'.cur = w.cur + 8 + sizeAt t w.cur) ∨
      ¬FitsAt h t w.cur ∧ w.turn h = .error .template := by
  have hid : idAt w.buf w.cur = idAt t w.cur := by rw [idAt, hw.slice_eq le_rfl, idAt]
  have hsize : sizeAt w.buf w.cur = sizeAt t w.cur := by rw [sizeAt, hw.slice_eq (Nat.le_add_right _ _), sizeAt]
  unfold Walk.turn FitsAt
  rw [hid, hsize, hw.length]
  by_cases hfit : t.length < w.cur + 8 + ((copied h (idAt t w.cur) (sizeAt t w.cur)).getD []).length
  · exact .inr ⟨not_le.mpr hfit, if_pos hfit⟩
  refine .inl ⟨not_lt.mp hfit, _, if_neg hfit, ?_, rfl⟩
  cases sizeField h (idAt t w.cur) with
  | none => exact ⟨hw.length, fun i hi => hw.ahead i (by dsimp only at hi; omega), hw.bytes⟩
  | some n =>
    have hlen : ((copied h (idAt t w.cur) (sizeAt t w.cur)).getD []).length ≤ sizeAt t w.cur := by
      cases hv : copied h (idAt t w.cur) (sizeAt t w.cur) with
      | none => exact Nat.zero_le _
      | some v => exact (copied_eq_some hv).2.2
    refine ⟨?_, fun i hi => ?_, fun i => ?_⟩
    · simp only [elim_some, patch_length, hw.length, leBytes_length]
      omega
    · dsimp only at hi
      simp only [elim_some, getD_patch, leBytes_length]
      rw [if_neg (by omega), if_neg (by omega), if_neg (by omega), if_neg (by omega), hw.ahead i (by omega)]
    · rw [elim_some, getD_patch (patch _ _ _)]
      split_ifs with hlo hi
      · exact getD_patch w.buf _ _ i ▸ (hw.bytes i).value hmem
      · exact .inr (.inl ⟨w.cur, hmem, not_lt.mp hlo, hi⟩)
      · exact getD_patch w.buf _ _ i ▸ (hw.bytes i).value hmem

-- The headers are those of the client's bytes, and every turn moves at least a header on.
lemma Walk.Agrees.walk : ∀ (fuel : ℕ) {w : Walk}, w.Agrees h t H → t.length ≤ w.cur + fuel →
    (∀ off ∈ headers t w.cur, off ∈ H) →
    ((∀ off ∈ headers t w.cur, FitsAt h t off) ∧ ∃ w', walk h fuel w = .ok w' ∧ w'.Agrees h t H) ∨
      (¬∀ off ∈ headers t w.cur, FitsAt h t off) ∧ walk h fuel w = .error .template
  | 0, w, hw, hfuel, _ => by
    rw [headers, if_pos (show t.length ≤ w.cur from hfuel)]
    exact .inl ⟨fun _ hoff => (by cases hoff), w, rfl, hw⟩
  | fuel + 1, w, hw, hfuel, hH => by
    rw [Keys.walk, hw.length]
    rw [headers] at hH ⊢
    by_cases hend : t.length ≤ w.cur
    · rw [if_pos hend, if_pos hend]
      exact .inl ⟨fun _ hoff => (by cases hoff), w, rfl, hw⟩
    rw [if_neg hend] at hH
    rw [if_neg hend, if_neg hend, forall_mem_cons]
    obtain ⟨hfit, w', hturn, hw', hcur⟩ | ⟨hfit, hturn⟩ := hw.turn (hH _ mem_cons_self)
    · rw [hturn, ← hcur]
      rw [← hcur] at hH
      obtain ⟨hall, hok⟩ | ⟨hall, herr⟩ :=
        hw'.walk fuel (by omega) (fun off hoff => hH off (mem_cons_of_mem _ hoff))
      · exact .inl ⟨⟨hfit, hall⟩, hok⟩
      · exact .inr ⟨fun hf => hall hf.2, herr⟩
    · exact .inr ⟨fun hf => hfit hf.1, by rw [hturn]; rfl⟩

end Optee.Pkcs11.Keys
