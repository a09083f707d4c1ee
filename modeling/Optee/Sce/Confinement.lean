import Optee.Sce.Commands

/-! Which contexts keep the driver inside of its buffers: those with a fill level that it could have left there. -/

namespace Optee.Sce

open Lib.ByteStrings

variable {σ : Type} {hw : Engine σ}

def ShaHandle.Current (handle : ShaHandle) (privateId : UInt32) : Prop :=
  ¬ handle.flagCallInit = 0 ∧ ¬ handle.id ≠ privateId

def CmacHandle.Current (handle : CmacHandle) (privateId : UInt32) : Prop :=
  ¬ handle.flagCallInit = 0 ∧ ¬ handle.id ≠ privateId

variable {message digest data mac : List UInt8} {handle : ShaHandle}
  {lengthRest messageLength privateId allReceivedLength : UInt32} {buf : Bytes 128} {eng : σ}

lemma shaUpdateWhole_eq_ok {start : UInt32} {ercd : FspErr} (h : start.toNat + lengthRest.toNat ≤ message.length) :
    ∃ r, shaUpdateWhole hw handle message start lengthRest ercd = .ok r ∧ r.2.2.toNat < 64 ∧
      r.2.2.toNat ≤ lengthRest.toNat := by
  have hlt := lengthRest.toNat_lt
  rw [shaUpdateWhole]
  split
  · have hwhole : (lengthRest / shaBlock8Len * shaBlock8Len).toNat = lengthRest.toNat / 64 * 64 := by
      simp [shaBlock8Len]
      omega
    obtain ⟨data, hdata⟩ := safe_readWords.mpr
      (show start.toNat + (lengthRest / shaBlock8Len * shaBlock8Len).toNat ≤ message.length by omega)
    dsimp only
    rw [hdata]
    refine ⟨_, rfl, ?_⟩
    simp only [UInt32.toNat_sub, hwhole]
    omega
  · next hge =>
    simpa [shaBlock8Len, UInt32.lt_iff_toNat_lt] using hge

section

variable (hlen : messageLength.toNat ≤ message.length)
include hlen

lemma safe_shaUpdateBlocks
    (hge : 64 ≤ handle.bufferingLength.toNat + messageLength.toNat) :
    Safe (shaUpdateBlocks hw handle message messageLength) ↔ handle.bufferingLength.toNat ≤ 64 := by
  have hmlt := messageLength.toNat_lt
  have hroom : (shaBlock8Len - handle.bufferingLength).toNat = (2 ^ 32 - handle.bufferingLength.toNat + 64) % 2 ^ 32 :=
    UInt32.toNat_sub _ _
  rw [shaUpdateBlocks]
  dsimp only
  rw [safe_bind_iff, safe_memcpy]
  · constructor <;> intro h <;> omega
  · intro buf hbuf
    have hin := safe_memcpy.mp ⟨buf, hbuf⟩
    have hrest : (messageLength - (shaBlock8Len - handle.bufferingLength)).toNat =
        messageLength.toNat - (shaBlock8Len - handle.bufferingLength).toNat := by
      rw [UInt32.toNat_sub]
      omega
    obtain ⟨⟨ercd, handle', rest⟩, hwhole, hshort, hle⟩ := shaUpdateWhole_eq_ok
      (show (shaBlock8Len - handle.bufferingLength).toNat +
        (messageLength - (shaBlock8Len - handle.bufferingLength)).toNat ≤ message.length by omega)
    rw [hwhole]
    dsimp only at hshort hle
    show Safe (memcpy _ 0 message (messageLength - rest).toNat rest.toNat >>= _)
    refine (safe_bind_iff fun _ _ => safe_ok _).mpr (safe_memcpy.mpr ⟨by omega, ?_⟩)
    rw [UInt32.toNat_sub]
    omega

lemma safe_shaUpdate :
    Safe (shaUpdate hw privateId handle message messageLength) ↔
      (handle.Current privateId → handle.bufferingLength.toNat ≤ 64 ∧
        handle.bufferingLength.toNat + messageLength.toNat < 2 ^ 32) := by
  have hmlt := messageLength.toNat_lt
  have hsum : handle.bufferingLength + messageLength ≥ shaBlock8Len ↔
      64 ≤ (handle.bufferingLength.toNat + messageLength.toNat) % 2 ^ 32 := by
    rfl
  rw [shaUpdate, safe_reject, safe_reject, ShaHandle.Current, and_imp]
  refine imp_congr_right fun _ => imp_congr_right fun _ => ?_
  split
  · next hge =>
    rw [hsum] at hge
    rw [safe_shaUpdateBlocks hlen (by dsimp only; omega)]
    dsimp only
    omega
  · next hge =>
    rw [hsum] at hge
    rw [shaUpdateShort, safe_bind_iff fun _ _ => safe_ok _, safe_memcpy]
    dsimp only
    omega

end

lemma safe_setLength {last : ℕ} (h : last ≤ 128) : Safe (setLength buf last allReceivedLength) := by
  refine (safe_bind_iff fun _ _ => ?_).mpr (safe_setByte.mpr (by omega))
  refine (safe_bind_iff fun _ _ => ?_).mpr (safe_setByte.mpr (by omega))
  refine (safe_bind_iff fun _ _ => ?_).mpr (safe_setByte.mpr (by omega))
  exact safe_setByte.mpr (by omega)

lemma safe_shaPadTo {size : UInt32} {filled : UInt32} (h4 : 4 ≤ size.toNat) (hsize : size.toNat ≤ 128) :
    Safe (shaPadTo size buf filled allReceivedLength) ↔ (filled.toNat + 1) % 2 ^ 32 ≤ size.toNat - 4 := by
  have hnext : (filled + 1).toNat = (filled.toNat + 1) % 2 ^ 32 := UInt32.toNat_add _ _
  have hlen : (size - 4).toNat = size.toNat - 4 := UInt32.toNat_sub_of_le _ _ (UInt32.le_iff_toNat_le.mpr h4)
  rw [shaPadTo, safe_bind_iff fun _ _ => (safe_bind_iff fun _ _ => safe_ok _).mpr (safe_setLength hsize), safe_memset, UInt32.toNat_sub]
  omega

lemma safe_shaPad : Safe (shaPad handle) ↔ handle.bufferingLength.toNat ≤ 64 := by
  have hroom : shaBlock8Len - handle.bufferingLength ≥ 9 ↔
      9 ≤ (2 ^ 32 - handle.bufferingLength.toNat + 64) % 2 ^ 32 := by
    rfl
  rw [shaPad]
  by_cases hge : shaBlock8Len - handle.bufferingLength ≥ 9
  · simp only [if_pos hge]
    rw [safe_bind_and fun _ _ => safe_shaPadTo (by decide) (by decide), safe_setByte,
      show shaBlock8Len.toNat - 4 = 60 from rfl]
    rw [hroom] at hge
    omega
  · simp only [if_neg hge]
    rw [safe_bind_and fun _ _ => safe_shaPadTo (by decide) (by decide), safe_setByte,
      show (2 * shaBlock8Len).toNat - 4 = 124 from rfl]
    rw [hroom] at hge
    omega

lemma safe_shaFinal {finalPrivate : ShaHandle → List UInt8 → List UInt8 → Checked (Final ShaHandle)}
    (hprivate : ∀ handle data, Safe (finalPrivate handle data digest)) :
    Safe (shaFinal finalPrivate privateId handle digest) ↔
      (handle.Current privateId → handle.bufferingLength.toNat ≤ 64) := by
  rw [shaFinal, safe_reject, safe_reject, ShaHandle.Current, and_imp, ← safe_shaPad]
  refine imp_congr_right fun _ => imp_congr_right fun _ => ?_
  exact safe_bind_iff fun r _ => (safe_bind_iff fun _ _ => safe_ok _).mpr (hprivate _ _)

lemma cmacUpdateWhole_eq_ok {start : UInt32} (h : start.toNat + lengthRest.toNat ≤ message.length) :
    ∃ r, cmacUpdateWhole hw eng message start lengthRest = .ok r ∧ r.2.toNat ≤ 16 ∧ r.2.toNat ≤ lengthRest.toNat := by
  have hlt := lengthRest.toNat_lt
  rw [cmacUpdateWhole]
  split
  · next hgt =>
    have hgt : 16 < lengthRest.toNat := UInt32.lt_iff_toNat_lt.mp hgt
    have hwhole : ((lengthRest - 1) / aesBlockByteSize * aesBlockByteSize).toNat =
        (lengthRest.toNat - 1) / 16 * 16 := by
      have : (lengthRest - 1).toNat = lengthRest.toNat - 1 :=
        UInt32.toNat_sub_of_le _ _ (UInt32.le_iff_toNat_le.mpr (by simp; omega))
      simp [aesBlockByteSize, this]
      omega
    obtain ⟨data, hdata⟩ := safe_readWords.mpr
      (show start.toNat + ((lengthRest - 1) / aesBlockByteSize * aesBlockByteSize).toNat ≤ message.length by omega)
    dsimp only
    rw [hdata]
    refine ⟨_, rfl, ?_⟩
    simp only [UInt32.toNat_sub, hwhole]
    omega
  · next hgt =>
    simpa [aesBlockByteSize, UInt32.le_iff_toNat_le] using hgt

section

variable (hlen : messageLength.toNat ≤ message.length)
include hlen

variable {handle : CmacHandle}

lemma safe_cmacUpdateBlocks
    (hgt : 16 < handle.bufferingLength.toNat + messageLength.toNat) :
    Safe (cmacUpdateBlocks hw eng handle message messageLength) ↔ handle.bufferingLength.toNat ≤ 16 := by
  have hmlt := messageLength.toNat_lt
  have hroom : (aesBlockByteSize - handle.bufferingLength).toNat =
      (2 ^ 32 - handle.bufferingLength.toNat + 16) % 2 ^ 32 :=
    UInt32.toNat_sub _ _
  rw [cmacUpdateBlocks]
  rw [safe_bind_iff, safe_memcpy]
  · constructor <;> intro h <;> omega
  · intro buf hbuf
    have hin := safe_memcpy.mp ⟨buf, hbuf⟩
    have hrest : (messageLength - (aesBlockByteSize - handle.bufferingLength)).toNat =
        messageLength.toNat - (aesBlockByteSize - handle.bufferingLength).toNat := by
      rw [UInt32.toNat_sub]
      omega
    obtain ⟨⟨eng', rest⟩, hwhole, hshort, hle⟩ := cmacUpdateWhole_eq_ok
      (show (aesBlockByteSize - handle.bufferingLength).toNat +
        (messageLength - (aesBlockByteSize - handle.bufferingLength)).toNat ≤ message.length by omega)
    rw [hwhole]
    dsimp only at hshort hle
    refine (safe_bind_iff fun _ _ => safe_ok _).mpr (safe_memcpy.mpr ⟨by omega, ?_⟩)
    rw [UInt32.toNat_sub]
    omega

lemma safe_cmacUpdate :
    Safe (cmacUpdate hw privateId eng handle message messageLength) ↔
      (handle.Current privateId → handle.bufferingLength.toNat ≤ 16 ∧
        handle.bufferingLength.toNat + messageLength.toNat < 2 ^ 32) := by
  have hmlt := messageLength.toNat_lt
  have hsum : handle.bufferingLength + messageLength > aesBlockByteSize ↔
      16 < (handle.bufferingLength.toNat + messageLength.toNat) % 2 ^ 32 := by
    rfl
  rw [cmacUpdate, safe_reject, safe_reject, CmacHandle.Current, and_imp]
  refine imp_congr_right fun _ => imp_congr_right fun _ => ?_
  split
  · next hgt =>
    rw [hsum] at hgt
    rw [safe_cmacUpdateBlocks hlen (by dsimp only; omega)]
    dsimp only
    omega
  · next hgt =>
    rw [hsum] at hgt
    rw [cmacUpdateShort, safe_bind_iff fun _ _ => safe_ok _, safe_memcpy]
    dsimp only
    omega

end

lemma safe_cmacPad {handle : CmacHandle} :
    Safe (cmacPad handle) ↔ handle.bufferingLength.toNat < 16 ∨
      handle.bufferingLength.toNat % 16 = 0 ∧ handle.allReceivedLength ≠ 0 := by
  have hmod : handle.bufferingLength % aesBlockByteSize ≠ 0 ↔ handle.bufferingLength.toNat % 16 ≠ 0 := by
    rw [ne_eq, ← UInt32.toNat_inj]
    rfl
  have hnext : (handle.bufferingLength + 1).toNat = (handle.bufferingLength.toNat + 1) % 2 ^ 32 :=
    UInt32.toNat_add _ _
  have hlen : (aesBlockByteSize - (handle.bufferingLength + 1)).toNat =
      (2 ^ 32 - (handle.bufferingLength.toNat + 1) % 2 ^ 32 + 16) % 2 ^ 32 := by
    rfl
  rw [cmacPad]
  split_ifs with hpad
  · rw [safe_bind_and fun _ _ => safe_memset, safe_setByte]
    rw [hmod] at hpad
    rw [or_iff_left fun h => hpad.elim (fun hne => hne h.1) h.2]
    omega
  · rw [hmod] at hpad
    obtain ⟨hmul, hall⟩ := not_or.mp hpad
    exact iff_of_true (safe_ok _) (.inr ⟨not_not.mp hmul, hall⟩)

lemma safe_cmacGenerateFinal {handle : CmacHandle} (hmac : 16 ≤ mac.length) :
    Safe (cmacGenerateFinal hw privateId eng handle mac) ↔ (handle.Current privateId → Safe (cmacPad handle)) := by
  rw [cmacGenerateFinal, safe_reject, safe_reject, CmacHandle.Current, and_imp]
  refine imp_congr_right fun _ => imp_congr_right fun _ => safe_bind_iff fun buf _ => ?_
  refine (safe_bind_iff fun _ _ => safe_ok _).mpr (safe_writeOut.mpr ?_)
  rw [List.Vector.toList_length]
  exact hmac

lemma safe_cmacVerifyFinal {handle : CmacHandle} {macLength : UInt32} (hlen : macLength.toNat ≤ mac.length)
    (hmac : ¬ (2 > macLength ∨ macLength > aesBlockByteSize)) :
    Safe (cmacVerifyFinal hw privateId eng handle mac macLength) ↔
      (handle.Current privateId → Safe (cmacPad handle)) := by
  have h16 : macLength.toNat ≤ 16 := UInt32.le_iff_toNat_le.mp (UInt32.not_lt.mp (not_or.mp hmac).2)
  rw [cmacVerifyFinal, safe_reject, safe_reject, if_neg hmac, CmacHandle.Current, and_imp]
  refine imp_congr_right fun _ => imp_congr_right fun _ => safe_bind_iff fun buf _ => ?_
  exact (safe_bind_iff fun _ _ => safe_ok _).mpr (safe_memcpy.mpr ⟨by omega, by omega⟩)

def Fits (size : ℕ) (filled : UInt32) (message : List UInt8) : Prop :=
  filled.toNat ≤ size ∧ filled.toNat + message.length % 2 ^ 32 < 2 ^ 32

def ShaAlg.hashLength : ShaAlg → UInt32
  | .sha224 => 28
  | .sha256 => 32

def Confined (g : Globals) (types : UInt32) : Call → Prop
  | .shaUpdate alg handle message =>
    types = typesInoutInput → handle.size = sizeofShaHandle → handle.content.Current (g.sha alg) →
      Fits 64 handle.content.bufferingLength message
  | .shaFinal alg handle digest =>
    types = typesInoutInout → handle.size = sizeofShaHandle →
      ¬ (digest = [] ∨ alg.hashLength > .ofNat digest.length) → handle.content.Current (g.sha alg) →
      handle.content.bufferingLength.toNat ≤ 64
  | .cmacUpdate key use handle message =>
    types = typesInoutInput → handle.size = sizeofCmacHandle → message ≠ [] →
      handle.content.Current (g.cmac key use) → Fits 16 handle.content.bufferingLength message
  | .cmacGenerateFinal key handle mac =>
    types = typesInoutInout → handle.size = sizeofCmacHandle →
      ¬ (mac = [] ∨ aesBlockByteSize > .ofNat mac.length) → handle.content.Current (g.cmac key .generate) →
      handle.content.bufferingLength.toNat < 16 ∨
        handle.content.bufferingLength.toNat % 16 = 0 ∧ handle.content.allReceivedLength ≠ 0
  | .cmacVerifyFinal key handle mac =>
    types = typesInoutInput → handle.size = sizeofCmacHandle →
      ¬ (mac = [] ∨ 2 > UInt32.ofNat mac.length ∨ aesBlockByteSize < .ofNat mac.length) →
      handle.content.Current (g.cmac key .verify) →
      handle.content.bufferingLength.toNat < 16 ∨
        handle.content.bufferingLength.toNat % 16 = 0 ∧ handle.content.allReceivedLength ≠ 0

lemma toNat_size (xs : List UInt8) : (UInt32.ofNat xs.length).toNat = xs.length % 2 ^ 32 := UInt32.toNat_ofNat

lemma toNat_size_le (xs : List UInt8) : (UInt32.ofNat xs.length).toNat ≤ xs.length := by
  exact Nat.mod_le _ _

lemma size_of_not_short {xs : List UInt8} {n : UInt32} (h : ¬ (xs = [] ∨ n > .ofNat xs.length)) : n.toNat ≤ xs.length :=
  (UInt32.le_iff_toNat_le.mp (UInt32.not_lt.mp (not_or.mp h).2)).trans (toNat_size_le xs)

section Commands

variable {g : Globals} {types : UInt32}

lemma safe_shaUpdateCommand {handle : HandleRef ShaHandle} :
    Safe (shaUpdateCommand (shaUpdate hw privateId) types handle message) ↔
      (types = typesInoutInput → handle.size = sizeofShaHandle → handle.content.Current privateId →
        Fits 64 handle.content.bufferingLength message) := by
  rw [shaUpdateCommand, safe_reject, safe_reject, safe_bind_iff fun _ _ => safe_ok _,
    safe_shaUpdate (toNat_size_le message), toNat_size, not_not, not_not, Fits]

lemma safe_shaFinalCommand {final : ShaHandle → List UInt8 → Checked (Final ShaHandle)} {hashLength : UInt32}
    {handle : HandleRef ShaHandle} (hfinal : hashLength.toNat ≤ digest.length →
      (Safe (final handle.content digest) ↔
        (handle.content.Current privateId → handle.content.bufferingLength.toNat ≤ 64))) :
    Safe (shaFinalCommand final hashLength types handle digest) ↔
      (types = typesInoutInout → handle.size = sizeofShaHandle →
        ¬ (digest = [] ∨ hashLength > .ofNat digest.length) → handle.content.Current privateId →
        handle.content.bufferingLength.toNat ≤ 64) := by
  rw [shaFinalCommand, safe_reject, safe_reject, safe_reject, safe_bind_iff fun _ _ => safe_ok _, not_not, not_not]
  refine imp_congr_right fun _ => imp_congr_right fun _ => imp_congr_right fun hdigest => ?_
  exact hfinal (size_of_not_short hdigest)

variable {handle : HandleRef CmacHandle}

lemma safe_cmacUpdateCommand :
    Safe (cmacUpdateCommand (cmacUpdate hw privateId eng) types eng handle message) ↔
      (types = typesInoutInput → handle.size = sizeofCmacHandle → message ≠ [] →
        handle.content.Current privateId → Fits 16 handle.content.bufferingLength message) := by
  rw [cmacUpdateCommand, safe_reject, safe_reject, safe_reject, safe_bind_iff fun _ _ => safe_ok _,
    safe_cmacUpdate (toNat_size_le message), toNat_size, not_not, not_not, Fits]

lemma safe_cmacGenerateFinalCommand :
    Safe (cmacGenerateFinalCommand (cmacGenerateFinal hw privateId eng) types handle mac) ↔
      (types = typesInoutInout → handle.size = sizeofCmacHandle →
        ¬ (mac = [] ∨ aesBlockByteSize > .ofNat mac.length) → handle.content.Current privateId →
        Safe (cmacPad handle.content)) := by
  rw [cmacGenerateFinalCommand, safe_reject, safe_reject, safe_reject, safe_bind_iff fun _ _ => safe_ok _, not_not,
    not_not]
  refine imp_congr_right fun _ => imp_congr_right fun _ => imp_congr_right fun hmac => ?_
  exact safe_cmacGenerateFinal (size_of_not_short hmac)

lemma safe_cmacVerifyFinalCommand :
    Safe (cmacVerifyFinalCommand (cmacVerifyFinal hw privateId eng) types handle mac) ↔
      (types = typesInoutInput → handle.size = sizeofCmacHandle →
        ¬ (mac = [] ∨ 2 > UInt32.ofNat mac.length ∨ aesBlockByteSize < .ofNat mac.length) →
        handle.content.Current privateId → Safe (cmacPad handle.content)) := by
  rw [cmacVerifyFinalCommand, safe_reject, safe_reject, safe_reject, safe_bind_iff fun _ _ => safe_ok _, not_not,
    not_not]
  refine imp_congr_right fun _ => imp_congr_right fun _ => imp_congr_right fun hmac => ?_
  exact safe_cmacVerifyFinal (toNat_size_le mac) (not_or.mp hmac).2

end Commands

theorem safe_invoke_iff (hw : Engine σ) (g : Globals) (eng : σ) (types : UInt32) (call : Call) :
    Safe (invoke hw g eng types call) ↔ Confined g types call := by
  cases call with
  | shaUpdate alg handle message =>
    cases alg <;> exact (safe_bind_iff fun _ _ => safe_ok _).trans safe_shaUpdateCommand
  | shaFinal alg handle digest =>
    cases alg with
    | sha224 =>
      refine (safe_bind_iff fun _ _ => safe_ok _).trans (safe_shaFinalCommand fun h => ?_)
      exact safe_shaFinal fun _ _ => (safe_bind_iff fun _ _ => safe_ok _).mpr
        (safe_writeOut.mpr (by rw [List.length_take]; exact (Nat.min_le_left _ _).trans h))
    | sha256 =>
      refine (safe_bind_iff fun _ _ => safe_ok _).trans (safe_shaFinalCommand fun h => ?_)
      exact safe_shaFinal fun _ _ => (safe_bind_iff fun _ _ => safe_ok _).mpr
        (safe_writeOut.mpr (by rw [List.Vector.toList_length]; exact h))
  | cmacUpdate key use handle message =>
    cases key <;> cases use <;> exact (safe_bind_iff fun _ _ => safe_ok _).trans safe_cmacUpdateCommand
  | cmacGenerateFinal key handle mac =>
    rw [Confined, ← safe_cmacPad]
    cases key <;> exact (safe_bind_iff fun _ _ => safe_ok _).trans safe_cmacGenerateFinalCommand
  | cmacVerifyFinal key handle mac =>
    rw [Confined, ← safe_cmacPad]
    cases key <;> exact (safe_bind_iff fun _ _ => safe_ok _).trans safe_cmacVerifyFinalCommand

def toyEngine : Engine Unit := ⟨fun _ _ => (.success, zeroBytes 32), fun _ _ => (), fun _ _ _ _ _ => (.success, zeroBytes 16)⟩

def toyGlobals : Globals := ⟨1, 2, 3, 4, 5, 6⟩

def toyHandle : ShaHandle := ⟨1, zeroBytes 128, 0, 100, zeroBytes 32, 1⟩

theorem sha224Update_out_of_bounds :
    invoke toyEngine toyGlobals () typesInoutInput (.shaUpdate .sha224 ⟨176, toyHandle⟩ [0]) = .error .outOfBounds := by
  rfl

end Optee.Sce
