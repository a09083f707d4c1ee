import Optee.Lib.ByteStrings
import Optee.TeeResult

/-! Hash and MAC contexts of the SCE pseudo TAs. -/

namespace Optee.Sce

open Lib.ByteStrings

inductive FspErr
  | success
  | cryptoSceFail
  | cryptoSceResourceConflict
  | cryptoSceAuthentication
  | cryptoSceParameter
  | cryptoSceProhibitFunction

inductive Fault
  | outOfBounds

abbrev Checked (α : Type) := Except Fault α

section Memory

variable {n : ℕ}

def memcpy (buf : Bytes n) (off : ℕ) (src : List UInt8) (start len : ℕ) : Checked (Bytes n) :=
  if off + len ≤ n ∧ start + len ≤ src.length then
    .ok (.ofFn fun i => if off ≤ i ∧ i < off + len then src.getD (start + (i - off)) 0 else buf.get i)
  else .error .outOfBounds

def memset (buf : Bytes n) (off len : ℕ) : Checked (Bytes n) :=
  if off + len ≤ n then .ok (.ofFn fun i => if off ≤ i ∧ i < off + len then 0 else buf.get i)
  else .error .outOfBounds

def setByte (buf : Bytes n) (i : ℕ) (b : UInt8) : Checked (Bytes n) :=
  if h : i < n then .ok (buf.set ⟨i, h⟩ b) else .error .outOfBounds

def readWords (src : List UInt8) (start len : ℕ) : Checked (List UInt8) :=
  if start + len ≤ src.length then .ok (slice src start len) else .error .outOfBounds

def writeOut (out data : List UInt8) : Checked (List UInt8) :=
  if data.length ≤ out.length then .ok (data ++ out.drop data.length) else .error .outOfBounds

end Memory

structure Globals where
  sha224PrivateId : UInt32
  sha256PrivateId : UInt32
  aes128cmacgenPrivateId : UInt32
  aes128cmacverPrivateId : UInt32
  aes256cmacgenPrivateId : UInt32
  aes256cmacverPrivateId : UInt32

def shaBlock8Len : UInt32 := 64
def aesBlockByteSize : UInt32 := 16

structure ShaHandle where
  id : UInt32
  shaBuffer : Bytes 128
  allReceivedLength : UInt32
  bufferingLength : UInt32
  currentHash : Bytes 32
  flagCallInit : UInt8

structure CmacHandle where
  id : UInt32
  wrappedKey : Bytes 68
  cmacBuffer : Bytes 16
  allReceivedLength : UInt32
  bufferingLength : UInt32
  flagCallInit : UInt8

structure Engine (σ : Type) where
  sha224256GenerateMessageDigestSub : (initVal : Bytes 32) → (paddedMsg : List UInt8) → FspErr × Bytes 32
  cmacUpdateSub : σ → (text : List UInt8) → σ
  cmacFinalSub : σ → (cmd : ℕ) → (text mac : Bytes 16) → (macLengthBit : UInt32) → FspErr × Bytes 16

section Sha

variable {σ : Type} (hw : Engine σ)

def shaUpdatePrivate (handle : ShaHandle) (data : List UInt8) : FspErr × ShaHandle :=
  let (ercd, out) := hw.sha224256GenerateMessageDigestSub handle.currentHash data
  (ercd, { handle with currentHash := out })

def shaUpdateWhole (handle : ShaHandle) (message : List UInt8) (start lengthRest : UInt32) (ercd : FspErr) :
    Checked (FspErr × ShaHandle × UInt32) :=
  if lengthRest ≥ shaBlock8Len then do
    let whole := lengthRest / shaBlock8Len * shaBlock8Len
    let data ← readWords message start.toNat whole.toNat
    let (ercd, handle) := shaUpdatePrivate hw handle data
    .ok (ercd, handle, lengthRest - whole)
  else .ok (ercd, handle, lengthRest)

def shaUpdateBlocks (handle : ShaHandle) (message : List UInt8) (messageLength : UInt32) :
    Checked (FspErr × ShaHandle) := do
  let room := shaBlock8Len - handle.bufferingLength
  let buf ← memcpy handle.shaBuffer handle.bufferingLength.toNat message 0 room.toNat
  let (ercd, handle) := shaUpdatePrivate hw { handle with shaBuffer := buf } (buf.toList.take 64)
  let (ercd, handle, lengthRest) ← shaUpdateWhole hw handle message room (messageLength - room) ercd
  let buf ← memcpy (zeroBytes 128) 0 message (messageLength - lengthRest).toNat lengthRest.toNat
  .ok (ercd, { handle with shaBuffer := buf, bufferingLength := lengthRest })

def shaUpdateShort (handle : ShaHandle) (message : List UInt8) (messageLength : UInt32) :
    Checked (FspErr × ShaHandle) := do
  let buf ← memcpy handle.shaBuffer handle.bufferingLength.toNat message 0 messageLength.toNat
  .ok (.success, { handle with shaBuffer := buf, bufferingLength := handle.bufferingLength + messageLength })

def shaUpdate (privateId : UInt32) (handle : ShaHandle) (message : List UInt8) (messageLength : UInt32) :
    Checked (FspErr × ShaHandle) :=
  if handle.flagCallInit = 0 then .ok (.cryptoSceProhibitFunction, handle)
  else if handle.id ≠ privateId then .ok (.cryptoSceParameter, handle)
  else
    let received := { handle with allReceivedLength := handle.allReceivedLength + messageLength }
    if handle.bufferingLength + messageLength ≥ shaBlock8Len then shaUpdateBlocks hw received message messageLength
    else shaUpdateShort received message messageLength

def setLength (buf : Bytes 128) (last : ℕ) (allReceivedLength : UInt32) : Checked (Bytes 128) := do
  let bits := allReceivedLength * 8
  let buf ← setByte buf (last - 4) (bits >>> 24).toUInt8
  let buf ← setByte buf (last - 3) (bits >>> 16).toUInt8
  let buf ← setByte buf (last - 2) (bits >>> 8).toUInt8
  setByte buf (last - 1) bits.toUInt8

def shaPadTo (size : UInt32) (buf : Bytes 128) (filled allReceivedLength : UInt32) : Checked (Bytes 128 × ℕ) := do
  let buf ← memset buf (filled + 1).toNat (size - 4 - (filled + 1)).toNat
  let buf ← setLength buf size.toNat allReceivedLength
  .ok (buf, size.toNat)

def shaPad (handle : ShaHandle) : Checked (Bytes 128 × ℕ) := do
  let filled := handle.bufferingLength
  let buf ← setByte handle.shaBuffer filled.toNat 0x80
  if shaBlock8Len - filled ≥ 9 then shaPadTo shaBlock8Len buf filled handle.allReceivedLength
  else shaPadTo (2 * shaBlock8Len) buf filled handle.allReceivedLength

abbrev Final (H : Type) := FspErr × H × List UInt8

def sha224FinalPrivate (handle : ShaHandle) (data digest : List UInt8) : Checked (Final ShaHandle) := do
  let (ercd, out) := hw.sha224256GenerateMessageDigestSub handle.currentHash data
  let digest ← writeOut digest (out.toList.take 28)
  .ok (ercd, { handle with currentHash := out }, digest)

def sha256FinalPrivate (handle : ShaHandle) (data digest : List UInt8) : Checked (Final ShaHandle) := do
  let (ercd, out) := hw.sha224256GenerateMessageDigestSub handle.currentHash data
  let digest ← writeOut digest out.toList
  .ok (ercd, { handle with currentHash := out }, digest)

def shaFinal (finalPrivate : ShaHandle → List UInt8 → List UInt8 → Checked (Final ShaHandle)) (privateId : UInt32)
    (handle : ShaHandle) (digest : List UInt8) : Checked (Final ShaHandle) :=
  if handle.flagCallInit = 0 then .ok (.cryptoSceProhibitFunction, handle, digest)
  else if handle.id ≠ privateId then .ok (.cryptoSceParameter, { handle with flagCallInit := 0 }, digest)
  else do
    let (buf, maxCntByte) ← shaPad handle
    let (ercd, handle, digest) ← finalPrivate { handle with flagCallInit := 0 } (buf.toList.take maxCntByte) digest
    .ok (ercd, { handle with allReceivedLength := 0, bufferingLength := 0, shaBuffer := zeroBytes 128 }, digest)

def sha224Update (g : Globals) := shaUpdate hw g.sha224PrivateId
def sha256Update (g : Globals) := shaUpdate hw g.sha256PrivateId
def sha224Final (g : Globals) := shaFinal (sha224FinalPrivate hw) g.sha224PrivateId
def sha256Final (g : Globals) := shaFinal (sha256FinalPrivate hw) g.sha256PrivateId

end Sha

section Cmac

variable {σ : Type} (hw : Engine σ)

def cmacUpdateWhole (eng : σ) (message : List UInt8) (start lengthRest : UInt32) : Checked (σ × UInt32) :=
  if lengthRest > aesBlockByteSize then do
    let whole := (lengthRest - 1) / aesBlockByteSize * aesBlockByteSize
    let data ← readWords message start.toNat whole.toNat
    .ok (hw.cmacUpdateSub eng data, lengthRest - whole)
  else .ok (eng, lengthRest)

def cmacUpdateBlocks (eng : σ) (handle : CmacHandle) (message : List UInt8) (messageLength : UInt32) :
    Checked (FspErr × CmacHandle × σ) := do
  let room := aesBlockByteSize - handle.bufferingLength
  let buf ← memcpy handle.cmacBuffer handle.bufferingLength.toNat message 0 room.toNat
  let (eng, lengthRest) ← cmacUpdateWhole hw (hw.cmacUpdateSub eng buf.toList) message room (messageLength - room)
  let buf ← memcpy (zeroBytes 16) 0 message (messageLength - lengthRest).toNat lengthRest.toNat
  .ok (.success, { handle with cmacBuffer := buf, bufferingLength := lengthRest }, eng)

def cmacUpdateShort (eng : σ) (handle : CmacHandle) (message : List UInt8) (messageLength : UInt32) :
    Checked (FspErr × CmacHandle × σ) := do
  let buf ← memcpy handle.cmacBuffer handle.bufferingLength.toNat message 0 messageLength.toNat
  .ok (.success, { handle with cmacBuffer := buf, bufferingLength := handle.bufferingLength + messageLength }, eng)

def cmacUpdate (privateId : UInt32) (eng : σ) (handle : CmacHandle) (message : List UInt8) (messageLength : UInt32) :
    Checked (FspErr × CmacHandle × σ) :=
  if handle.flagCallInit = 0 then .ok (.cryptoSceProhibitFunction, handle, eng)
  else if handle.id ≠ privateId then .ok (.cryptoSceParameter, handle, eng)
  else
    let received := { handle with allReceivedLength := handle.allReceivedLength + messageLength }
    if handle.bufferingLength + messageLength > aesBlockByteSize then
      cmacUpdateBlocks hw eng received message messageLength
    else cmacUpdateShort eng received message messageLength

def cmacPad (handle : CmacHandle) : Checked (Bytes 16) :=
  let filled := handle.bufferingLength
  if filled % aesBlockByteSize ≠ 0 ∨ handle.allReceivedLength = 0 then do
    let buf ← setByte handle.cmacBuffer filled.toNat 0x80
    memset buf (filled + 1).toNat (aesBlockByteSize - (filled + 1)).toNat
  else .ok handle.cmacBuffer

def cmacCmd (base : ℕ) (allMsgLen : UInt32) : ℕ := if allMsgLen % 16 = 0 ∧ allMsgLen ≠ 0 then base else base + 1

def clearedCmac : CmacHandle := ⟨0, zeroBytes 68, zeroBytes 16, 0, 0, 0⟩

def cmacGenerateFinal (privateId : UInt32) (eng : σ) (handle : CmacHandle) (mac : List UInt8) :
    Checked (Final CmacHandle) :=
  if handle.flagCallInit = 0 then .ok (.cryptoSceProhibitFunction, handle, mac)
  else if handle.id ≠ privateId then .ok (.cryptoSceParameter, { handle with flagCallInit := 0 }, mac)
  else do
    let buf ← cmacPad handle
    let (ercd, out) := hw.cmacFinalSub eng (cmacCmd 0 handle.allReceivedLength) buf (zeroBytes 16) 0
    let mac ← writeOut mac out.toList
    .ok (ercd, clearedCmac, mac)

def changeEndianLong (a : UInt32) : UInt32 :=
  ((a &&& (0xff000000 : UInt32)) >>> 24) ||| ((a &&& (0x00ff0000 : UInt32)) >>> 8) |||
    ((a &&& (0x0000ff00 : UInt32)) <<< 8) ||| ((a &&& (0x000000ff : UInt32)) <<< 24)

def cmacVerifyFinal (privateId : UInt32) (eng : σ) (handle : CmacHandle) (mac : List UInt8) (macLength : UInt32) :
    Checked (FspErr × CmacHandle) :=
  if handle.flagCallInit = 0 then .ok (.cryptoSceProhibitFunction, handle)
  else if handle.id ≠ privateId then .ok (.cryptoSceParameter, { handle with flagCallInit := 0 })
  else if 2 > macLength ∨ macLength > aesBlockByteSize then
    .ok (.cryptoSceParameter, { handle with flagCallInit := 0 })
  else do
    let buf ← cmacPad handle
    let macTmp ← memcpy (zeroBytes 16) 0 mac 0 macLength.toNat
    let (ercd, _) := hw.cmacFinalSub eng (cmacCmd 2 handle.allReceivedLength) buf macTmp (changeEndianLong (macLength * 8))
    .ok (ercd, clearedCmac)

def aes128cmacGenerateUpdate (g : Globals) := cmacUpdate hw g.aes128cmacgenPrivateId
def aes128cmacGenerateFinal (g : Globals) := cmacGenerateFinal hw g.aes128cmacgenPrivateId
def aes128cmacVerifyUpdate (g : Globals) := cmacUpdate hw g.aes128cmacverPrivateId
def aes128cmacVerifyFinal (g : Globals) := cmacVerifyFinal hw g.aes128cmacverPrivateId
def aes256cmacGenerateUpdate (g : Globals) := cmacUpdate hw g.aes256cmacgenPrivateId
def aes256cmacGenerateFinal (g : Globals) := cmacGenerateFinal hw g.aes256cmacgenPrivateId
def aes256cmacVerifyUpdate (g : Globals) := cmacUpdate hw g.aes256cmacverPrivateId
def aes256cmacVerifyFinal (g : Globals) := cmacVerifyFinal hw g.aes256cmacverPrivateId

end Cmac

end Optee.Sce
