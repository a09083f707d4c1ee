import Optee.Lib.ByteStrings
import Optee.TeeResult

/-! Data frames exchanged with the replay protected memory block of an eMMC device: packing a request,
checking a response, and the retry loop of an authenticated write. -/

namespace Optee.Rpmb

open Lib.ByteStrings

abbrev Uuid := Bytes 16

def reqAuthDataWrite : UInt16 := 0x0003
def respWriteCounterValRead : UInt16 := 0x0200
def respAuthDataWrite : UInt16 := 0x0300
def respAuthDataRead : UInt16 := 0x0400

def resultOk : UInt16 := 0x00
def resultAuthKeyNotProgrammed : UInt16 := 0x07
def resultMask : UInt16 := 0x3F

def dataSize : ℕ := 256
def dataFrameSize : ℕ := 512
def reqSize : ℕ := 6
def maxRetries : ℕ := 10

structure Frame where
  keyMac : Bytes 32
  data : Bytes 256
  nonce : Bytes 16
  writeCounter : UInt32
  address : UInt16
  blockCount : UInt16
  opResult : UInt16
  msgType : UInt16

def beBytes (w n : ℕ) : List UInt8 := (leBytes w n).reverse

def Frame.protectedBytes (f : Frame) : List UInt8 :=
  f.data.toList ++ f.nonce.toList ++ beBytes 4 f.writeCounter.toNat ++ beBytes 2 f.address.toNat ++
    beBytes 2 f.blockCount.toNat ++ beBytes 2 f.opResult.toNat ++ beBytes 2 f.msgType.toNat

structure Crypto where
  mac : (key : Bytes 32) → List UInt8 → Bytes 32
  encryptBlock : Option Uuid → (fek : Bytes 16) → (blkIdx : UInt16) → Bytes 256 → TeeResult (Bytes 256)
  decryptBlock : Option Uuid → (fek : Bytes 16) → (blkIdx : UInt16) → Bytes 256 → TeeResult (Bytes 256)

structure Ctx where
  key : Bytes 32
  wrCnt : UInt32
  maxBlkIdx : UInt16
  relWrBlkcnt : UInt16
  wrCntSynced : Bool

structure RawData where
  msgType : UInt16
  blockCount : Option UInt16
  blkIdx : Option UInt16
  writeCounter : Option UInt32
  nonce : Option (Bytes 16)
  keyMac : Option (Bytes 32)
  data : Option (List UInt8)
  len : UInt32
  byteOffset : UInt8

variable (K : Crypto)

def macCalc (key : Bytes 32) (frames : List Frame) : Bytes 32 := K.mac key (frames.flatMap Frame.protectedBytes)

def Frame.zero : Frame := ⟨zeroBytes 32, zeroBytes 256, zeroBytes 16, 0, 0, 0, 0, 0⟩

def block (data : List UInt8) (i : ℕ) : Bytes 256 := ⟨resize (data.drop (i * 256)) 256, resize_length _ _⟩

def packData (raw : RawData) (fek : Option (Bytes 16)) (uuid : Option Uuid) (i : ℕ) : TeeResult (Bytes 256) :=
  match raw.data, fek with
  | none, _ => pure (zeroBytes 256)
  | some data, none => pure (block data i)
  | some data, some fek => K.encryptBlock uuid fek (raw.blkIdx.getD 0 + UInt16.ofNat i) (block data i)

def packFrame (ctx : Ctx) (raw : RawData) (nbrFrms : ℕ) (fek : Option (Bytes 16)) (uuid : Option Uuid) (i : ℕ) :
    TeeResult Frame :=
  if raw.blkIdx.any (fun idx => idx.toNat + nbrFrms - 1 > ctx.maxBlkIdx.toNat) then .error .generic
  else do
    let data ← packData K raw fek uuid i
    pure { Frame.zero with
      msgType := raw.msgType
      blockCount := raw.blockCount.getD 0
      address := raw.blkIdx.getD 0
      writeCounter := raw.writeCounter.getD 0
      nonce := raw.nonce.getD (zeroBytes 16)
      data }

def setMac (mac : Bytes 32) : List Frame → List Frame
  | [] => []
  | [f] => [{ f with keyMac := mac }]
  | f :: fs => f :: setMac mac fs

def reqPack (ctx : Ctx) (raw : RawData) (nbrFrms : ℕ) (fek : Option (Bytes 16)) (uuid : Option Uuid)
    (fault : Option TeeError) : TeeResult (List Frame) :=
  if nbrFrms = 0 then .error .badParameters
  else if raw.msgType = reqAuthDataWrite ∧ nbrFrms > ctx.relWrBlkcnt.toNat then .error .generic
  else do
    let frames ← (List.range nbrFrms).mapM (packFrame K ctx raw nbrFrms fek uuid)
    match fault, raw.keyMac with
    | some e, _ => .error e
    | none, none => pure frames
    | none, some keyMac =>
      pure (setMac (if raw.msgType = reqAuthDataWrite then macCalc K ctx.key frames else keyMac) frames)

/-- The response in shared memory; the authentication code is read there after the last frame was copied. -/
structure Response where
  frames : List Frame
  keyMac : Bytes 32
  fault : Option TeeError

def decryptFrame (fek : Option (Bytes 16)) (uuid : Option Uuid) (frm : Frame) (size offset : ℕ) (blkIdx : UInt16) :
    TeeResult (List UInt8) :=
  if size + offset > dataSize then .error .panic
  else match fek with
    | none => pure (slice frm.data.toList offset size)
    | some fek =>
      if fek = zeroBytes 16 then .error .security
      else do
        let plain ← K.decryptBlock uuid fek blkIdx frm.data
        pure (slice plain.toList offset size)

def dataCpyMacCalc (ctx : Ctx) (raw : RawData) (frames : List Frame) (last : Frame) (fek : Option (Bytes 16))
    (uuid : Option Uuid) : TeeResult (List UInt8 × Bytes 32) := do
  let len := raw.len + raw.byteOffset.toUInt32
  if frames.length = 1 then
    if len.toNat > dataSize then .error .badParameters
    else do
      let data ← decryptFrame K fek uuid last raw.len.toNat raw.byteOffset.toNat last.address
      pure (data, macCalc K ctx.key [last])
  else do
    let offset := fun i => if i = 0 then raw.byteOffset.toNat else 0
    let parts ← frames.dropLast.zipIdx.mapM (fun (frm, i) =>
      decryptFrame K fek uuid frm (dataSize - offset i) (offset i) (last.address + UInt16.ofNat i))
    let size := if len.toNat % dataSize = 0 then dataSize else len.toNat % dataSize
    let tail ← decryptFrame K fek uuid last size 0 (last.address + UInt16.ofNat (frames.length - 1))
    pure (parts.flatten ++ tail, macCalc K ctx.key (frames.dropLast ++ [last]))

def authenticate (ctx : Ctx) (raw : RawData) (resp : Response) (last : Frame) (fek : Option (Bytes 16))
    (uuid : Option Uuid) : TeeResult (List UInt8) :=
  if raw.nonce.any (fun nonce => nonce ≠ last.nonce) then .error .security
  else if raw.keyMac.isNone then pure []
  else do
    let (data, mac) ←
      if last.msgType = respAuthDataRead then
        if raw.data.isNone then .error .generic
        else dataCpyMacCalc K ctx raw resp.frames last fek uuid
      else if resp.frames.length ≠ 1 then .error .generic
      else pure ([], macCalc K ctx.key [last])
    match resp.fault with
    | some e => .error e
    | none => if mac = resp.keyMac then pure data else .error .security

structure Verdict where
  res : TeeResult (List UInt8)
  writeCounter : Option UInt32
  ctx : Ctx

def respUnpackVerify (ctx : Ctx) (raw : RawData) (resp : Response) (fek : Option (Bytes 16)) (uuid : Option Uuid) :
    Verdict :=
  match resp.frames.getLast? with
  | none => ⟨.error .badParameters, raw.writeCounter, ctx⟩
  | some last =>
    let opResult := last.opResult &&& resultMask
    if opResult = resultAuthKeyNotProgrammed then ⟨.error .itemNotFound, raw.writeCounter, ctx⟩
    else if opResult ≠ resultOk then ⟨.error .generic, raw.writeCounter, ctx⟩
    else if last.msgType ≠ raw.msgType then ⟨.error .generic, raw.writeCounter, ctx⟩
    else if raw.blkIdx.any (fun idx => last.address ≠ idx) then ⟨.error .generic, raw.writeCounter, ctx⟩
    else match raw.writeCounter with
      | none => ⟨authenticate K ctx raw resp last fek uuid, none, ctx⟩
      | some wrCnt =>
        if last.msgType = respAuthDataWrite then
          if last.writeCounter ≠ wrCnt + 1 then ⟨.error .security, some last.writeCounter, ctx⟩
          else
            let ctx := { ctx with wrCnt := ctx.wrCnt + 1 }
            ⟨authenticate K ctx raw resp last fek uuid, some last.writeCounter, ctx⟩
        else ⟨authenticate K ctx raw resp last fek uuid, some last.writeCounter, ctx⟩

end Optee.Rpmb
