import Optee.FsHtree.Rounds
import Optee.ReeFs.Layout

/-! Files of the REE file system: byte ranges on top of the blocks of a hash tree. -/

namespace Optee.ReeFs

open FsHtree Lib.ByteStrings

def posToBlockNum (position : ℕ) : BitVec 32 := (BitVec.ofNat 32 position).sshiftRight blockShift

def toSize (n : BitVec 32) : ℕ := (n.signExtend 64).toNat

structure Fd where
  ht : Htree
  file : HostFile blockSize

inductive Effect
  | write (w : HostWrite blockSize)
  | truncate (len : ℕ)

def Effect.apply (f : HostFile blockSize) : Effect → HostFile blockSize
  | .write w => f.writeAll [w]
  | .truncate len => f.truncate len

def applyEffects (f : HostFile blockSize) (es : List Effect) : HostFile blockSize := es.foldl Effect.apply f

def Fd.length (fd : Fd) : ℕ := fd.ht.imeta.metadata.length.toNat

def Fd.setLength (fd : Fd) (len : ℕ) : Fd := { fd with ht := setMeta fd.ht ⟨UInt64.ofNat len⟩ }

def overlay (block : Bytes blockSize) (offset : ℕ) (b : List UInt8) : Bytes blockSize :=
  ⟨resize (patch block.toList offset b) blockSize, resize_length _ _⟩

def sizeInBlock (pos remain : ℕ) : ℕ :=
  let offset := pos % blockSize
  let size := min remain blockSize
  if size + offset > blockSize then blockSize - offset else size

variable (C : Crypto)

structure WriteLoop where
  fd : Fd
  pos : ℕ
  remain : ℕ
  data : Option (List UInt8)
  writes : List (HostWrite blockSize)

def oldBlock (fd : Fd) (num : ℕ) : TeeResult (Bytes blockSize) :=
  if num * blockSize % 2 ^ 64 < roundup fd.length then readBlock C fd.file fd.ht num
  else pure (zeroBytes blockSize)

def writeTurn (ivs : ℕ → Bytes 16) (s : WriteLoop) (num : ℕ) : TeeResult WriteLoop := do
  let size := sizeInBlock s.pos s.remain
  let block ← oldBlock C s.fd num
  let chunk := s.data.elim (List.replicate size 0) (List.take size)
  let (ht, ws) ← writeBlock C s.fd.ht num (overlay block (s.pos % blockSize) chunk) (ivs num)
  pure ⟨⟨ht, s.fd.file.writeAll ws⟩, s.pos + size, s.remain - size, s.data.map (List.drop size),
    s.writes ++ ws⟩

def outOfPlaceWrite (fd : Fd) (pos : ℕ) (buf : Option (List UInt8)) (len : ℕ) (ivs : ℕ → Bytes 16) :
    TeeResult (Fd × List (HostWrite blockSize)) := do
  let start := toSize (posToBlockNum pos)
  let stop := toSize (posToBlockNum (pos + len - 1))
  if len = 0 then .error .badParameters
  else do
    let s ← (List.range' start (stop + 1 - start)).foldlM (writeTurn C ivs) ⟨fd, pos, len, buf, []⟩
    pure (if s.pos > s.fd.length then s.fd.setLength s.pos else s.fd, s.writes)

def ftruncateInternal (fd : Fd) (newLen : ℕ) (ivs : ℕ → Bytes 16) : TeeResult (Fd × List Effect) := do
  if newLen > fd.length then do
    let (fd, ws) ← outOfPlaceWrite C fd fd.length none (newLen - fd.length) ivs
    pure (fd, ws.map .write)
  else do
    let cut := truncateAt (roundup newLen / blockSize)
    let ht ← truncateHtree fd.ht (newLen / blockSize)
    pure (Fd.setLength ⟨ht, fd.file.truncate cut⟩ newLen, [.truncate cut])

structure ReadLoop where
  pos : ℕ
  remain : ℕ
  out : List UInt8

def readTurn (fd : Fd) (s : ReadLoop) (num : ℕ) : TeeResult ReadLoop := do
  let size := sizeInBlock s.pos s.remain
  let block ← readBlock C fd.file fd.ht num
  pure ⟨s.pos + size, s.remain - size, s.out ++ slice block.toList (s.pos % blockSize) size⟩

def readBlocks (pos last : ℕ) : List ℕ :=
  let start := posToBlockNum pos
  (List.range ((posToBlockNum last).toInt + 1 - start.toInt).toNat).map
    (fun n => toSize (start + BitVec.ofNat 32 n))

def readPrimitive (fd : Fd) (pos len : ℕ) : TeeResult (ℕ × List UInt8) := do
  let remain := if (pos + len) % 2 ^ 64 < len ∨ pos > fd.length then 0
    else if (pos + len) % 2 ^ 64 > fd.length then fd.length - pos else len
  if remain = 0 then pure (0, [])
  else do
    let s ← (readBlocks pos (pos + remain - 1)).foldlM (readTurn C fd) ⟨pos, remain, []⟩
    pure (remain, s.out)

def writePrimitive (fd : Fd) (pos : ℕ) (buf : List UInt8) (ivs : ℕ → ℕ → Bytes 16) :
    TeeResult (Fd × List Effect) := do
  if buf.length = 0 then pure (fd, [])
  else if (pos + buf.length) % 2 ^ 64 < buf.length then .error .badParameters
  else do
    let (fd, es) ← if fd.length < pos then ftruncateInternal C fd pos (ivs 0) else pure (fd, [])
    let (fd, ws) ← outOfPlaceWrite C fd pos (some buf) buf.length (ivs 1)
    pure (fd, es ++ ws.map .write)

end Optee.ReeFs
