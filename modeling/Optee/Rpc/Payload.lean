import Mathlib.Algebra.Group.Nat.Defs
import Mathlib.Data.List.Basic

/-! Shared memory that the normal world hands out on request. -/

namespace Optee.Rpc

def smallPageSize : UInt64 := 4096

def smallPageMask : UInt64 := 4095

structure Area where
  start : UInt64
  size : UInt64

def coreIsBufferInside (b bl : UInt64) (a : Area) : Bool :=
  if b - 1 + bl < b ∨ a.start - 1 + a.size < a.start then false
  else if bl = 0 ∨ a.size = 0 then false
  else decide (a.start ≤ b ∧ b - 1 + bl ≤ a.start - 1 + a.size)

structure Config where
  /-- `CFG_CORE_DYN_SHM` -/
  dynShm : Bool
  /-- The reserved shared memory, with `CFG_CORE_RESERVED_SHM`. -/
  nsecShm : Option Area
  /-- Where the reserved shared memory is mapped. -/
  nsecShmVa : ℕ
  nsecDdr : List Area
  /-- `sizeof(struct mobj_reg_shm)` -/
  regShmHeader : ℕ

variable (cfg : Config)

def corePbufIsNsecShm (pa len : UInt64) : Bool := len = 0 || cfg.nsecShm.any (coreIsBufferInside pa len)

def corePbufIsNonSec (pa len : UInt64) : Bool :=
  len = 0 || cfg.nsecShm.any (coreIsBufferInside pa len) ||
    (cfg.dynShm && cfg.nsecDdr.any (coreIsBufferInside pa len))

inductive Mobj
  /-- A `struct mobj_shm` -/
  | shm (pa size cookie : UInt64)
  /-- A `struct mobj_reg_shm` that is mapped at `mm`. -/
  | regShm (pages : List UInt64) (pageOffset size cookie : UInt64) (mm : ℕ)
  deriving DecidableEq

namespace Mobj

def size : Mobj → UInt64
  | .shm _ size _ | .regShm _ _ size _ _ => size

def getPa : Mobj → Option UInt64
  | .shm pa size _ => if size = 0 then none else some pa
  | .regShm pages pageOffset size _ _ => if size = 0 then none else pages[0]?.map (· + pageOffset)

def getVa : Mobj → ℕ → Option ℕ
  | .shm pa size _, offset =>
    if size.toNat ≤ offset then none
    else cfg.nsecShm.bind fun a =>
      if a.start.toNat ≤ pa.toNat + offset ∧ pa.toNat + offset < a.start.toNat + a.size.toNat then
        some (cfg.nsecShmVa + (pa.toNat + offset - a.start.toNat))
      else none
  | .regShm _ pageOffset size _ mm, offset =>
    if size.toNat ≤ offset then none else some (mm + offset + pageOffset.toNat)

end Mobj

def mobjShmAlloc (memory : Bool) (pa size cookie : UInt64) : Option Mobj :=
  if !corePbufIsNsecShm cfg pa size then none else if !memory then none else some (.shm pa size cookie)

def mobjMappedShmAlloc (mm : Option ℕ) (pages : List UInt64) (pageOffset cookie : UInt64) : Option Mobj :=
  if pages = [] ∨ smallPageSize ≤ pageOffset then none
  else if 2 ^ 64 ≤ cfg.regShmHeader + 8 * pages.length then none
  else if !pages.all fun page => page &&& smallPageMask = 0 && corePbufIsNonSec cfg page smallPageSize then none
  else mm.map (.regShm pages pageOffset (UInt64.ofNat pages.length * smallPageSize - pageOffset) cookie)

/-- What the normal world answers, and what the core has for the objects it makes of it. -/
structure Reply where
  ret : UInt32
  numParams : UInt32
  attr : UInt64
  bufPtr : UInt64
  size : UInt64
  shmRef : UInt64
  words : ℕ → UInt64
  /-- There is a buffer for the arguments of the call. -/
  arg : Bool
  memory : Bool
  listMm : ℕ → Option ℕ
  mm : Option ℕ

def tmemOutput : UInt64 := 0xa

def noncontig : UInt64 := 0x200

def rpcShmMobjAlloc (reply : Reply) : Option Mobj :=
  if corePbufIsNsecShm cfg reply.bufPtr reply.size then
    mobjShmAlloc cfg reply.memory reply.bufPtr reply.size reply.shmRef
  else if cfg.dynShm ∧ reply.bufPtr &&& smallPageMask = 0 ∧ reply.size ≤ smallPageSize then
    mobjMappedShmAlloc cfg reply.mm [reply.bufPtr] 0 reply.shmRef
  else none

structure Cursor where
  entry : ℕ
  word : ℕ
  page : ℕ

def Cursor.settle (reply : Reply) (c : Cursor) : Option Cursor :=
  if c.entry = 511 then
    let page := reply.words c.word
    if page &&& smallPageMask ≠ 0 then none
    else (mobjMappedShmAlloc cfg (reply.listMm c.page) [page] 0 0).map fun _ => ⟨0, c.word + 1, c.page + 1⟩
  else some c

def extractPages (reply : Reply) : ℕ → Cursor → Option (List UInt64)
  | 0, _ => some []
  | n + 1, c => do
    let c ← c.settle cfg reply
    let page := reply.words c.word
    if page &&& smallPageMask ≠ 0 then none
    else
      let pages ← extractPages reply n ⟨c.entry + 1, c.word + 1, c.page⟩
      some (page :: pages)

def msgParamExtractPages (reply : Reply) (buffer : UInt64) (numPages : ℕ) : Option (List UInt64) :=
  if buffer &&& smallPageMask ≠ 0 then none
  else (mobjMappedShmAlloc cfg (reply.listMm 0) [buffer] 0 0).bind fun _ => extractPages cfg reply numPages ⟨0, 0, 1⟩

def pageOffset (reply : Reply) : UInt64 := reply.bufPtr &&& smallPageMask

def numPages (reply : Reply) : UInt64 := (reply.size + pageOffset reply - 1) / smallPageSize + 1

def msgParamMobjFromNoncontig (reply : Reply) : Option Mobj :=
  if 2 ^ 64 ≤ reply.size.toNat + (pageOffset reply).toNat then none
  else if 2 ^ 64 ≤ (numPages reply).toNat * 8 then none
  else if !reply.memory then none
  else do
    let pages ← msgParamExtractPages cfg reply (reply.bufPtr &&& ~~~smallPageMask) (numPages reply).toNat
    mobjMappedShmAlloc cfg reply.mm pages (pageOffset reply) reply.shmRef

def getRpcAllocRes (reply : Reply) : Option Mobj :=
  if reply.ret ≠ 0 ∨ reply.numParams ≠ 1 then none
  else if reply.attr ≠ tmemOutput ∧ reply.attr ≠ tmemOutput ||| noncontig then none
  else if reply.attr = tmemOutput then rpcShmMobjAlloc cfg reply
  else msgParamMobjFromNoncontig cfg reply

inductive ShmType
  | application
  | kernelPrivate
  | global
  deriving DecidableEq

structure Request where
  bt : ShmType
  size : UInt64
  align : ℕ

variable (nw : Request → Reply)

def threadRpcAlloc (size : UInt64) (align : ℕ) (bt : ShmType) : Option Mobj :=
  let reply := nw ⟨bt, size, align⟩
  if !reply.arg then none else getRpcAllocRes cfg reply

def threadRpcAllocPayload (size : UInt64) : Option Mobj := threadRpcAlloc cfg nw size 8 .application

def threadRpcAllocKernelPayload (size : UInt64) : Option Mobj :=
  if cfg.dynShm ∧ smallPageSize < size then none else threadRpcAlloc cfg nw size 8 .kernelPrivate

def threadRpcAllocGlobalPayload (size : UInt64) : Option Mobj := threadRpcAlloc cfg nw size 8 .global

def allocShm (shmType : ShmType) (size : UInt64) : Option Mobj :=
  match shmType with
  | .application => threadRpcAllocPayload cfg nw size
  | .kernelPrivate => threadRpcAllocKernelPayload cfg nw size
  | .global => threadRpcAllocGlobalPayload cfg nw size

inductive CacheUser
  | socket
  | fs
  | i2c
  deriving DecidableEq

structure CacheEntry where
  mobj : Option Mobj
  size : UInt64
  type : ShmType

abbrev Cache := CacheUser → Option CacheEntry

def Cache.set (cache : Cache) (user : CacheUser) (ce : CacheEntry) : Cache := Function.update cache user (some ce)

def getShmCacheEntry (memory : Bool) (cache : Cache) (user : CacheUser) : Option CacheEntry :=
  match cache user with
  | some ce => some ce
  | none => if memory then some ⟨none, 0, .application⟩ else none

def roundUp (size : UInt64) : UInt64 := (size + smallPageMask) &&& ~~~smallPageMask

def clearShmCacheEntry (ce : CacheEntry) : CacheEntry := { ce with mobj := none, size := 0 }

def refill (ce : CacheEntry) (shmType : ShmType) (sz : UInt64) : CacheEntry × Option (ℕ × Mobj) :=
  match allocShm cfg nw shmType sz with
  | none => (ce, none)
  | some mobj =>
    match mobj.getPa, mobj.getVa cfg 0 with
    | some pa, some va =>
      if pa &&& 7 ≠ 0 then (ce, none) else ({ mobj := some mobj, size := sz, type := shmType }, some (va, mobj))
    | _, _ => (ce, none)

def fromEntry (ce : CacheEntry) (shmType : ShmType) (sz : UInt64) : CacheEntry × Option (ℕ × Mobj) :=
  if ce.type ≠ shmType ∨ ce.size < sz then refill cfg nw (clearShmCacheEntry ce) shmType sz
  else
    match ce.mobj.bind fun mobj => (mobj.getVa cfg 0).map fun va => (va, mobj) with
    | some found => (ce, some found)
    | none => (clearShmCacheEntry ce, none)

structure Call where
  user : CacheUser
  shmType : ShmType
  size : UInt64
  nw : Request → Reply
  memory : Bool

def threadRpcShmCacheAlloc (cache : Cache) (call : Call) : Cache × Option (ℕ × Mobj) :=
  if call.size = 0 then (cache, none)
  else
    match getShmCacheEntry call.memory cache call.user with
    | none => (cache, none)
    | some ce =>
      let (ce, res) := fromEntry cfg call.nw ce call.shmType (roundUp call.size)
      (cache.set call.user ce, res)

end Optee.Rpc
