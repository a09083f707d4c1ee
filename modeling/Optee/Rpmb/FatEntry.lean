import Optee.Lib.ByteStrings

/-! Entries of the file allocation table. -/

namespace Optee.Rpmb

open Lib.ByteStrings List

def fatStartAddress : ℕ := 512
def fatEntrySize : ℕ := 256

def fileIsActive : UInt32 := 1
def fileIsLastEntry : UInt32 := 2

structure FatEntry where
  startAddress : UInt32
  dataSize : UInt32
  flags : UInt32
  writeCounter : UInt32
  fek : Bytes 16
  filename : Bytes 224
  deriving DecidableEq

namespace FatEntry

def zero : FatEntry := ⟨0, 0, 0, 0, zeroBytes 16, zeroBytes 224⟩

def isActive (e : FatEntry) : Bool := e.flags &&& fileIsActive ≠ 0

def isLast (e : FatEntry) : Bool := e.flags &&& fileIsLastEntry ≠ 0

def bytes (e : FatEntry) : List UInt8 :=
  leBytes 4 e.startAddress.toNat ++ leBytes 4 e.dataSize.toNat ++ leBytes 4 e.flags.toNat ++
    leBytes 4 e.writeCounter.toNat ++ e.fek.toList ++ e.filename.toList

lemma bytes_length (e : FatEntry) : e.bytes.length = 256 := by
  simp [bytes]

def toBlock (e : FatEntry) : Bytes 256 := ⟨e.bytes, e.bytes_length⟩

def word (b : List UInt8) (i : ℕ) : UInt32 := UInt32.ofNat (leNat (slice b (4 * i) 4))

def field (b : Bytes 256) (pos n : ℕ) (h : pos + n ≤ 256) : Bytes n :=
  ⟨slice b.toList pos n, by rw [slice_length, b.toList_length]; omega⟩

def ofBlock (b : Bytes 256) : FatEntry :=
  ⟨word b.toList 0, word b.toList 1, word b.toList 2, word b.toList 3, field b 16 16 (by decide), field b 32 224 (by decide)⟩

lemma slice_append_mid {xs ys zs : List UInt8} {pos n : ℕ} (hpos : xs.length = pos) (hn : ys.length = n) :
    slice (xs ++ ys ++ zs) pos n = ys := by
  subst hpos hn
  rw [slice, append_assoc, drop_left, take_left]

lemma ofBlock_toBlock (e : FatEntry) : ofBlock e.toBlock = e := by
  obtain ⟨start, size, flags, counter, fek, name⟩ := e
  have hbytes : (toBlock ⟨start, size, flags, counter, fek, name⟩).toList = leBytes 4 start.toNat ++ leBytes 4 size.toNat ++
      leBytes 4 flags.toNat ++ leBytes 4 counter.toNat ++ fek.toList ++ name.toList := rfl
  have hword : ∀ (xs zs : List UInt8) (w : UInt32) (i : ℕ), xs.length = 4 * i →
      word (xs ++ leBytes 4 w.toNat ++ zs) i = w := by
    intro xs zs w i hlen
    rw [word, slice_append_mid hlen (leBytes_length 4 w.toNat), leNat_leBytes,
      Nat.mod_eq_of_lt (show w.toNat < 256 ^ 4 from w.toNat_lt), UInt32.ofNat_toNat]
  rw [ofBlock, FatEntry.mk.injEq]
  refine ⟨?_, ?_, ?_, ?_, ?_, ?_⟩
  · rw [hbytes]
    simpa only [nil_append, append_assoc] using hword [] (leBytes 4 size.toNat ++ (leBytes 4 flags.toNat ++
      (leBytes 4 counter.toNat ++ (fek.toList ++ name.toList)))) start 0 rfl
  · rw [hbytes]
    simpa only [append_assoc] using hword (leBytes 4 start.toNat) (leBytes 4 flags.toNat ++
      (leBytes 4 counter.toNat ++ (fek.toList ++ name.toList))) size 1 (by simp)
  · rw [hbytes]
    simpa only [append_assoc] using hword (leBytes 4 start.toNat ++ leBytes 4 size.toNat)
      (leBytes 4 counter.toNat ++ (fek.toList ++ name.toList)) flags 2 (by simp)
  · rw [hbytes]
    simpa only [append_assoc] using hword (leBytes 4 start.toNat ++ leBytes 4 size.toNat ++ leBytes 4 flags.toNat)
      (fek.toList ++ name.toList) counter 3 (by simp)
  · apply Subtype.ext
    change slice _ 16 16 = fek.toList
    rw [hbytes, slice_append_mid (by simp) (by simp)]
  · apply Subtype.ext
    change slice _ 32 224 = name.toList
    rw [hbytes, ← append_nil (_ ++ name.toList), slice_append_mid (by simp) (by simp)]

end FatEntry

end Optee.Rpmb
