import Mathlib.Data.List.Dedup
import Optee.Lib.ByteStrings
import Optee.TeeResult

/-! The persistent record of a token: its flags, its label and the credentials of its two users. -/

namespace Optee.Pkcs11

open Lib.ByteStrings List

inductive Rc
  | argumentsBad
  | slotIdInvalid
  | deviceMemory
  | generalError
  | functionFailed
  | bufferTooSmall
  | signatureInvalid
  | notFound
  | pinIncorrect
  | pinInvalid
  | pinLenRange
  | pinLocked
  | userPinNotInitialized
  | userNotLoggedIn
  | userAlreadyLoggedIn
  | userAnotherAlreadyLoggedIn
  | userTypeInvalid
  | operationNotInitialized
  | operationActive
  | sessionExists
  | sessionHandleInvalid
  | sessionParallelNotSupported
  | sessionReadOnly
  | sessionReadOnlyExists
  | sessionReadWriteSoExists
  | tokenWriteProtected
  | objectHandleInvalid
  | templateInconsistent
  | templateIncomplete
  | attributeReadOnly
  | attributeTypeInvalid
  | attributeValueInvalid
  | attributeSensitive
  | keyFunctionNotPermitted
  | keyTypeInconsistent
  | keyHandleInvalid
  | wrappingKeyTypeInconsistent
  | unwrappingKeyTypeInconsistent
  | mechanismInvalid
  | actionProhibited
  | dataLenRange
  deriving DecidableEq

def tee2pkcsError : TeeError → Rc
  | .badParameters => .argumentsBad
  | .outOfMemory => .deviceMemory
  | .shortBuffer => .bufferTooSmall
  | .macInvalid => .signatureInvalid
  | _ => .generalError

inductive UserType
  | so
  | user
  deriving DecidableEq

inductive Flag
  | rng
  | writeProtected
  | loginRequired
  | userPinInitialized
  | protectedAuthenticationPath
  | dualCryptoOperations
  | tokenInitialized
  | pinCountLow (u : UserType)
  | pinFinalTry (u : UserType)
  | pinLocked (u : UserType)
  | pinToBeChanged (u : UserType)
  deriving DecidableEq

def Flag.bit : Flag → ℕ
  | .rng => 0
  | .writeProtected => 1
  | .loginRequired => 2
  | .userPinInitialized => 3
  | .protectedAuthenticationPath => 8
  | .dualCryptoOperations => 9
  | .tokenInitialized => 10
  | .pinCountLow .user => 16
  | .pinFinalTry .user => 17
  | .pinLocked .user => 18
  | .pinToBeChanged .user => 19
  | .pinCountLow .so => 20
  | .pinFinalTry .so => 21
  | .pinLocked .so => 22
  | .pinToBeChanged .so => 23

lemma Flag.bit_lt (f : Flag) : f.bit < 32 := by
  rcases f with _ | _ | _ | _ | _ | _ | _ | u | u | u | u <;> try decide
  all_goals cases u <;> decide

lemma Flag.bit_injective {f g : Flag} (h : f.bit = g.bit) : f = g := by
  rcases f with _ | _ | _ | _ | _ | _ | _ | u | u | u | u <;>
    rcases g with _ | _ | _ | _ | _ | _ | _ | v | v | v | v <;>
    (try cases u) <;> (try cases v) <;> first | rfl | exact absurd h (by decide)

abbrev Flags := BitVec 32

def mask : List Flag → Flags
  | [] => 0
  | f :: fs => BitVec.twoPow 32 f.bit ||| mask fs

namespace Flags

def has (x : Flags) (f : Flag) : Bool := x.getLsbD f.bit

def raise (x : Flags) (fs : List Flag) : Flags := x ||| mask fs

def lower (x : Flags) (fs : List Flag) : Flags := x &&& ~~~mask fs

end Flags

lemma mask_has (fs : List Flag) (f : Flag) : Flags.has (mask fs) f = decide (f ∈ fs) := by
  induction fs with
  | nil => simp [mask, Flags.has]
  | cons g fs ih =>
    have hbit : (g.bit = f.bit) ↔ f = g := ⟨fun h => (Flag.bit_injective h).symm, fun h => by rw [h]⟩
    rw [Flags.has] at ih
    rw [Flags.has, mask, BitVec.getLsbD_or, ih]
    simp [hbit, g.bit_lt]

namespace Flags

@[simp] lemma has_raise (x : Flags) (fs : List Flag) (f : Flag) : (x.raise fs).has f = (x.has f || decide (f ∈ fs)) := by
  rw [← mask_has, raise, has, BitVec.getLsbD_or]
  rfl

@[simp] lemma has_lower (x : Flags) (fs : List Flag) (f : Flag) : (x.lower fs).has f = (x.has f && !decide (f ∈ fs)) := by
  rw [← mask_has, lower]
  simp [has, f.bit_lt]

end Flags

structure Credential where
  pinCount : UInt32
  pinSalt : UInt32
  auth : Bytes 64
  deriving DecidableEq

structure Main where
  version : UInt32
  label : Bytes 32
  flags : Flags
  so : Credential
  user : Credential
  deriving DecidableEq

namespace Main

def cred (m : Main) : UserType → Credential
  | .so => m.so
  | .user => m.user

def setCred (m : Main) (u : UserType) (c : Credential) : Main :=
  match u with
  | .so => { m with so := c }
  | .user => { m with user := c }

def has (m : Main) (f : Flag) : Bool := m.flags.has f

def raise (m : Main) (fs : List Flag) : Main := { m with flags := m.flags.raise fs }

def lower (m : Main) (fs : List Flag) : Main := { m with flags := m.flags.lower fs }

variable (m : Main) (u v : UserType) (c : Credential) (fs : List Flag) (f : Flag)

@[simp] lemma has_setCred : (m.setCred u c).has f = m.has f := by cases u <;> rfl

@[simp] lemma has_raise : (m.raise fs).has f = (m.has f || decide (f ∈ fs)) := Flags.has_raise _ _ _

@[simp] lemma has_lower : (m.lower fs).has f = (m.has f && !decide (f ∈ fs)) := Flags.has_lower _ _ _

end Main

/-! The layout of the record in the file. -/

def mainSize : ℕ := 184

def u32At (bs : List UInt8) (pos : ℕ) : UInt32 := UInt32.ofNat (leNat (slice bs pos 4))

def bytesAt (n : ℕ) (bs : List UInt8) (pos : ℕ) : Bytes n := ⟨resize (slice bs pos n) n, resize_length _ _⟩

def Credential.encode (c : Credential) : List UInt8 :=
  leBytes 4 c.pinCount.toNat ++ (leBytes 4 c.pinSalt.toNat ++ c.auth.toList)

def Main.encode (m : Main) : List UInt8 :=
  leBytes 4 m.version.toNat ++ (m.label.toList ++ (leBytes 4 m.flags.toNat ++ (m.so.encode ++ m.user.encode)))

def Credential.decode (bs : List UInt8) (pos : ℕ) : Credential :=
  ⟨u32At bs pos, u32At bs (pos + 4), bytesAt 64 bs (pos + 8)⟩

def Main.decode (bs : List UInt8) : Main :=
  ⟨u32At bs 0, bytesAt 32 bs 4, BitVec.ofNat 32 (leNat (slice bs 36 4)), .decode bs 40, .decode bs 112⟩

@[simp] lemma Credential.encode_length (c : Credential) : c.encode.length = 72 := by simp [encode]

@[simp] lemma Main.encode_length (m : Main) : m.encode.length = mainSize := by simp [encode, mainSize]

variable {post pre : List UInt8} {pos : ℕ}

lemma u32At_mid (x : UInt32) (hpre : pre.length = pos) : u32At (pre ++ (leBytes 4 x.toNat ++ post)) pos = x := by
  rw [u32At, slice_mid hpre (leBytes_length _ _), leNat_leBytes]
  apply UInt32.toNat_inj.mp
  rw [UInt32.toNat_ofNat']
  have := x.toNat_lt
  omega

lemma bytesAt_mid {n : ℕ} (x : Bytes n) (hpre : pre.length = pos) : bytesAt n (pre ++ (x.toList ++ post)) pos = x := by
  apply List.Vector.toList_injective
  change resize _ n = _
  rw [slice_mid hpre x.toList_length]
  simp [resize, extend]

lemma Credential.decode_mid (c : Credential) (hpre : pre.length = pos) :
    decode (pre ++ (c.encode ++ post)) pos = c := by
  have h0 : u32At (pre ++ (leBytes 4 c.pinCount.toNat ++ (leBytes 4 c.pinSalt.toNat ++ (c.auth.toList ++ post)))) pos =
      c.pinCount := u32At_mid _ hpre
  have h4 : u32At ((pre ++ leBytes 4 c.pinCount.toNat) ++ (leBytes 4 c.pinSalt.toNat ++ (c.auth.toList ++ post)))
      (pos + 4) = c.pinSalt := u32At_mid _ (by simp [hpre])
  have h8 : bytesAt 64 ((pre ++ leBytes 4 c.pinCount.toNat ++ leBytes 4 c.pinSalt.toNat) ++ (c.auth.toList ++ post))
      (pos + 8) = c.auth := bytesAt_mid _ (by simp [hpre])
  simp only [append_assoc] at h4 h8
  simp only [decode, encode, append_assoc, h0, h4, h8]

lemma Main.decode_encode (m : Main) (rest : List UInt8) : decode (m.encode ++ rest) = m := by
  have h0 : u32At ([] ++ (leBytes 4 m.version.toNat ++ (m.label.toList ++ (leBytes 4 m.flags.toNat ++
      (m.so.encode ++ (m.user.encode ++ rest)))))) 0 = m.version := u32At_mid _ rfl
  have h4 : bytesAt 32 (leBytes 4 m.version.toNat ++ (m.label.toList ++ (leBytes 4 m.flags.toNat ++
      (m.so.encode ++ (m.user.encode ++ rest))))) 4 = m.label := bytesAt_mid _ (leBytes_length _ _)
  have h36 : slice ((leBytes 4 m.version.toNat ++ m.label.toList) ++ (leBytes 4 m.flags.toNat ++
      (m.so.encode ++ (m.user.encode ++ rest)))) 36 4 = leBytes 4 m.flags.toNat := slice_mid (by simp) (leBytes_length _ _)
  have h40 : Credential.decode ((leBytes 4 m.version.toNat ++ m.label.toList ++ leBytes 4 m.flags.toNat) ++
      (m.so.encode ++ (m.user.encode ++ rest))) 40 = m.so := Credential.decode_mid _ (by simp)
  have h112 : Credential.decode ((leBytes 4 m.version.toNat ++ m.label.toList ++ leBytes 4 m.flags.toNat ++ m.so.encode) ++
      (m.user.encode ++ rest)) 112 = m.user := Credential.decode_mid _ (by simp)
  have hlt : m.flags.toNat < 256 ^ 4 := m.flags.isLt
  have hflags : BitVec.ofNat 32 (leNat (leBytes 4 m.flags.toNat)) = m.flags := by
    rw [leNat_leBytes, Nat.mod_eq_of_lt hlt, BitVec.ofNat_toNat, BitVec.setWidth_eq]
  simp only [append_assoc, nil_append] at h0 h36 h40 h112
  simp only [decode, encode, append_assoc, h0, h4, h36, h40, h112, hflags]

end Optee.Pkcs11
