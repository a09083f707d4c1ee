import Mathlib.Tactic.Ring
import Optee.Lib.ByteStrings
import Optee.Lib.SlotFile
import Optee.TeeResult

/-! The on-disk images of a hash tree file and the host file that holds two versions of each. -/

namespace Optee.FsHtree

open Lib.ByteStrings Lib.SlotFile List

structure NodeImage where
  hash : Bytes 32
  iv : Bytes 16
  tag : Bytes 16
  flags : BitVec 16
  deriving DecidableEq

structure Meta where
  length : UInt64
  deriving DecidableEq

structure Imeta where
  metadata : Meta
  maxNodeId : UInt32
  -- the struct ends in four bytes of alignment that are encrypted along with it
  padding : Bytes 4

structure HeadImage where
  iv : Bytes 16
  tag : Bytes 16
  encFek : Bytes 16
  imeta : Bytes 16
  counter : UInt32

def NodeImage.zero : NodeImage := ⟨zeroBytes 32, zeroBytes 16, zeroBytes 16, 0⟩

def Imeta.zero : Imeta := ⟨⟨0⟩, 0, zeroBytes 4⟩

def HeadImage.zero : HeadImage := ⟨zeroBytes 16, zeroBytes 16, zeroBytes 16, zeroBytes 16, 0⟩

def committedBlock : ℕ := 0
def committedChild (b : Bool) : ℕ := 1 + b.toNat

def NodeImage.version (n : NodeImage) (bit : ℕ) : Bool := n.flags.getLsbD bit

def NodeImage.flip (n : NodeImage) (bit : ℕ) : NodeImage :=
  { n with flags := n.flags ^^^ BitVec.twoPow 16 bit }

@[simp] lemma NodeImage.version_flip (n : NodeImage) {k : ℕ} (hk : k < 16) (j : ℕ) :
    (n.flip k).version j = if j = k then !n.version j else n.version j := by
  by_cases h : j = k
  · subst h; simp [flip, version, hk]
  · simp [flip, version, BitVec.getLsbD_twoPow, h, Ne.symm h]

lemma committedChild_lt (b : Bool) : committedChild b < 16 := by cases b <;> decide

@[simp] lemma committedChild_inj {a b : Bool} : committedChild a = committedChild b ↔ a = b := by
  cases a <;> cases b <;> decide

@[simp] lemma committedChild_ne_block (b : Bool) : committedChild b ≠ committedBlock := by
  cases b <;> decide

@[simp] lemma committedBlock_ne_child (b : Bool) : committedBlock ≠ committedChild b := by
  cases b <;> decide

lemma committedBlock_lt : committedBlock < 16 := by decide

def Meta.bytes (m : Meta) : List UInt8 := leBytes 8 m.length.toNat

@[simp] lemma Meta.bytes_length (m : Meta) : m.bytes.length = 8 := leBytes_length _ _

def Imeta.bytes (m : Imeta) : Bytes 16 :=
  ⟨m.metadata.bytes ++ leBytes 4 m.maxNodeId.toNat ++ m.padding.toList, by simp [Meta.bytes]⟩

def Imeta.ofBytes (b : Bytes 16) : Imeta :=
  ⟨⟨UInt64.ofNat (leNat (b.toList.take 8))⟩, UInt32.ofNat (leNat ((b.toList.drop 8).take 4)),
    ⟨b.toList.drop 12, by simp⟩⟩

@[simp] lemma Imeta.ofBytes_bytes (m : Imeta) : Imeta.ofBytes m.bytes = m := by
  rcases m with ⟨⟨len⟩, maxId, pad⟩
  have hl : leNat (leBytes 8 len.toNat) = len.toNat := by
    rw [leNat_leBytes]
    exact Nat.mod_eq_of_lt (len.toNat_lt.trans_eq (by norm_num))
  have hm : leNat (leBytes 4 maxId.toNat) = maxId.toNat := by
    rw [leNat_leBytes]
    exact Nat.mod_eq_of_lt (maxId.toNat_lt.trans_eq (by norm_num))
  have h8 : (leBytes 8 len.toNat).length = 8 := leBytes_length _ _
  have h4 : (leBytes 4 maxId.toNat).length = 4 := leBytes_length _ _
  have hd : ∀ xs : List UInt8, (leBytes 8 len.toNat ++ (leBytes 4 maxId.toNat ++ xs)).drop 12 = xs := by
    intro xs
    rw [← append_assoc, drop_left' (by simp)]
  simp only [ofBytes, bytes, Meta.bytes, List.Vector.toList_mk, append_assoc,
    take_left' h8, drop_left' h8, take_left' h4, hl, hm, hd, UInt64.ofNat_toNat,
    UInt32.ofNat_toNat]
  rfl

inductive Slot
  | head (vers : Bool)
  | node (idx : ℕ) (vers : Bool)
  | block (idx : ℕ) (vers : Bool)
  deriving DecidableEq

abbrev Slot.Data (B : ℕ) : Slot → Type
  | .head _ => HeadImage
  | .node _ _ => NodeImage
  | .block _ _ => Bytes B

def nodeSize : ℕ := 66
def headSize : ℕ := 68

def getOffsSize (B : ℕ) : Slot → ℕ × ℕ
  | .head vers => (headSize * vers.toNat, headSize)
  | .node idx vers =>
    let blockNodes := B / (nodeSize * 2)
    let pbn := 1 + (idx / blockNodes) * blockNodes * 2
    (pbn * B + 2 * nodeSize * (idx % blockNodes) + nodeSize * vers.toNat, nodeSize)
  | .block idx vers =>
    let blockNodes := B / (nodeSize * 2)
    let bidx := 2 * idx + vers.toNat
    let pbn := 2 + bidx + bidx / (blockNodes * 2 - 1)
    (pbn * B, B)

def Slot.stop (B : ℕ) (s : Slot) : ℕ := (getOffsSize B s).1 + (getOffsSize B s).2

abbrev HostFile (B : ℕ) := File Slot (Slot.Data B)
abbrev HostWrite (B : ℕ) := Write (Slot.Data B)

variable {B : ℕ}

def zeroFill : (s : Slot) → Slot.Data B s
  | .head _ => HeadImage.zero
  | .node _ _ => NodeImage.zero
  | .block _ _ => zeroBytes B

def HostFile.empty : HostFile B := Lib.SlotFile.empty zeroFill

def HostFile.read (f : HostFile B) (s : Slot) : Option (Slot.Data B s) :=
  Lib.SlotFile.read (Slot.stop B) f s

def HostFile.writeAll (f : HostFile B) (ws : List (HostWrite B)) : HostFile B :=
  Lib.SlotFile.writeAll (Slot.stop B) f ws

def HostFile.truncate (n : ℕ) (f : HostFile B) : HostFile B :=
  Lib.SlotFile.truncate (Slot.stop B) zeroFill n f

lemma HostFile.writeAll_append (f : HostFile B) (ws us : List (HostWrite B)) :
    f.writeAll (ws ++ us) = (f.writeAll ws).writeAll us :=
  Lib.SlotFile.writeAll_append (Slot.stop B) f ws us

variable {ws : List (HostWrite B)} {f : HostFile B} {s : Slot}

lemma HostFile.read_writeAll {x : Slot.Data B s} (hs : ∀ w ∈ ws, w.1 ≠ s) (h : f.read s = some x) :
    (f.writeAll ws).read s = some x :=
  Lib.SlotFile.read_writeAll (Slot.stop B) hs h

lemma HostFile.read_eq_some {x : Slot.Data B s} : f.read s = some x ↔ s.stop B ≤ f.len ∧ f.data s = x :=
  Lib.SlotFile.read_eq_some (Slot.stop B)

lemma HostFile.data_writeAll (hs : ∀ w ∈ ws, w.1 ≠ s) : (f.writeAll ws).data s = f.data s :=
  Lib.SlotFile.data_writeAll (Slot.stop B) hs

lemma HostFile.read_writeAll_or {x y : Slot.Data B s} (hs : ∀ w ∈ ws, w.1 = s → w = ⟨s, y⟩) (h : f.read s = some x) :
    (f.writeAll ws).read s = some x ∨ (f.writeAll ws).read s = some y :=
  Lib.SlotFile.read_writeAll_or (Slot.stop B) hs h

lemma HostFile.read_writeAll_last (f : HostFile B) (ws : List (HostWrite B)) (w : HostWrite B) :
    (f.writeAll (ws ++ [w])).read w.1 = some w.2 := by
  rw [HostFile.writeAll_append]
  exact Lib.SlotFile.read_write_self (Slot.stop B) _ w

end Optee.FsHtree
