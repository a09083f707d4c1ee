import Optee.Sce.Contexts

/-! The update and final commands of the SCE pseudo TAs. -/

namespace Optee.Sce

open Lib.ByteStrings

structure HandleRef (H : Type) where
  size : ℕ
  content : H

def sizeofShaHandle : ℕ := 176
def sizeofCmacHandle : ℕ := 100

def typesInoutInput : UInt32 := 0x57
def typesInoutInout : UInt32 := 0x77

def shaResult : FspErr → Option TeeError
  | .success => none
  | .cryptoSceResourceConflict => some .accessConflict
  | .cryptoSceParameter => some .badParameters
  | _ => some .badState

def cmacUpdateResult : FspErr → Option TeeError
  | .success => none
  | .cryptoSceParameter => some .badParameters
  | _ => some .badState

def cmacGenerateFinalResult : FspErr → Option TeeError
  | .success => none
  | .cryptoSceFail => some .generic
  | .cryptoSceParameter => some .badParameters
  | .cryptoSceProhibitFunction => some .badState
  | _ => some .macInvalid

def cmacVerifyFinalResult : FspErr → Option TeeError
  | .success => none
  | .cryptoSceFail => some .generic
  | .cryptoSceAuthentication => some .macInvalid
  | .cryptoSceParameter => some .badParameters
  | _ => some .badState

variable {σ : Type}

def shaUpdateCommand (update : ShaHandle → List UInt8 → UInt32 → Checked (FspErr × ShaHandle)) (types : UInt32)
    (handle : HandleRef ShaHandle) (message : List UInt8) : Checked (Option TeeError × ShaHandle) :=
  if types ≠ typesInoutInput then .ok (some .badParameters, handle.content)
  else if handle.size ≠ sizeofShaHandle then .ok (some .badParameters, handle.content)
  else do
    let (err, content) ← update handle.content message (.ofNat message.length)
    .ok (shaResult err, content)

def shaFinalCommand (final : ShaHandle → List UInt8 → Checked (Final ShaHandle)) (hashLength : UInt32) (types : UInt32)
    (handle : HandleRef ShaHandle) (digest : List UInt8) : Checked (Option TeeError × ShaHandle × List UInt8) :=
  if types ≠ typesInoutInout then .ok (some .badParameters, handle.content, digest)
  else if handle.size ≠ sizeofShaHandle then .ok (some .badParameters, handle.content, digest)
  else if digest = [] ∨ hashLength > .ofNat digest.length then .ok (some .badParameters, handle.content, digest)
  else do
    let (err, content, digest) ← final handle.content digest
    .ok (shaResult err, content, digest)

def cmacUpdateCommand (update : CmacHandle → List UInt8 → UInt32 → Checked (FspErr × CmacHandle × σ)) (types : UInt32)
    (eng : σ) (handle : HandleRef CmacHandle) (message : List UInt8) :
    Checked (Option TeeError × CmacHandle × σ) :=
  if types ≠ typesInoutInput then .ok (some .badParameters, handle.content, eng)
  else if handle.size ≠ sizeofCmacHandle then .ok (some .badParameters, handle.content, eng)
  else if message = [] then .ok (some .badParameters, handle.content, eng)
  else do
    let (err, content, eng) ← update handle.content message (.ofNat message.length)
    .ok (cmacUpdateResult err, content, eng)

def cmacGenerateFinalCommand (final : CmacHandle → List UInt8 → Checked (Final CmacHandle)) (types : UInt32)
    (handle : HandleRef CmacHandle) (mac : List UInt8) : Checked (Option TeeError × CmacHandle × List UInt8) :=
  if types ≠ typesInoutInout then .ok (some .badParameters, handle.content, mac)
  else if handle.size ≠ sizeofCmacHandle then .ok (some .badParameters, handle.content, mac)
  else if mac = [] ∨ aesBlockByteSize > .ofNat mac.length then .ok (some .badParameters, handle.content, mac)
  else do
    let (err, content, mac) ← final handle.content mac
    .ok (cmacGenerateFinalResult err, content, mac)

def cmacVerifyFinalCommand (final : CmacHandle → List UInt8 → UInt32 → Checked (FspErr × CmacHandle)) (types : UInt32)
    (handle : HandleRef CmacHandle) (mac : List UInt8) : Checked (Option TeeError × CmacHandle) :=
  if types ≠ typesInoutInput then .ok (some .badParameters, handle.content)
  else if handle.size ≠ sizeofCmacHandle then .ok (some .badParameters, handle.content)
  else if mac = [] ∨ 2 > UInt32.ofNat mac.length ∨ aesBlockByteSize < .ofNat mac.length then
    .ok (some .badParameters, handle.content)
  else do
    let (err, content) ← final handle.content mac (.ofNat mac.length)
    .ok (cmacVerifyFinalResult err, content)

inductive ShaAlg
  | sha224
  | sha256

inductive CmacKey
  | aes128
  | aes256

inductive CmacUse
  | generate
  | verify

inductive Call
  | shaUpdate (alg : ShaAlg) (handle : HandleRef ShaHandle) (message : List UInt8)
  | shaFinal (alg : ShaAlg) (handle : HandleRef ShaHandle) (digest : List UInt8)
  | cmacUpdate (key : CmacKey) (use : CmacUse) (handle : HandleRef CmacHandle) (message : List UInt8)
  | cmacGenerateFinal (key : CmacKey) (handle : HandleRef CmacHandle) (mac : List UInt8)
  | cmacVerifyFinal (key : CmacKey) (handle : HandleRef CmacHandle) (mac : List UInt8)

structure Reply (σ : Type) where
  err : Option TeeError
  handle : ShaHandle ⊕ CmacHandle
  out : List UInt8
  eng : σ

def Globals.sha (g : Globals) : ShaAlg → UInt32
  | .sha224 => g.sha224PrivateId
  | .sha256 => g.sha256PrivateId

def Globals.cmac (g : Globals) : CmacKey → CmacUse → UInt32
  | .aes128, .generate => g.aes128cmacgenPrivateId
  | .aes128, .verify => g.aes128cmacverPrivateId
  | .aes256, .generate => g.aes256cmacgenPrivateId
  | .aes256, .verify => g.aes256cmacverPrivateId

def invoke (hw : Engine σ) (g : Globals) (eng : σ) (types : UInt32) : Call → Checked (Reply σ)
  | .shaUpdate alg handle message => do
    let update := match alg with
      | .sha224 => sha224Update hw g
      | .sha256 => sha256Update hw g
    let (err, content) ← shaUpdateCommand update types handle message
    .ok ⟨err, .inl content, [], eng⟩
  | .shaFinal alg handle digest => do
    let (err, content, digest) ← match alg with
      | .sha224 => shaFinalCommand (sha224Final hw g) 28 types handle digest
      | .sha256 => shaFinalCommand (sha256Final hw g) 32 types handle digest
    .ok ⟨err, .inl content, digest, eng⟩
  | .cmacUpdate key use handle message => do
    let update := match key, use with
      | .aes128, .generate => aes128cmacGenerateUpdate hw g
      | .aes128, .verify => aes128cmacVerifyUpdate hw g
      | .aes256, .generate => aes256cmacGenerateUpdate hw g
      | .aes256, .verify => aes256cmacVerifyUpdate hw g
    let (err, content, eng) ← cmacUpdateCommand (update eng) types eng handle message
    .ok ⟨err, .inr content, [], eng⟩
  | .cmacGenerateFinal key handle mac => do
    let final := match key with
      | .aes128 => aes128cmacGenerateFinal hw g
      | .aes256 => aes256cmacGenerateFinal hw g
    let (err, content, mac) ← cmacGenerateFinalCommand (final eng) types handle mac
    .ok ⟨err, .inr content, mac, eng⟩
  | .cmacVerifyFinal key handle mac => do
    let final := match key with
      | .aes128 => aes128cmacVerifyFinal hw g
      | .aes256 => aes256cmacVerifyFinal hw g
    let (err, content) ← cmacVerifyFinalCommand (final eng) types handle mac
    .ok ⟨err, .inr content, mac, eng⟩

section Safe

variable {α β : Type} {n : ℕ}

def Safe (x : Checked α) : Prop := ∃ a, x = .ok a

@[simp] lemma safe_ok (a : α) : Safe (.ok a : Checked α) := ⟨a, rfl⟩

@[simp] lemma not_safe_error (e : Fault) : ¬ Safe (.error e : Checked α) := nofun

variable {x : Checked α} {f : α → Checked β} {buf : Bytes n} {len : ℕ} {src : List UInt8}

lemma safe_bind : Safe (x >>= f) ↔ ∃ a, x = .ok a ∧ Safe (f a) := by
  cases x with
  | error e => exact ⟨nofun, nofun⟩
  | ok a => exact ⟨fun h => ⟨a, rfl, h⟩, fun ⟨_, ha, h⟩ => by cases ha; exact h⟩

lemma safe_bind_and {p : Prop} (h : ∀ a, x = .ok a → (Safe (f a) ↔ p)) : Safe (x >>= f) ↔ Safe x ∧ p := by
  rw [safe_bind]
  exact ⟨fun ⟨a, ha, hf⟩ => ⟨⟨a, ha⟩, (h a ha).mp hf⟩, fun ⟨⟨a, ha⟩, hp⟩ => ⟨a, ha, (h a ha).mpr hp⟩⟩

lemma safe_bind_iff (h : ∀ a, x = .ok a → Safe (f a)) : Safe (x >>= f) ↔ Safe x := by
  rw [safe_bind_and fun a ha => iff_true_intro (h a ha), and_true]

lemma safe_ite {p : Prop} [Decidable p] {y : Checked α} : Safe (if p then x else y) ↔ p ∧ Safe x ∨ ¬ p ∧ Safe y := by
  by_cases hp : p <;> simp [hp]

lemma safe_reject {p : Prop} [Decidable p] {a : α} : Safe (if p then .ok a else x) ↔ (¬ p → Safe x) := by
  by_cases hp : p <;> simp [hp]

@[simp] lemma safe_memcpy {off : ℕ} {start : ℕ} :
    Safe (memcpy buf off src start len) ↔ off + len ≤ n ∧ start + len ≤ src.length := by
  simp [memcpy, safe_ite]

@[simp] lemma safe_memset {off : ℕ} : Safe (memset buf off len) ↔ off + len ≤ n := by
  simp [memset, safe_ite]

@[simp] lemma safe_setByte {i : ℕ} {b : UInt8} : Safe (setByte buf i b) ↔ i < n := by
  rw [setByte]
  split <;> simp [*]

@[simp] lemma safe_readWords {start : ℕ} : Safe (readWords src start len) ↔ start + len ≤ src.length := by
  simp [readWords, safe_ite]

@[simp] lemma safe_writeOut {out data : List UInt8} : Safe (writeOut out data) ↔ data.length ≤ out.length := by
  simp [writeOut, safe_ite]

end Safe

end Optee.Sce
