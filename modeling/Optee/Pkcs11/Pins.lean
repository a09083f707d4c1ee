import Optee.Pkcs11.ObjectList

/-! The credentials of a token's two users, and the initialisation of the token. -/

namespace Optee.Pkcs11

open Lib.ByteStrings

abbrev Identity := Bytes 20

/-- `authTeeIdentity` is `CFG_PKCS11_TA_AUTH_TEE_IDENTITY`; `parseAcl` reads the identity from a PIN ACL string. -/
structure Config where
  authTeeIdentity : Bool
  digest : UserType → UInt32 → List UInt8 → Bytes 64
  parseAcl : List UInt8 → Option Identity

/-- What a command meets: the client's identity, the random number, and whether the two digests can be computed. -/
structure Env where
  identity : Option Identity
  random : UInt32
  verifyError : Option TeeError
  hashError : Option TeeError

def pinSizeMin : ℕ := 4

def pinSizeMax : ℕ := 128

def pinCountMax : UserType → UInt32
  | .so => 7
  | .user => 7

abbrev Pin := List UInt8

def PinSizeOk (pin : Pin) : Prop := pinSizeMin ≤ pin.length ∧ pin.length ≤ pinSizeMax

instance (pin : Pin) : Decidable (PinSizeOk pin) := inferInstanceAs (Decidable (_ ∧ _))

section Credentials

variable (cfg : Config) (env : Env)

def doHash (err : Option TeeError) (u : UserType) (pin : Pin) (salt : UInt32) : Except Rc (Bytes 64) :=
  match err with
  | some e => .error (tee2pkcsError e)
  | none => .ok (cfg.digest u salt pin)

def hashPin (u : UserType) (pin : Pin) (c : Credential) : Except Rc Credential :=
  let s := if env.random = 0 then 1 else env.random
  match doHash cfg env.hashError u pin s with
  | .error r => .error r
  | .ok hash => .ok { c with pinSalt := s, auth := hash }

def verifyPin (u : UserType) (pin : Pin) (c : Credential) : Except Rc Unit :=
  match doHash cfg env.verifyError u pin c.pinSalt with
  | .error r => .error r
  | .ok hash => if hash = c.auth then .ok () else .error .pinIncorrect

def Credential.identity (c : Credential) : List UInt8 := c.auth.toList.take 20

def Credential.setIdentity (c : Credential) (id : Identity) : Credential :=
  { c with auth := ⟨id.toList ++ c.auth.toList.drop 20, by simp⟩ }

def verifyIdentityAuth (u : UserType) (m : Main) : Except Rc Unit :=
  match env.identity with
  | none => .error .pinInvalid
  | some id => if id.toList = (m.cred u).identity then .ok () else .error .pinIncorrect

def setupSoIdentityAuthFromClient (m : Main) : Except Rc Main :=
  match env.identity with
  | none => .error .pinInvalid
  | some id => .ok ((m.setCred .so { m.so.setIdentity id with pinSalt := 0 }).raise [.protectedAuthenticationPath])

def tryFlags (u : UserType) : List Flag := [.pinCountLow u, .pinFinalTry u, .pinLocked u, .pinToBeChanged u]

def Main.wrongTry (m : Main) (u : UserType) : Main :=
  let count := (m.cred u).pinCount + 1
  let m := (m.raise [.pinCountLow u]).setCred u { m.cred u with pinCount := count }
  let m := if count = pinCountMax u - 1 then m.raise [.pinFinalTry u] else m
  if count = pinCountMax u then m.raise [.pinLocked u] else m

end Credentials

section Checks

variable (cfg : Config) (φ : Faults) (env : Env)

def setMain (m : Main) (events : List PinEvent) : DbM Unit :=
  modify fun w => { w with dbMain := m, history := events ++ w.history }

lemma setMain_bind {α : Type} {m : Main} {events : List PinEvent} {f : Unit → DbM α} {w : Db} :
    (setMain m events >>= f) w = f () { w with dbMain := m, history := events ++ w.history } := rfl

end Checks

/-! The initialisation of a token. -/

inductive Verdict
  | refused (r : Rc) (m : Main)
  | wrongPin (m : Main)
  | admitted (m : Main)
  deriving DecidableEq

section TokenInitialize

variable (cfg : Config) (φ : Faults) (env : Env)

def authenticateByPin (pin : Pin) (m : Main) : Verdict :=
  if m.so.pinSalt = 0 then
    if ¬PinSizeOk pin then .refused .argumentsBad m
    else
      match hashPin cfg env .so pin m.so with
      | .error r => .refused r m
      | .ok c => .admitted (m.setCred .so c)
  else
    match verifyPin cfg env .so pin m.so with
    | .ok () => .admitted m
    | .error .pinIncorrect => .wrongPin m
    | .error r => .refused r m

def authenticateBySetup (pin : Pin) (m : Main) : Verdict :=
  if pin = [] then
    match setupSoIdentityAuthFromClient env m with
    | .error r => .refused r m
    | .ok m' => .admitted m'
  else authenticateByPin cfg env pin (m.lower [.protectedAuthenticationPath])

def authenticate (sessionExists : Bool) (pin : Pin) (m : Main) : Verdict :=
  if m.has (.pinLocked .so) then .refused .pinLocked m
  else if sessionExists then .refused .sessionExists m
  else if ¬cfg.authTeeIdentity then authenticateByPin cfg env pin m
  else if m.has .protectedAuthenticationPath then
    match verifyIdentityAuth env .so m with
    | .error r => .refused r m
    | .ok () => authenticateBySetup cfg env pin m
  else authenticateBySetup cfg env pin m

def Main.initialized (m : Main) (label : Bytes 32) : Main :=
  let m := (m.lower (tryFlags .so)).setCred .so { m.so with pinCount := 0 }
  let m := ({ m with label := label }).raise [.tokenInitialized]
  (m.setCred .user { m.user with pinSalt := 0 }).lower (.userPinInitialized :: tryFlags .user)

def tokenInitialize (sessionExists : Bool) (label : Bytes 32) (pin : Pin) (uuids : List Uuid) : DbM Unit := do
  match authenticate cfg env sessionExists pin (← get).dbMain with
  | .refused r m => do
    setMain m []
    throw (.rc r)
  | .wrongPin m => do
    setMain (m.wrongTry .so) [.wrong .so]
    updatePersistentDb φ
    throw (.rc .pinIncorrect)
  | .admitted m => do
    setMain (m.initialized label) [.cleared .user, .cleared .so]
    updatePersistentDb φ
    uuids.forM (destroyPersistentObject φ)

end TokenInitialize

end Optee.Pkcs11
