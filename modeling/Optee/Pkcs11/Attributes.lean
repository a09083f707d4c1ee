import Optee.Pkcs11.TokenMain

/-! The attributes of objects: those of a new object, made from a template, and the checks on them. -/

namespace Optee.Pkcs11.Keys

open Lib.ByteStrings

inductive SessionState
  | roPublic
  | roUser
  | rwPublic
  | rwUser
  | rwSo
  deriving DecidableEq

namespace SessionState

def isReadWrite (s : SessionState) : Bool := s = .rwPublic || s = .rwUser || s = .rwSo

def isPublic (s : SessionState) : Bool := s = .roPublic || s = .rwPublic

def isUser (s : SessionState) : Bool := s = .roUser || s = .rwUser

def isSo (s : SessionState) : Bool := s = .rwSo

end SessionState

namespace Cka

def classId : UInt32 := 0x0
def token : UInt32 := 0x1
def private_ : UInt32 := 0x2
def label : UInt32 := 0x3
def application : UInt32 := 0x10
def value : UInt32 := 0x11
def objectId : UInt32 := 0x12
def trusted : UInt32 := 0x86
def keyType : UInt32 := 0x100
def subject : UInt32 := 0x101
def id : UInt32 := 0x102
def sensitive : UInt32 := 0x103
def encrypt : UInt32 := 0x104
def decrypt : UInt32 := 0x105
def wrap : UInt32 := 0x106
def unwrap : UInt32 := 0x107
def sign : UInt32 := 0x108
def signRecover : UInt32 := 0x109
def verify : UInt32 := 0x10a
def verifyRecover : UInt32 := 0x10b
def derive : UInt32 := 0x10c
def startDate : UInt32 := 0x110
def endDate : UInt32 := 0x111
def modulus : UInt32 := 0x120
def modulusBits : UInt32 := 0x121
def publicExponent : UInt32 := 0x122
def privateExponent : UInt32 := 0x123
def prime1 : UInt32 := 0x124
def prime2 : UInt32 := 0x125
def exponent1 : UInt32 := 0x126
def exponent2 : UInt32 := 0x127
def coefficient : UInt32 := 0x128
def publicKeyInfo : UInt32 := 0x129
def valueLen : UInt32 := 0x161
def extractable : UInt32 := 0x162
def local_ : UInt32 := 0x163
def neverExtractable : UInt32 := 0x164
def alwaysSensitive : UInt32 := 0x165
def keyGenMechanism : UInt32 := 0x166
def modifiable : UInt32 := 0x170
def copyable : UInt32 := 0x171
def destroyable : UInt32 := 0x172
def ecParams : UInt32 := 0x180
def ecPoint : UInt32 := 0x181
def alwaysAuthenticate : UInt32 := 0x202
def wrapWithTrusted : UInt32 := 0x210
def wrapTemplate : UInt32 := 0x40000211
def unwrapTemplate : UInt32 := 0x40000212
def deriveTemplate : UInt32 := 0x40000213
def mechanismType : UInt32 := 0x500
def allowedMechanisms : UInt32 := 0x40000600

end Cka

def ckId (n : ℕ) : List UInt8 := leBytes 4 n

def undefinedId : List UInt8 := ckId 0xffffffff

namespace Cko

def data : List UInt8 := ckId 0
def publicKey : List UInt8 := ckId 2
def privateKey : List UInt8 := ckId 3
def secretKey : List UInt8 := ckId 4

end Cko

namespace Ckk

def rsa : List UInt8 := ckId 0
def ec : List UInt8 := ckId 3
def genericSecret : List UInt8 := ckId 0x10
def aes : List UInt8 := ckId 0x1f

end Ckk

inductive Hash
  | md5
  | sha1
  | sha224
  | sha256
  | sha384
  | sha512
  deriving DecidableEq

def Hash.hmacKey : Hash → List UInt8
  | .md5 => ckId 0x27
  | .sha1 => ckId 0x28
  | .sha224 => ckId 0x2e
  | .sha256 => ckId 0x2b
  | .sha384 => ckId 0x2c
  | .sha512 => ckId 0x2d

inductive Mechanism
  | aesEcb
  | aesCbc
  | aesCbcPad
  | aesCtr
  | aesCts
  | aesEcbEncryptData
  | aesCbcEncryptData
  | aesKeyGen
  | genericSecretKeyGen
  | ecKeyPairGen
  | digest (h : Hash)
  | hmac (h : Hash)
  | ecdsa (h : Option Hash)
  deriving DecidableEq

inductive Function
  | encrypt
  | derive
  | unwrap
  | generate
  | generatePair
  | importObject
  | modify
  | copy
  deriving DecidableEq

abbrev Attrs := List (UInt32 × List UInt8)

def getBool (h : Attrs) (id : UInt32) : Bool := ((h.lookup id).getD []).headD 0 ≠ 0

def getClass (h : Attrs) : List UInt8 := (h.lookup Cka.classId).getD undefinedId

def getKeyType (h : Attrs) : List UInt8 := (h.lookup Cka.keyType).getD undefinedId

def setAttribute (h : Attrs) (id : UInt32) (v : List UInt8) : Attrs := h.eraseP (·.1 = id) ++ [(id, v)]

def modifyAttributesList (dst head : Attrs) : Attrs := head.foldl (fun h a => setAttribute h a.1 a.2) dst

def removeEmptyAttribute (h : Attrs) (id : UInt32) : Except Rc Attrs :=
  match h.lookup id with
  | none => .error .notFound
  | some v => if v = [] then .ok (h.eraseP (·.1 = id)) else .error .functionFailed

def replaceEmptyValue (h : Attrs) (v : List UInt8) : Except Rc Attrs :=
  match removeEmptyAttribute h Cka.value with
  | .ok h => .ok (h ++ [(Cka.value, v)])
  | .error .notFound => .ok (h ++ [(Cka.value, v)])
  | .error _ => .error .generalError

def attributesMatchAddReference (head ref : Attrs) : Except Rc Attrs :=
  ref.foldlM (fun head a => match head.lookup a.1 with
    | none => .ok (head ++ [a])
    | some v => if v = [] ∨ v ≠ a.2 then .error .templateInconsistent else .ok head) head

def boolprops : List UInt32 :=
  [Cka.token, Cka.private_, Cka.trusted, Cka.sensitive, Cka.encrypt, Cka.decrypt, Cka.wrap, Cka.unwrap, Cka.sign,
    Cka.signRecover, Cka.verify, Cka.verifyRecover, Cka.derive, Cka.extractable, Cka.local_, Cka.neverExtractable,
    Cka.alwaysSensitive, Cka.modifiable, Cka.copyable, Cka.destroyable, Cka.alwaysAuthenticate, Cka.wrapWithTrusted]

def attrIsType (id : UInt32) : Bool := id ∈ [Cka.keyType, Cka.mechanismType, Cka.keyGenMechanism]

def attrHasIndirectAttributes (id : UInt32) : Bool := id ∈ [Cka.wrapTemplate, Cka.unwrapTemplate, Cka.deriveTemplate]

def validAttributeId (id : UInt32) (size : ℕ) : Bool :=
  if id ∈ [Cka.valueLen, Cka.startDate, Cka.endDate, Cka.modulusBits] then size = 4
  else id ∈ [Cka.value, Cka.label, Cka.objectId, Cka.application, Cka.id, Cka.allowedMechanisms, Cka.ecPoint,
    Cka.ecParams, Cka.modulus, Cka.publicExponent, Cka.privateExponent, Cka.prime1, Cka.prime2, Cka.exponent1,
    Cka.exponent2, Cka.coefficient, Cka.subject, Cka.publicKeyInfo, 0xffffffff]

def findId (is : UInt32 → Bool) (src : Attrs) : Except Rc (List UInt8) :=
  src.foldlM (fun found a =>
    if is a.1 then
      if a.2.length ≠ 4 ∨ (found ≠ undefinedId ∧ found ≠ a.2) then .error .templateInconsistent else .ok a.2
    else .ok found) undefinedId

def idOrHint (id : UInt32) (found hint : List UInt8) : Attrs :=
  if found ≠ undefinedId then [(id, found)] else if hint ≠ undefinedId then [(id, hint)] else []

def sanitizeClassAndType (src : Attrs) (classHint typeHint : List UInt8) : Except Rc Attrs := do
  let found ← findId (· = Cka.classId) src
  let type ← findId attrIsType src
  .ok (idOrHint Cka.classId found classHint ++ idOrHint Cka.keyType type typeHint)

def boolByte (b : Bool) : List UInt8 := if b then [1] else [0]

def sanitizeBoolprops (dst src : Attrs) : Except Rc Attrs :=
  src.foldlM (fun (dst : Attrs) (a : UInt32 × List UInt8) =>
    if a.1 ∉ boolprops then .ok dst
    else if a.2.length ≠ 1 then .error .functionFailed
    else match dst.lookup a.1 with
      | none => .ok (dst ++ [(a.1, boolByte (a.2.headD 0 != 0))])
      | some v => if v ≠ boolByte (a.2.headD 0 != 0) then .error .templateInconsistent else .ok dst) dst

def Clean (h : Attrs) : Prop := ∀ a ∈ h, a.1 ∈ boolprops → a.2 = [0] ∨ a.2 = [1]

/-- What `sanitize_indirect_attr` makes of the bytes of a client, and the attributes that are in them. -/
structure Format where
  indirect : List UInt8 → Except Rc (List UInt8)
  attrsOf : List UInt8 → Attrs
  clean : ∀ b, Clean (attrsOf b)

def sanitizeRest (fmt : Format) (dst src : Attrs) : Except Rc Attrs :=
  src.foldlM (fun dst a =>
    if a.1 = Cka.classId ∨ attrIsType a.1 ∨ a.1 ∈ boolprops then .ok dst
    else if attrHasIndirectAttributes a.1 then (fmt.indirect a.2).map (fun v => dst ++ [(a.1, v)])
    else if validAttributeId a.1 a.2.length then .ok (dst ++ [a])
    else .error .templateInconsistent) dst

def sanitizeClientObject (fmt : Format) (src : Attrs) (classHint typeHint : List UInt8) : Except Rc Attrs := do
  let dst ← sanitizeClassAndType src classHint typeHint
  let dst ← sanitizeBoolprops dst src
  sanitizeRest fmt dst src

def defaultBoolprop (id : UInt32) : Option (List UInt8) :=
  if id ∈ [Cka.modifiable, Cka.copyable, Cka.destroyable] then some [1]
  else if id ∈ [Cka.token, Cka.private_, Cka.wrapWithTrusted, Cka.alwaysAuthenticate, Cka.sensitive, Cka.sign, Cka.verify,
    Cka.derive, Cka.encrypt, Cka.decrypt, Cka.signRecover, Cka.verifyRecover, Cka.wrap, Cka.unwrap, Cka.extractable,
    Cka.trusted] then some [0]
  else none

def importBoolprop (temp : Attrs) (id : UInt32) : Except Rc (UInt32 × List UInt8) :=
  match temp.lookup id with
  | some v => if v.length ≤ 1 then .ok (id, [v.headD 0]) else .error .bufferTooSmall
  | none => match defaultBoolprop id with
    | some v => .ok (id, v)
    | none => .error .templateIncomplete

def mandatory (temp : Attrs) (id : UInt32) : Except Rc (UInt32 × List UInt8) :=
  match temp.lookup id with
  | some v => .ok (id, v)
  | none => .error .templateIncomplete

def optOrNull (temp : Attrs) (ids : List UInt32) : Attrs := ids.map (fun id => (id, (temp.lookup id).getD []))

def optional (temp : Attrs) (ids : List UInt32) : Attrs := ids.filterMap (fun id => (temp.lookup id).map (id, ·))

structure Parts where
  boolprops : List UInt32
  mandated : List UInt32
  orNull : List UInt32
  optional : List UInt32

def Parts.attrs (p : Parts) (temp : Attrs) : Except Rc Attrs := do
  let bools ← p.boolprops.mapM (importBoolprop temp)
  let mandated ← p.mandated.mapM (mandatory temp)
  .ok (bools ++ (mandated ++ optOrNull temp p.orNull ++ Keys.optional temp p.optional))

def anyObject : Parts := ⟨[Cka.token, Cka.private_, Cka.modifiable, Cka.copyable, Cka.destroyable], [], [Cka.label], []⟩

def rawData : Parts := ⟨[], [], [Cka.objectId, Cka.application, Cka.value], []⟩

def anyKey : Parts := ⟨[Cka.derive], [], [Cka.id, Cka.startDate, Cka.endDate], [Cka.allowedMechanisms]⟩

def symmKey : Parts :=
  ⟨[Cka.encrypt, Cka.decrypt, Cka.sign, Cka.verify, Cka.wrap, Cka.unwrap, Cka.sensitive, Cka.extractable,
    Cka.wrapWithTrusted, Cka.trusted], [], [Cka.wrapTemplate, Cka.unwrapTemplate, Cka.deriveTemplate, Cka.value],
    [Cka.valueLen]⟩

def publicKey : Parts :=
  ⟨[Cka.encrypt, Cka.verify, Cka.verifyRecover, Cka.wrap, Cka.trusted], [],
    [Cka.subject, Cka.wrapTemplate, Cka.publicKeyInfo], []⟩

def privateKey : Parts :=
  ⟨[Cka.decrypt, Cka.sign, Cka.signRecover, Cka.unwrap, Cka.sensitive, Cka.extractable, Cka.wrapWithTrusted,
    Cka.alwaysAuthenticate], [], [Cka.subject, Cka.unwrapTemplate, Cka.publicKeyInfo], []⟩

def rsaPublicKey : Parts := ⟨[], [Cka.modulusBits], [Cka.modulus, Cka.publicExponent], []⟩

def rsaPrivateKey : Parts :=
  ⟨[], [], [Cka.modulus, Cka.publicExponent, Cka.privateExponent, Cka.prime1, Cka.prime2, Cka.exponent1, Cka.exponent2,
    Cka.coefficient], []⟩

def ecPublicKey : Parts := ⟨[], [Cka.ecParams], [Cka.ecPoint], []⟩

def ecPrivateKey : Parts := ⟨[], [], [Cka.ecParams, Cka.value], []⟩

def keyTypeIsSymmKey (t : List UInt8) : Bool :=
  t ∈ [Ckk.aes, Ckk.genericSecret] ++ [Hash.md5, .sha1, .sha224, .sha256, .sha384, .sha512].map Hash.hmacKey

def partsOf (cls type : List UInt8) : Option (List Parts) :=
  if cls = Cko.data then some [anyObject, rawData]
  else if cls = Cko.secretKey then if keyTypeIsSymmKey type then some [anyObject, anyKey, symmKey] else none
  else if cls = Cko.publicKey then
    if type = Ckk.rsa then some [anyObject, anyKey, publicKey, rsaPublicKey]
    else if type = Ckk.ec then some [anyObject, anyKey, publicKey, ecPublicKey] else none
  else if cls = Cko.privateKey then
    if type = Ckk.rsa then some [anyObject, anyKey, privateKey, rsaPrivateKey]
    else if type = Ckk.ec then some [anyObject, anyKey, privateKey, ecPrivateKey] else none
  else none

def createClassAttributes (temp : Attrs) : Except Rc Attrs :=
  match partsOf (getClass temp) (getKeyType temp) with
  | none => .error .templateInconsistent
  | some parts => do
    let lists ← parts.mapM (·.attrs temp)
    let type := if getClass temp = Cko.data then [] else [(Cka.keyType, getKeyType temp)]
    .ok ((Cka.classId, getClass temp) :: (lists.headD [] ++ type ++ lists.tail.flatten))

def sanitizeSymmKeyAttributes (temp : Attrs) (f : Function) : Except Rc Attrs :=
  if getClass temp ≠ Cko.secretKey then .ok temp
  else match f, temp.lookup Cka.value with
    | .importObject, some v =>
      if v = [] ∨ (temp.lookup Cka.valueLen).isSome then .error .templateInconsistent
      else .ok (temp ++ [(Cka.valueLen, ckId v.length)])
    | .importObject, none => .error .templateInconsistent
    | .generate, some _ => .error .templateInconsistent
    | _, _ => .ok temp

def addParentTemplate (fmt : Format) (f : Function) (parent temp : Attrs) : Except Rc Attrs :=
  let ref id := attributesMatchAddReference temp (fmt.attrsOf ((parent.lookup id).getD []))
  match f with
  | .unwrap => if (parent.lookup Cka.unwrapTemplate).getD [] = [] then .ok temp else ref Cka.unwrapTemplate
  | .derive => if (parent.lookup Cka.deriveTemplate).getD [] = [] then .ok temp else ref Cka.deriveTemplate
  | _ => .ok temp

def isLocal (f : Function) : Bool := f = .generate || f = .generatePair

def protection (f : Function) (parent attrs : Attrs) : Bool × Bool :=
  match f with
  | .derive => (getBool parent Cka.alwaysSensitive && getBool attrs Cka.sensitive,
      getBool parent Cka.neverExtractable && !getBool attrs Cka.extractable)
  | .generate | .generatePair => (getBool attrs Cka.sensitive, !getBool attrs Cka.extractable)
  | _ => (false, false)

def finishAttributes (f : Function) (parent temp attrs : Attrs) (mechanismId : ℕ) : Attrs :=
  let attrs := attrs ++ [(Cka.local_, boolByte (isLocal f))]
  if getClass attrs = Cko.data then attrs
  else
    let p := protection f parent attrs
    let attrs := if f = .unwrap ∧ temp.lookup Cka.extractable = none then setAttribute attrs Cka.extractable [1] else attrs
    attrs ++ [(Cka.alwaysSensitive, boolByte p.1)] ++ [(Cka.neverExtractable, boolByte p.2)] ++
      [(Cka.keyGenMechanism, if isLocal f then ckId mechanismId else undefinedId)]

structure Hint where
  cls : List UInt8
  type : List UInt8
  mechanismId : ℕ

def generateHint : Mechanism → Option Hint
  | .genericSecretKeyGen => some ⟨Cko.secretKey, Ckk.genericSecret, 0x350⟩
  | .aesKeyGen => some ⟨Cko.secretKey, Ckk.aes, 0x1080⟩
  | _ => none

def pairHint (templateClass : List UInt8) : Hint := ⟨templateClass, Ckk.ec, 0x1040⟩

def Hint.fits (h : Hint) (temp : Attrs) : Bool :=
  getKeyType temp = h.type &&
    if h.type = Ckk.ec then getClass temp = Cko.publicKey || getClass temp = Cko.privateKey else getClass temp = h.cls

def createAttributesFromTemplate (fmt : Format) (template parent : Attrs) (f : Function) (hint : Option Hint) :
    Except Rc Attrs := do
  let temp ← sanitizeClientObject fmt template ((hint.map Hint.cls).getD undefinedId) ((hint.map Hint.type).getD undefinedId)
  let temp ← addParentTemplate fmt f parent temp
  if hint.any (fun h => !h.fits temp) then .error .templateInconsistent
  else do
    let temp ← sanitizeSymmKeyAttributes temp f
    let attrs ← createClassAttributes temp
    if (temp.lookup Cka.local_).isSome ∨ (temp.lookup Cka.keyGenMechanism).isSome then .error .templateInconsistent
    else .ok (finishAttributes f parent temp attrs ((hint.map Hint.mechanismId).getD 0))

def checkAttrsMiscIntegrity (h : Attrs) : Except Rc Unit :=
  if getBool h Cka.neverExtractable && getBool h Cka.extractable then .error .templateInconsistent
  else if getBool h Cka.alwaysSensitive && !getBool h Cka.sensitive then .error .templateInconsistent
  else .ok ()

def checkAccessAttrsAgainstToken (s : SessionState) (h : Attrs) : Except Rc Unit :=
  if getClass h ∉ [Cko.secretKey, Cko.privateKey, Cko.publicKey, Cko.data] then .error .keyFunctionNotPermitted
  else if getBool h Cka.private_ && (s.isPublic || s.isSo) then .error .userNotLoggedIn
  else .ok ()

def checkCreatedAttrsAgainstToken (s : SessionState) (h : Attrs) : Except Rc Unit := do
  checkAttrsMiscIntegrity h
  if getBool h Cka.trusted && !s.isSo then .error .keyFunctionNotPermitted
  else if getBool h Cka.token && !s.isReadWrite then .error .sessionReadOnly
  else .ok ()

def Function.attr : Function → UInt32
  | .encrypt => Cka.encrypt
  | .derive => Cka.derive
  | .unwrap => Cka.unwrap
  | _ => 0xffffffff

def checkKeyFamily (m : Mechanism) (f : Function) (h : Attrs) : Except Rc Unit :=
  match m with
  | .aesEcb | .aesCbc | .aesCbcPad | .aesCts | .aesCtr =>
    if getClass h = Cko.secretKey ∧ getKeyType h = Ckk.aes then .ok ()
    else .error (if f = .unwrap then .unwrappingKeyTypeInconsistent else .keyFunctionNotPermitted)
  | .aesEcbEncryptData | .aesCbcEncryptData =>
    if getClass h ≠ Cko.secretKey ∧ getKeyType h ≠ Ckk.aes then .error .keyFunctionNotPermitted
    else if getBool h Cka.encrypt then .error .functionFailed
    else .ok ()
  | .hmac x =>
    if getClass h = Cko.secretKey ∧ (getKeyType h = Ckk.genericSecret ∨ getKeyType h = x.hmacKey) then .ok ()
    else .error .keyFunctionNotPermitted
  | .ecdsa _ =>
    if getKeyType h ≠ Ckk.ec then .error .keyTypeInconsistent
    else if getClass h = Cko.publicKey ∨ getClass h = Cko.privateKey then .ok ()
    else .error .keyFunctionNotPermitted
  | _ => .error .mechanismInvalid

def checkParentAttrsAgainstProcessing (m : Mechanism) (f : Function) (h : Attrs) (allowed : Bool) : Except Rc Unit :=
  if !getBool h f.attr then .error .keyFunctionNotPermitted
  else do
    checkKeyFamily m f h
    if allowed then .ok () else .error .keyFunctionNotPermitted

def valueAttributes : List UInt32 :=
  [Cka.privateExponent, Cka.prime1, Cka.prime2, Cka.exponent1, Cka.exponent2, Cka.coefficient, Cka.value]

def attributeIsExportable (id : UInt32) (h : Attrs) : Bool :=
  if getClass h ≠ Cko.secretKey ∧ getClass h ≠ Cko.privateKey then true
  else if id ∈ valueAttributes then
    (h.lookup Cka.extractable).any (fun v => v.length ≤ 1 && v.headD 0 != 0) &&
      (h.lookup Cka.sensitive).any (fun v => v.length ≤ 1 && v.headD 0 != 1)
  else true

def attrIsModifiableAnyKey (id : UInt32) : Bool := id ∈ [Cka.id, Cka.startDate, Cka.endDate, Cka.derive]

def oneWay (id : UInt32) (h : Attrs) : Bool :=
  if id = Cka.extractable then getBool h id else id ∈ [Cka.sensitive, Cka.wrapWithTrusted] && !getBool h id

def attrIsModifiableSecretKey (s : SessionState) (id : UInt32) (h : Attrs) : Bool :=
  id ∈ [Cka.encrypt, Cka.decrypt, Cka.sign, Cka.verify, Cka.wrap, Cka.unwrap] || oneWay id h || id = Cka.trusted && s.isSo

def attrIsModifiablePublicKey (s : SessionState) (id : UInt32) : Bool :=
  id ∈ [Cka.subject, Cka.encrypt, Cka.verify, Cka.verifyRecover, Cka.wrap] || id = Cka.trusted && s.isSo

def attrIsModifiablePrivateKey (id : UInt32) (h : Attrs) : Bool :=
  id ∈ [Cka.subject, Cka.decrypt, Cka.sign, Cka.signRecover, Cka.unwrap, Cka.publicKeyInfo] || oneWay id h

def attributeIsModifiable (s : SessionState) (id : UInt32) (h : Attrs) (f : Function) : Bool :=
  if id = Cka.label then true
  else if id ∈ [Cka.token, Cka.modifiable, Cka.destroyable, Cka.private_] then f = .copy
  else if id = Cka.copyable then getBool h id
  else if getClass h = Cko.secretKey then attrIsModifiableAnyKey id || attrIsModifiableSecretKey s id h
  else if getClass h = Cko.publicKey then attrIsModifiableAnyKey id || attrIsModifiablePublicKey s id
  else if getClass h = Cko.privateKey then attrIsModifiableAnyKey id || attrIsModifiablePrivateKey id h
  else false

def checkModification (s : SessionState) (head h : Attrs) (f : Function) (id : UInt32) : Except Rc Unit :=
  if h.lookup id = none then .error .attributeTypeInvalid
  else if !attributeIsModifiable s id h f then .error .attributeReadOnly
  else if f = .modify then .ok ()
  else if id = Cka.token ∧ getBool head id ∧ !s.isReadWrite then .error .sessionReadOnly
  else if id = Cka.private_ ∧ !getBool h id ∧ getBool head id ∧ (s.isPublic || s.isSo) then .error .userNotLoggedIn
  else if id = Cka.private_ ∧ getBool h id ∧ !getBool head id then .error .templateInconsistent
  else .ok ()

def checkAttrsAgainstModification (s : SessionState) (head h : Attrs) (f : Function) : Except Rc Unit :=
  head.forM (fun a => checkModification s head h f a.1)

end Optee.Pkcs11.Keys
