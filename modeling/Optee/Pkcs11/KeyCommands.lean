import Optee.Lib.Runs
import Optee.Pkcs11.Attributes

/-! The commands that make objects, change their attributes or use them as keys. -/

namespace Optee.Pkcs11.Keys

/-- How those steps of a command end that depend on more than the attributes, and what comes with them. -/
structure Env where
  ends : Except Rc Unit
  value : List UInt8
  point : List UInt8
  allowed : Bool

inductive Command
  | create (template : Attrs) (env : Env)
  | generate (m : Mechanism) (template : Attrs) (env : Env)
  | generatePair (m : Mechanism) (pub priv : Attrs) (env : Env)
  | derive (m : Mechanism) (parent : ℕ) (template : Attrs) (env : Env)
  | unwrap (m : Mechanism) (parent : ℕ) (template : Attrs) (env : Env)
  | copy (i : ℕ) (template : Attrs) (env : Env)
  | setAttributes (i : ℕ) (template : Attrs)
  | encryptInit (m : Mechanism) (i : ℕ) (env : Env)

variable (fmt : Format) (s : SessionState)

def entryCreateObject (template : Attrs) (env : Env) : Except Rc Attrs := do
  let head ← createAttributesFromTemplate fmt template [] .importObject none
  checkCreatedAttrsAgainstToken s head
  checkAccessAttrsAgainstToken s head
  env.ends
  .ok head

def entryGenerateSecret (m : Mechanism) (template : Attrs) (env : Env) : Except Rc Attrs :=
  match generateHint m with
  | none => .error .mechanismInvalid
  | some hint => do
    let head ← createAttributesFromTemplate fmt template [] .generate (some hint)
    env.ends
    checkCreatedAttrsAgainstToken s head
    replaceEmptyValue head env.value

/-- `add_missing_attribute_id` -/
def shareId (pub priv : Attrs) : Attrs × Attrs :=
  match (pub.lookup Cka.id).getD [], (priv.lookup Cka.id).getD [] with
  | _ :: _, _ :: _ => (pub, priv)
  | [], [] => (pub, priv)
  | v, [] => (pub, setAttribute priv Cka.id v)
  | [], v => (setAttribute pub Cka.id v, priv)

def generateEcKeys (pub priv : Attrs) (env : Env) : Except Rc (Attrs × Attrs) := do
  let pub ← removeEmptyAttribute pub Cka.ecPoint
  let priv ← removeEmptyAttribute priv Cka.value
  let priv ← removeEmptyAttribute priv Cka.ecParams
  .ok (pub ++ [(Cka.ecPoint, env.point)],
    priv ++ [(Cka.ecParams, (pub.lookup Cka.ecParams).getD [])] ++ [(Cka.value, env.value)] ++ [(Cka.ecPoint, env.point)])

def entryGenerateKeyPair (m : Mechanism) (pub priv : Attrs) (env : Env) : Except Rc (Attrs × Attrs) :=
  if m ≠ .ecKeyPairGen then .error .mechanismInvalid
  else do
    let pub ← createAttributesFromTemplate fmt pub [] .generatePair (some (pairHint Cko.publicKey))
    let priv ← createAttributesFromTemplate fmt priv [] .generatePair (some (pairHint Cko.privateKey))
    let heads := shareId pub priv
    env.ends
    checkCreatedAttrsAgainstToken s heads.1
    checkAccessAttrsAgainstToken s heads.1
    checkCreatedAttrsAgainstToken s heads.2
    checkAccessAttrsAgainstToken s heads.2
    generateEcKeys heads.1 heads.2 env

def setKeyData (head : Attrs) (data : List UInt8) : Except Rc Attrs :=
  if getClass head ≠ Cko.secretKey then .error .generalError
  else
    let len := Lib.ByteStrings.leNat ((head.lookup Cka.valueLen).getD [])
    if len = 0 then replaceEmptyValue (setAttribute head Cka.valueLen (ckId data.length)) data
    else if data.length < len then .error .dataLenRange
    else replaceEmptyValue head (data.take len)

def entryProcessingKey (f : Function) (mechanisms : List Mechanism) (m : Mechanism) (parent template : Attrs) (env : Env) :
    Except Rc Attrs :=
  if m ∉ mechanisms then .error .mechanismInvalid
  else do
    checkParentAttrsAgainstProcessing m f parent env.allowed
    checkAccessAttrsAgainstToken s parent
    let head ← createAttributesFromTemplate fmt template parent f none
    checkCreatedAttrsAgainstToken s head
    checkAccessAttrsAgainstToken s head
    env.ends
    setKeyData head env.value

def entryDeriveKey (m : Mechanism) : Attrs → Attrs → Env → Except Rc Attrs :=
  entryProcessingKey fmt s .derive [.aesEcbEncryptData, .aesCbcEncryptData] m

def entryUnwrapKey (m : Mechanism) : Attrs → Attrs → Env → Except Rc Attrs :=
  entryProcessingKey fmt s .unwrap [.aesEcb, .aesCbc] m

def checkChange (flag : UInt32) (f : Function) (h template : Attrs) : Except Rc Attrs :=
  if getBool h Cka.token && !s.isReadWrite then .error .sessionReadOnly
  else if checkAccessAttrsAgainstToken s h ≠ .ok () then .error .userNotLoggedIn
  else if !getBool h flag then .error .actionProhibited
  else do
    let head ← sanitizeClientObject fmt template undefinedId undefinedId
    checkAttrsAgainstModification s head h f
    .ok head

def entrySetAttributeValue (h template : Attrs) : Except Rc Attrs := do
  let head ← checkChange fmt s Cka.modifiable .modify h template
  .ok (modifyAttributesList h head)

def copyTemplate (h head : Attrs) : Attrs :=
  if (getClass h = Cko.secretKey ∨ getClass h = Cko.privateKey) ∧ head.lookup Cka.extractable = some [0] then
    head ++ [(Cka.neverExtractable, [0])]
  else head

def entryCopyObject (h template : Attrs) (env : Env) : Except Rc Attrs := do
  let head ← checkChange fmt s Cka.copyable .copy h template
  env.ends
  .ok (modifyAttributesList h (copyTemplate h head))

def entryEncryptInit (m : Mechanism) (h : Attrs) (env : Env) : Except Rc Unit :=
  if m ∉ [.aesEcb, .aesCbc, .aesCbcPad, .aesCtr, .aesCts] then .error .mechanismInvalid
  else do
    checkParentAttrsAgainstProcessing m .encrypt h env.allowed
    checkAccessAttrsAgainstToken s h
    env.ends

/-- An object with the number of its key value, and what its attributes and those of its origins have been. -/
structure Obj where
  attrs : Attrs
  key : ℕ
  past : List Attrs

/-- `derived` and `encrypted` are the keys that were accepted for a derivation and for an encryption. -/
structure World where
  objs : List Obj
  keys : ℕ
  derived : List ℕ
  encrypted : List ℕ

namespace World

variable (w : World)

def attrs (i : ℕ) : Except Rc Attrs := (w.objs[i]?).elim (.error .objectHandleInvalid) (.ok ·.attrs)

def past (i : ℕ) : List Attrs := (w.objs[i]?).elim [] Obj.past

def key (i : ℕ) : ℕ := (w.objs[i]?).elim 0 Obj.key

def add (h : Attrs) (past : List Attrs) : World :=
  { w with objs := w.objs ++ [⟨h, w.keys, h :: past⟩], keys := w.keys + 1 }

def addCopy (h : Attrs) (i : ℕ) : World := { w with objs := w.objs ++ [⟨h, w.key i, h :: w.past i⟩] }

def modify (i : ℕ) (h : Attrs) : World :=
  { w with objs := w.objs.modify i (fun o => { o with attrs := h, past := h :: o.past }) }

def step (c : Command) : Except Rc World :=
  match c with
  | .create template env => (entryCreateObject fmt s template env).map (w.add · [])
  | .generate m template env => (entryGenerateSecret fmt s m template env).map (w.add · [])
  | .generatePair m pub priv env =>
    (entryGenerateKeyPair fmt s m pub priv env).map (fun h => (w.add h.1 []).add h.2 [])
  | .derive m i template env => do
    let parent ← w.attrs i
    let h ← entryDeriveKey fmt s m parent template env
    .ok { w.add h (w.past i) with derived := w.key i :: w.derived }
  | .unwrap m i template env => do
    let parent ← w.attrs i
    let h ← entryUnwrapKey fmt s m parent template env
    .ok (w.add h [])
  | .copy i template env => do
    let h ← w.attrs i
    (entryCopyObject fmt s h template env).map (w.addCopy · i)
  | .setAttributes i template => do
    let h ← w.attrs i
    (entrySetAttributeValue fmt s h template).map (w.modify i)
  | .encryptInit m i env => do
    let h ← w.attrs i
    (entryEncryptInit s m h env).map (fun _ => { w with encrypted := w.key i :: w.encrypted })

def next (x : SessionState × Command) : Except Empty World := .ok ((w.step fmt x.1 x.2).toOption.getD w)

def empty : World := ⟨[], 0, [], []⟩

end World

end Optee.Pkcs11.Keys
