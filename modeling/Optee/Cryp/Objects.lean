import Mathlib.Algebra.Group.Nat.Defs
import Optee.Cryp.Types

/-! The system calls that allocate, reset, populate, copy and generate transient objects. -/

namespace Optee.Cryp

inductive Content
  | data (bits : ℕ)
  | value (a : ℕ)

structure Obj where
  objectType : ObjType
  maxKeySize : ℕ
  keySize : ℕ
  initialized : Bool
  persistent : Bool
  haveAttrs : List AttrId
  attrs : AttrId → Content

def Obj.setAttr (o : Obj) (id : AttrId) (c : Content) : Obj := { o with attrs := Function.update o.attrs id c }

structure Attribute where
  id : AttrId
  value : ℕ
  buffer : List UInt8

structure Env where
  /-- There is memory for what the call allocates. -/
  memory : Bool
  /-- The attributes can be read. -/
  readable : Bool
  /-- `crypto_bignum_bin2bn` accepts the number. -/
  bin2bn : List UInt8 → Bool
  /-- The generation of random bytes or of a key pair succeeds. -/
  generated : Bool
  /-- The sizes of the generated numbers other than the modulus of an RSA key. -/
  bits : AttrId → ℕ

def Attribute.length (a : Attribute) : ℕ := if a.id.isValue then 8 else a.buffer.length

def fromUser (env : Env) (props : TypeProps) (ops : Ops) (a : Attribute) : Except Error Content :=
  match ops with
  | .secret => if props.allocSize < a.length then .error .security else .ok (.data (8 * a.length))
  | .bignum => if env.bin2bn a.buffer then .ok (.data (8 * a.length)) else .error .badParameters
  | .value => if a.length ≠ 8 then .error .generic else .ok (.value a.value)

inductive Usage
  | populate
  | generateKey
  deriving DecidableEq

def Usage.requiredFlag : Usage → Flag
  | .populate => .required
  | .generateKey => .genKeyReq

def Usage.optFlag : Usage → Flag
  | .populate => .optionalGroup
  | .generateKey => .genKeyOpt

def reqAttrs (usage : Usage) (props : TypeProps) : List AttrId :=
  (props.typeAttrs.filter fun ta => usage.requiredFlag ∈ ta.flags).map (·.id)

def optGrpAttrs (usage : Usage) (props : TypeProps) : List AttrId :=
  (props.typeAttrs.filter fun ta => usage.requiredFlag ∉ ta.flags ∧ usage.optFlag ∈ ta.flags).map (·.id)

def checkEach (usage : Usage) (props : TypeProps) : List Attribute → List AttrId → Except Error (List AttrId)
  | [], found => .ok found
  | a :: as, found =>
    if props.find a.id = none then .error .itemNotFound
    else if a.id ∈ found then .error .itemNotFound
    else if a.id ∉ reqAttrs usage props ∧ a.id ∉ optGrpAttrs usage props then .error .itemNotFound
    else checkEach usage props as (a.id :: found)

def checkAttr (usage : Usage) (props : TypeProps) (attrs : List Attribute) : Except Error Unit := do
  let found ← checkEach usage props attrs []
  if ∃ id ∈ reqAttrs usage props, id ∉ found then .error .itemNotFound
  else if usage = .populate ∧ (∃ id ∈ optGrpAttrs usage props, id ∈ found) ∧ ∃ id ∈ optGrpAttrs usage props, id ∉ found
  then .error .itemNotFound
  else .ok ()

def bitFfs : List UInt8 → Option ℕ
  | [] => none
  | b :: bs => if b = 0 then (bitFfs bs).map (· + 8) else (List.range 8).find? fun i => b.toNat.testBit i

def getUsedBits (a : Attribute) : ℕ :=
  match bitFfs a.buffer with
  | some v => a.buffer.length * 8 - v
  | none => a.buffer.length * 8 + 1

variable (cfg : Config)

def definedSize (o : Obj) (a : Attribute) : Except Error ℕ :=
  if a.id = .eccCurve then getEcKeySize a.value
  else
    let bits := a.buffer.length * 8
    .ok (if isGpLegacyDesKeySize cfg o.objectType o.maxKeySize then bits - bits / 8 else bits)

def sizeAfter (o : Obj) (ta : TypeAttr) (a : Attribute) (objSize : ℕ) : Except Error ℕ :=
  if .sizeIndicator ∉ ta.flags then .ok objSize
  else if objSize ≠ 0 then .error .badState
  else
    match definedSize cfg o a with
    | .error e => .error e
    | .ok size => if o.maxKeySize < size then .error .badState else .ok size

def populateLoop (env : Env) (props : TypeProps) :
    Obj → List Attribute → ℕ → List AttrId → Obj × Except Error (ℕ × List AttrId)
  | o, [], objSize, have_ => (o, .ok (objSize, have_))
  | o, a :: as, objSize, have_ =>
    match props.find a.id with
    | none => (o, .error .itemNotFound)
    | some ta =>
      match fromUser env props ta.ops a with
      | .error e => (o, .error e)
      | .ok c =>
        match sizeAfter cfg o ta a objSize with
        | .error e => (o.setAttr a.id c, .error e)
        | .ok objSize =>
          if .bignumMaxbits ∈ ta.flags ∧ o.maxKeySize < getUsedBits a then (o.setAttr a.id c, .error .badState)
          else populateLoop env props (o.setAttr a.id c) as objSize (a.id :: have_)

def populateType (env : Env) (props : TypeProps) (o : Obj) (attrs : List Attribute) : Obj × Except Error Unit :=
  match populateLoop cfg env props o attrs 0 [] with
  | (o, .error e) => (o, .error e)
  | (o, .ok (objSize, have_)) =>
    let keySize := if isGpLegacyDesKeySize cfg o.objectType o.maxKeySize then objSize - objSize / 8 else objSize
    ({ o with haveAttrs := have_, keySize := keySize }, .ok ())

def objAlloc (env : Env) (type : ObjType) (maxKeySize : ℕ) : Except Error Obj :=
  let new : Obj := ⟨type, maxKeySize, 0, false, false, [], fun _ => .data 0⟩
  if type = .data then if maxKeySize ≠ 0 then .error .notSupported else .ok new
  else
    match findTypeProps cfg type with
    | none => .error .notSupported
    | some props => do
      checkKeySize cfg type props maxKeySize
      if env.memory then .ok new else .error .outOfMemory

def objReset (o : Obj) : Obj × Except Error Unit :=
  if o.persistent then (o, .error .badParameters)
  else ({ o with attrs := fun _ => .data 0, keySize := 0, initialized := false }, .ok ())

def takeAttrs (env : Env) (usage : Usage) (props : TypeProps) (attrs : List Attribute) : Except Error Unit :=
  if !env.memory then .error .outOfMemory
  else if !env.readable then .error .badParameters
  else checkAttr usage props attrs

def objPopulate (env : Env) (o : Obj) (attrs : List Attribute) : Obj × Except Error Unit :=
  if o.persistent then (o, .error .badParameters)
  else if o.initialized then (o, .error .badParameters)
  else
    match findTypeProps cfg o.objectType with
    | none => (o, .error .notImplemented)
    | some props =>
      match takeAttrs env .populate props attrs with
      | .error e => (o, .error e)
      | .ok () =>
        match populateType cfg env props o attrs with
        | (o, .error e) => (o, .error e)
        | (o, .ok ()) => ({ o with initialized := true }, .ok ())

def keypairOf : ObjType → Option ObjType
  | .rsaPublicKey => some .rsaKeypair
  | .dsaPublicKey => some .dsaKeypair
  | .ecdsaPublicKey => some .ecdsaKeypair
  | .ecdhPublicKey => some .ecdhKeypair
  | .sm2DsaPublicKey => some .sm2DsaKeypair
  | .sm2PkePublicKey => some .sm2PkeKeypair
  | .sm2KepPublicKey => some .sm2KepKeypair
  | _ => none

def fromObj (props : TypeProps) (ops : Ops) (c : Content) : Except Error Content :=
  match ops, c with
  | .secret, .data bits => if 8 * props.allocSize < bits then .error .badState else .ok c
  | _, _ => .ok c

def copyLoop (props srcProps : TypeProps) (src : Obj) : Obj → List TypeAttr → Obj × Except Error Unit
  | o, [] => (o, .ok ())
  | o, ta :: tas =>
    if srcProps.find ta.id = none then (o, .error .badState)
    else
      match fromObj props ta.ops (src.attrs ta.id) with
      | .error e => (o, .error e)
      | .ok c => copyLoop props srcProps src (o.setAttr ta.id c) tas

def copyAll (props srcProps : TypeProps) (src o : Obj) (have_ : List AttrId) : Obj × Except Error Unit :=
  match copyLoop props srcProps src o props.typeAttrs with
  | (o, .error e) => (o, .error e)
  | (o, .ok ()) => ({ o with haveAttrs := have_ }, .ok ())

def attrCopyFrom (o src : Obj) : Obj × Except Error Unit :=
  if o.objectType = .data then (o, .ok ())
  else
    match findTypeProps cfg o.objectType with
    | none => (o, .error .badState)
    | some props =>
      if o.objectType = src.objectType then copyAll props props src o src.haveAttrs
      else if keypairOf o.objectType ≠ some src.objectType then (o, .error .badParameters)
      else
        match findTypeProps cfg src.objectType with
        | none => (o, .error .badState)
        | some srcProps => copyAll props srcProps src o (props.typeAttrs.map (·.id))

def objCopy (dst src : Obj) : Obj × Except Error Unit :=
  if !src.initialized then (dst, .error .badParameters)
  else if dst.persistent then (dst, .error .badParameters)
  else if dst.initialized then (dst, .error .badParameters)
  else
    match attrCopyFrom cfg dst src with
    | (dst, .error e) => (dst, .error e)
    | (dst, .ok ()) => ({ dst with initialized := true, keySize := src.keySize }, .ok ())

def number (bytes : List UInt8) : ℕ := bytes.foldl (fun n b => n * 256 + b.toNat) 0

def numBytes (n : ℕ) : ℕ := if n = 0 then 0 else Nat.log2 n / 8 + 1

def checkPubRsaKey (e : ℕ) : Except Error Unit :=
  if 32 < numBytes e ∨ numBytes e < 3 then .error .badParameters
  else if e % 2 = 0 then .error .badParameters
  else if numBytes e = 3 ∧ e < 65537 then .error .badParameters
  else .ok ()

def checkExponent (params : List Attribute) : Except Error Unit :=
  match params.find? (·.id = .rsaPublicExponent) with
  | some a => checkPubRsaKey (number a.buffer)
  | none => .ok ()

def Obj.generate (o : Obj) (env : Env) (ids : List AttrId) : Obj :=
  { o with attrs := fun id => if id ∈ ids then .data (env.bits id) else o.attrs id }

def generateKeypair (env : Env) (props : TypeProps) (o : Obj) (keySize : ℕ) (params : List Attribute) :
    Obj × Except Error Unit :=
  match o.objectType with
  | .rsaKeypair =>
    match checkExponent params with
    | .error e => (o, .error e)
    | .ok () =>
      if !env.generated then (o, .error .badParameters)
      else
        let o := o.generate env [.rsaPrivateExponent, .rsaPrime1, .rsaPrime2, .rsaExponent1, .rsaExponent2,
          .rsaCoefficient]
        ({ o.setAttr .rsaModulus (.data keySize) with haveAttrs := props.typeAttrs.map (·.id) }, .ok ())
  | .dsaKeypair =>
    if !env.generated then (o, .error .badParameters)
    else
      ({ o.generate env [.dsaPrivateValue, .dsaPublicValue] with haveAttrs := props.typeAttrs.map (·.id) }, .ok ())
  | .dhKeypair =>
    if !env.generated then (o, .error .badParameters)
    else
      ({ o.generate env [.dhPublicValue, .dhPrivateValue] with
        haveAttrs := [.dhPublicValue, .dhPrivateValue, .dhXBits] ++ o.haveAttrs }, .ok ())
  | .ecdsaKeypair | .ecdhKeypair | .sm2PkeKeypair =>
    if !env.generated then (o, .error .badParameters)
    else
      ({ o.generate env [.eccPrivateValue, .eccPublicValueX, .eccPublicValueY] with
        haveAttrs := [.eccPrivateValue, .eccPublicValueX, .eccPublicValueY, .eccCurve] ++ o.haveAttrs }, .ok ())
  | _ => (o, .error .badFormat)

def ObjType.isRandom : ObjType → Bool
  | .aes | .des | .des3 | .sm4 | .hmacMd5 | .hmacSha1 | .hmacSha224 | .hmacSha256 | .hmacSha384 | .hmacSha512
  | .hmacSm3 | .genericSecret => true
  | _ => false

def ObjType.isKeypair : ObjType → Bool
  | .rsaKeypair | .dsaKeypair | .dhKeypair | .ecdsaKeypair | .ecdhKeypair | .sm2PkeKeypair => true
  | _ => false

def byteSize (type : ObjType) (keySize : ℕ) : ℕ :=
  if isGpLegacyDesKeySize cfg type keySize then (keySize + keySize / 7) / 8 else keySize / 8

def generateSecret (env : Env) (props : TypeProps) (o : Obj) (keySize : ℕ) : Obj × Except Error Unit :=
  if props.allocSize < byteSize cfg o.objectType keySize then (o, .error .excessData)
  else if !env.generated then (o, .error .badState)
  else
    ({ o.setAttr .secretValue (.data (8 * byteSize cfg o.objectType keySize)) with
      haveAttrs := props.typeAttrs.map (·.id) }, .ok ())

def generateByType (env : Env) (props : TypeProps) (o : Obj) (keySize : ℕ) (params : List Attribute) :
    Obj × Except Error Unit :=
  if o.objectType.isRandom then generateSecret cfg env props o keySize
  else if !o.objectType.isKeypair then (o, .error .badFormat)
  else
    match populateType cfg env props o params with
    | (o, .error e) => (o, .error e)
    | (o, .ok ()) => generateKeypair env props o keySize params

def objGenerateKey (env : Env) (o : Obj) (keySize : ℕ) (params : List Attribute) : Obj × Except Error Unit :=
  if o.persistent then (o, .error .badState)
  else if o.initialized then (o, .error .badState)
  else
    match findTypeProps cfg o.objectType with
    | none => (o, .error .notSupported)
    | some props =>
      match checkKeySize cfg o.objectType props keySize with
      | .error e => (o, .error e)
      | .ok () =>
        match takeAttrs env .generateKey props params with
        | .error e => (o, .error e)
        | .ok () =>
          match generateByType cfg env props o keySize params with
          | (o, .error e) => (o, .error e)
          | (o, .ok ()) => ({ o with keySize := keySize, initialized := true }, .ok ())

section Heads

/-! A call that fails may have changed the object, but leaves its type and leaves it uninitialised. -/

variable {cfg : Config} {env : Env} {props : TypeProps} {o : Obj} {attrs : List Attribute}

def Obj.head (o : Obj) : ObjType × Bool := (o.objectType, o.initialized)

variable {have_ : List AttrId} {keySize : ℕ}

lemma populateLoop_head {sz : ℕ} : (populateLoop cfg env props o attrs sz have_).1.head = o.head := by
  induction attrs generalizing o sz have_ with
  | nil => rfl
  | cons a as ih =>
    rw [populateLoop]
    split
    · rfl
    split
    · rfl
    split
    · rfl
    split
    · rfl
    exact ih

lemma populateType_head : (populateType cfg env props o attrs).1.head = o.head := by
  have h : (populateLoop cfg env props o attrs 0 []).1.head = o.head := populateLoop_head
  rw [populateType]
  split
  all_goals
    next heq =>
    rw [heq] at h
    exact h

variable {srcProps : TypeProps} {src : Obj}

lemma copyLoop_head {tas : List TypeAttr} : (copyLoop props srcProps src o tas).1.head = o.head := by
  induction tas generalizing o with
  | nil => rfl
  | cons ta tas ih =>
    rw [copyLoop]
    split
    · rfl
    split
    · rfl
    exact ih

lemma copyAll_head : (copyAll props srcProps src o have_).1.head = o.head := by
  have h : (copyLoop props srcProps src o props.typeAttrs).1.head = o.head := copyLoop_head
  rw [copyAll]
  split
  all_goals
    next heq =>
    rw [heq] at h
    exact h

lemma attrCopyFrom_head : (attrCopyFrom cfg o src).1.head = o.head := by
  rw [attrCopyFrom]
  split
  · rfl
  split
  · rfl
  split
  · exact copyAll_head
  split
  · rfl
  split
  · rfl
  · exact copyAll_head

lemma generateKeypair_head : (generateKeypair env props o keySize attrs).1.head = o.head := by
  rw [generateKeypair]
  split
  · split
    · rfl
    · split <;> rfl
  all_goals first | rfl | (split <;> rfl)

lemma generateByType_head : (generateByType cfg env props o keySize attrs).1.head = o.head := by
  rw [generateByType]
  split
  · rw [generateSecret]
    split
    · rfl
    · split <;> rfl
  split
  · rfl
  have h : (populateType cfg env props o attrs).1.head = o.head := populateType_head
  split
  · next heq =>
    rw [heq] at h
    exact h
  · next heq =>
    rw [heq] at h
    exact generateKeypair_head.trans h

lemma objPopulate_type : (objPopulate cfg env o attrs).1.objectType = o.objectType := by
  rw [objPopulate]
  split
  · rfl
  split
  · rfl
  split
  · rfl
  next props _ =>
  split
  · rfl
  have h : (populateType cfg env props o attrs).1.objectType = o.objectType := congrArg Prod.fst populateType_head
  split
  all_goals
    next heq =>
    rw [heq] at h
    exact h

lemma objCopy_type : (objCopy cfg o src).1.objectType = o.objectType := by
  rw [objCopy]
  split
  · rfl
  split
  · rfl
  split
  · rfl
  have h : (attrCopyFrom cfg o src).1.objectType = o.objectType := congrArg Prod.fst attrCopyFrom_head
  split
  all_goals
    next heq =>
    rw [heq] at h
    exact h

lemma objGenerateKey_type : (objGenerateKey cfg env o keySize attrs).1.objectType = o.objectType := by
  rw [objGenerateKey]
  split
  · rfl
  split
  · rfl
  split
  · rfl
  next props _ =>
  split
  · rfl
  split
  · rfl
  have h : (generateByType cfg env props o keySize attrs).1.objectType = o.objectType :=
    congrArg Prod.fst generateByType_head
  split
  all_goals
    next heq =>
    rw [heq] at h
    exact h

end Heads

inductive Event
  | alloc (env : Env) (type : ObjType) (maxKeySize : ℕ)
  | reset (obj : ℕ)
  | populate (env : Env) (obj : ℕ) (attrs : List Attribute)
  | copy (dst src : ℕ)
  | generateKey (env : Env) (obj keySize : ℕ) (params : List Attribute)

def onObj (objs : List Obj) (obj : ℕ) (f : Obj → Obj × Except Error Unit) : List Obj :=
  match objs[obj]? with
  | none => objs
  | some o => objs.set obj (f o).1

def step (objs : List Obj) : Event → Except Empty (List Obj)
  | .alloc env type maxKeySize =>
    match objAlloc cfg env type maxKeySize with
    | .error _ => .ok objs
    | .ok o => .ok (objs ++ [o])
  | .reset obj => .ok (onObj objs obj objReset)
  | .populate env obj attrs => .ok (onObj objs obj fun o => objPopulate cfg env o attrs)
  | .copy dst src =>
    match objs[src]? with
    | none => .ok objs
    | some o => .ok (onObj objs dst fun d => objCopy cfg d o)
  | .generateKey env obj keySize params => .ok (onObj objs obj fun o => objGenerateKey cfg env o keySize params)

end Optee.Cryp
