import Optee.Cryp.Objects

/-! Cryptographic states, which keep the addresses of their key objects, and the system calls on objects and states. -/

namespace Optee.Cryp.States

structure Config extends Cryp.Config where
  /-- `CFG_CRYPTO_SM2_KEP` -/
  sm2Kep : Bool
  /-- `CFG_CRYPTO_RSASSA_NA1` -/
  rsassaNa1 : Bool

inductive Error
  | cryp (e : Cryp.Error)
  | accessConflict
  | corruptObject
  | file
  deriving DecidableEq

inductive Mode
  | encrypt | decrypt | sign | verify | mac | digest | derive
  | other
  deriving DecidableEq

inductive OpClass
  | cipher | mac | ae | digest | asymmetricCipher | asymmetricSignature | keyDerivation
  | other
  deriving DecidableEq

def algAesXts : UInt32 := 0x10000410
def algSm2Pke : UInt32 := 0x80000045
def algSm2Kep : UInt32 := 0x60000045
def algRsassaPkcs1V15 : UInt32 := 0xF0000830
def algDes3Cmac : UInt32 := 0xF0000613

def getClass (algo : UInt32) : OpClass :=
  if algo = algSm2Pke then .asymmetricCipher
  else if algo = algSm2Kep then .keyDerivation
  else if algo = algRsassaPkcs1V15 then .asymmetricSignature
  else if algo = algDes3Cmac then .mac
  else
    match algo.toNat / 2 ^ 28 with
    | 1 => .cipher
    | 3 => .mac
    | 4 => .ae
    | 5 => .digest
    | 6 => .asymmetricCipher
    | 7 => .asymmetricSignature
    | 8 => .keyDerivation
    | _ => .other

def getMainAlg (algo : UInt32) : ℕ :=
  if algo = algSm2Pke then 0x47 else if algo = algSm2Kep then 0x46 else algo.toNat % 256

def reqKeyTypes (cfg : Config) (algo : UInt32) (mode : Mode) : List ObjType :=
  match getMainAlg algo with
  | 0x01 => [.hmacMd5]
  | 0x02 => [.hmacSha1]
  | 0x03 => [.hmacSha224]
  | 0x04 => [.hmacSha256]
  | 0x05 => [.hmacSha384]
  | 0x06 => [.hmacSha512]
  | 0x07 => [.hmacSm3]
  | 0x10 => [.aes]
  | 0x11 => [.des]
  | 0x13 => [.des3]
  | 0x14 => [.sm4]
  | 0x30 => if mode = .encrypt ∨ mode = .verify then [.rsaKeypair, .rsaPublicKey] else [.rsaKeypair]
  | 0x31 => if mode = .encrypt ∨ mode = .verify then [.dsaKeypair, .dsaPublicKey] else [.dsaKeypair]
  | 0x32 => [.dhKeypair]
  | 0x41 => if mode = .verify then [.ecdsaKeypair, .ecdsaPublicKey] else [.ecdsaKeypair]
  | 0x42 => [.ecdhKeypair]
  | 0x47 => if mode = .encrypt then [.sm2PkePublicKey] else [.sm2PkeKeypair]
  | 0x45 => if mode = .verify then [.sm2DsaPublicKey] else [.sm2DsaKeypair]
  | 0x46 => if cfg.sm2Kep then [.sm2KepKeypair, .sm2KepPublicKey] else []
  | 0xC0 => if cfg.hkdf then [.hkdfIkm] else []
  | 0xC1 => if cfg.concatKdf then [.concatKdfZ] else []
  | 0xC2 => if cfg.pbkdf2 then [.pbkdf2Password] else []
  | _ => []

structure TeeObj where
  info : Obj
  objectUsage : UInt32
  busy : Bool
  accessRead : Bool
  accessWrite : Bool
  accessWriteMeta : Bool
  /-- Which of the objects allocated so far this is. -/
  number : ℕ
  /-- How often the key was cleared or written. -/
  version : ℕ

structure CrypState where
  algo : UInt32
  mode : Mode
  key1 : ℕ
  key2 : ℕ
  initialized : Bool
  /-- The objects as they were when the state was allocated. -/
  registered1 : Option TeeObj
  registered2 : Option TeeObj

/-- The objects and states of an application by their addresses, and the number of objects allocated so far. -/
structure World where
  objects : ℕ → Option TeeObj
  states : ℕ → Option CrypState
  allocated : ℕ

def World.init : World := ⟨fun _ => none, fun _ => none, 0⟩

def World.setObj (w : World) (a : ℕ) (o : TeeObj) : World :=
  { w with objects := Function.update w.objects a (some o) }

def World.setState (w : World) (a : ℕ) (cs : CrypState) : World :=
  { w with states := Function.update w.states a (some cs) }

def World.Unused (w : World) (a : ℕ) : Prop := a ≠ 0 ∧ (w.objects a).isNone ∧ (w.states a).isNone

instance (w : World) (a : ℕ) : Decidable (w.Unused a) := inferInstanceAs (Decidable (_ ∧ _))

abbrev Result := World × Except Error Unit

section Objects

def teeObjClose (w : World) (a : ℕ) : World := { w with objects := Function.update w.objects a none }

def onObj (w : World) (obj : ℕ) (f : TeeObj → TeeObj × Except Error Unit) : Result :=
  match w.objects obj with
  | none => (w, .error (.cryp .badState))
  | some o => (w.setObj obj (f o).1, (f o).2)

def usageDefault : UInt32 := 0xFFFFFFFF

def addObj (w : World) (addr : ℕ) (o : TeeObj) (copied : Bool) : Result :=
  let w := { w.setObj addr { o with number := w.allocated } with allocated := w.allocated + 1 }
  if copied then (w, .ok ()) else (teeObjClose w addr, .error (.cryp .badParameters))

variable (cfg : Config)

def objAlloc (w : World) (env : Env) (addr : ℕ) (copied : Bool) (type : ObjType) (maxKeySize : ℕ) : Result :=
  if ¬w.Unused addr then (w, .error (.cryp .outOfMemory))
  else
    match Cryp.objAlloc cfg.toConfig env type maxKeySize with
    | .error e => (w, .error (.cryp e))
    | .ok o => addObj w addr ⟨o, usageDefault, false, false, false, false, 0, 0⟩ copied

def objClose (w : World) (obj : ℕ) : Result :=
  match w.objects obj with
  | none => (w, .error (.cryp .badState))
  | some o => if o.busy then (w, .error (.cryp .itemNotFound)) else (teeObjClose w obj, .ok ())

def TeeObj.change (o : TeeObj) (checked : Bool) (usage : UInt32) (r : Obj × Except Cryp.Error Unit) :
    TeeObj × Except Error Unit :=
  if checked then ({ o with info := r.1, objectUsage := usage, version := o.version + 1 }, r.2.mapError .cryp)
  else (o, r.2.mapError .cryp)

def objReset (w : World) (obj : ℕ) : Result :=
  onObj w obj fun o => o.change (!o.info.persistent) usageDefault (Cryp.objReset o.info)

def TeeObj.fillable (o : TeeObj) : Bool := !o.info.persistent && !o.info.initialized

def objPopulate (w : World) (env : Env) (obj : ℕ) (attrs : List Attribute) : Result :=
  onObj w obj fun o => o.change o.fillable o.objectUsage (Cryp.objPopulate cfg.toConfig env o.info attrs)

def objCopy (w : World) (dst src : ℕ) : Result :=
  match w.objects dst, w.objects src with
  | some _, some s => onObj w dst fun o =>
    match Cryp.objCopy cfg.toConfig o.info s.info with
    | (info, .ok ()) => o.change (o.fillable && s.info.initialized) s.objectUsage (info, .ok ())
    | (info, .error e) => o.change (o.fillable && s.info.initialized) o.objectUsage (info, .error e)
  | _, _ => (w, .error (.cryp .badState))

def objGenerateKey (w : World) (env : Env) (obj keySize : ℕ) (params : List Attribute) : Result :=
  onObj w obj fun o => o.change o.fillable o.objectUsage (Cryp.objGenerateKey cfg.toConfig env o.info keySize params)

def objRestrictUsage (w : World) (obj : ℕ) (usage : UInt32) : Result :=
  onObj w obj fun o => ({ o with objectUsage := o.objectUsage &&& usage }, .ok ())

end Objects

section Storage

structure Flags where
  accessRead : Bool
  accessWrite : Bool
  accessWriteMeta : Bool

def persistentObj (o : Obj) (usage : UInt32) (flags : Flags) : TeeObj :=
  ⟨{ o with persistent := true, initialized := true }, usage, false, flags.accessRead, flags.accessWrite,
    flags.accessWriteMeta, 0, 0⟩

variable (cfg : Config)

def storageObjOpen (w : World) (env : Env) (addr : ℕ) (copied : Bool) (flags : Flags)
    (file : Except Error (Obj × UInt32)) : Result :=
  if ¬w.Unused addr then (w, .error (.cryp .outOfMemory))
  else
    match file with
    | .error e => (w, .error e)
    | .ok (o, usage) =>
      match Cryp.objAlloc cfg.toConfig env o.objectType o.maxKeySize with
      | .error e => (w, .error (.cryp e))
      | .ok _ => addObj w addr (persistentObj o usage flags) copied

def storageInitFile (env : Env) (attr : Option TeeObj) : Except Error (Obj × UInt32) :=
  match attr with
  | none => ((Cryp.objAlloc cfg.toConfig env .data 0).mapError .cryp).map (·, usageDefault)
  | some a => do
    let o ← (Cryp.objAlloc cfg.toConfig env a.info.objectType a.info.maxKeySize).mapError .cryp
    match attrCopyFrom cfg.toConfig o a.info with
    | (_, .error e) => .error (.cryp e)
    | (o, .ok ()) => .ok ({ o with haveAttrs := a.info.haveAttrs, keySize := a.info.keySize }, a.objectUsage)

def attrObj (w : World) (attr : ℕ) : Except Error (Option TeeObj) :=
  if attr = 0 then .ok none
  else
    match w.objects attr with
    | none => .error (.cryp .badState)
    | some o => if o.info.initialized then .ok (some o) else .error (.cryp .badParameters)

def storageObjCreate (w : World) (env : Env) (addr : ℕ) (copied : Bool) (flags : Flags) (attr : ℕ)
    (created : Except Error Unit) : Result :=
  if ¬w.Unused addr then (w, .error (.cryp .outOfMemory))
  else
    match attrObj w attr with
    | .error e => (w, .error e)
    | .ok a =>
      match storageInitFile cfg env a, created with
      | .error e, _ => (w, .error e)
      | .ok _, .error e => (w, .error e)
      | .ok (o, usage), .ok () => addObj w addr (persistentObj o usage flags) copied

def storageObjDel (w : World) (obj : ℕ) (removed : Except Error Unit) : Result :=
  match w.objects obj with
  | none => (w, .error (.cryp .badState))
  | some o =>
    if !o.accessWriteMeta then (w, .error .accessConflict)
    else if !o.info.persistent then (w, .error (.cryp .badState))
    else (teeObjClose w obj, removed)

def onFile (w : World) (obj : ℕ) (access : TeeObj → Bool) (file : Except Error Unit) : Result :=
  match w.objects obj with
  | none => (w, .error (.cryp .badState))
  | some o =>
    if !o.info.persistent then (w, .error (.cryp .badState))
    else if !access o then (w, .error .accessConflict)
    else if file = .error .corruptObject then (teeObjClose w obj, file)
    else (w, file)

def storageObjRead (w : World) (obj : ℕ) (file : Except Error Unit) : Result := onFile w obj (·.accessRead) file

def storageObjTrunc (w : World) (obj : ℕ) (file : Except Error Unit) : Result := onFile w obj (·.accessWrite) file

end Storage

section States

def closeKey (w : World) (key : ℕ) : World :=
  match w.objects key with
  | none => w
  | some _ => teeObjClose w key

def freeState (w : World) (state : ℕ) (cs : CrypState) : World :=
  let w := closeKey (closeKey w cs.key1) cs.key2
  { w with states := Function.update w.states state none }

variable (cfg : Config)

def checkKey (w : World) (algo : UInt32) (mode : Mode) (key : ℕ) : Except Error (Option TeeObj) :=
  if key = 0 then .ok none
  else
    match w.objects key with
    | none => .error (.cryp .badState)
    | some o =>
      if o.busy then .error (.cryp .badParameters)
      else if o.info.objectType ∈ reqKeyTypes cfg algo mode then .ok (some o)
      else .error (.cryp .badParameters)

def allocCtx (algo : UInt32) (key1 key2 : ℕ) (ctx : Except Cryp.Error Unit) : Except Cryp.Error Unit :=
  match getClass algo with
  | .cipher =>
    if algo = algAesXts ∧ (key1 = 0 ∨ key2 = 0) ∨ algo ≠ algAesXts ∧ (key1 = 0 ∨ key2 ≠ 0) then .error .badParameters
    else ctx
  | .ae | .mac => if key1 = 0 ∨ key2 ≠ 0 then .error .badParameters else ctx
  | .digest => if key1 ≠ 0 ∨ key2 ≠ 0 then .error .badParameters else ctx
  | .asymmetricCipher | .asymmetricSignature =>
    if algo = algRsassaPkcs1V15 ∧ !cfg.rsassaNa1 then .error .notSupported
    else if key1 = 0 ∨ key2 ≠ 0 then .error .badParameters
    else .ok ()
  | .keyDerivation =>
    if algo = algSm2Kep then if key1 = 0 ∨ key2 = 0 then .error .badParameters else .ok ()
    else if key1 = 0 ∨ key2 ≠ 0 then .error .badParameters
    else .ok ()
  | .other => .error .notSupported

def markBusy (w : World) (key : ℕ) : World :=
  match w.objects key with
  | none => w
  | some o => w.setObj key { o with busy := true }

def register (w : World) (state : ℕ) (cs : CrypState) (key1 key2 : ℕ) (o1 o2 : Option TeeObj) : World :=
  (markBusy (markBusy w key1) key2).setState state
    { cs with key1 := key1, key2 := key2, registered1 := o1, registered2 := o2 }

def crypStateAlloc (w : World) (addr : ℕ) (copied : Bool) (algo : UInt32) (mode : Mode) (key1 key2 : ℕ)
    (ctx : Except Cryp.Error Unit) : Result :=
  match checkKey cfg w algo mode key1 with
  | .error e => (w, .error e)
  | .ok o1 =>
    match checkKey cfg w algo mode key2 with
    | .error e => (w, .error e)
    | .ok o2 =>
      if ¬w.Unused addr then (w, .error (.cryp .outOfMemory))
      else
        let cs : CrypState := ⟨algo, mode, 0, 0, false, none, none⟩
        let w := w.setState addr cs
        match allocCtx cfg algo key1 key2 ctx with
        | .error e => (freeState w addr cs, .error (.cryp e))
        | .ok () =>
          if copied then (register w addr cs key1 key2 o1 o2, .ok ())
          else (freeState w addr cs, .error (.cryp .badParameters))

def crypStateFree (w : World) (state : ℕ) : Result :=
  match w.states state with
  | none => (w, .error (.cryp .badParameters))
  | some cs => (freeState w state cs, .ok ())

def OpClass.hasCtx : OpClass → Bool
  | .cipher | .ae | .digest | .mac => true
  | _ => false

def crypStateCopy (w : World) (dst src : ℕ) : Result :=
  match w.states dst, w.states src with
  | some d, some s =>
    if d.algo ≠ s.algo ∨ d.mode ≠ s.mode then (w, .error (.cryp .badParameters))
    else if !(getClass s.algo).hasCtx then (w, .error (.cryp .badState))
    else (w.setState dst { d with initialized := s.initialized }, .ok ())
  | _, _ => (w, .error (.cryp .badParameters))

def useKey (w : World) (key : ℕ) : Except Cryp.Error Unit :=
  match w.objects key with
  | none => .error .badState
  | some o => if o.info.initialized then .ok () else .error .badParameters

def initState (w : World) (state : ℕ) (keys : CrypState → Except Cryp.Error Unit) (ctx : Except Cryp.Error Unit) :
    Result :=
  match w.states state with
  | none => (w, .error (.cryp .badParameters))
  | some cs =>
    match keys cs, ctx with
    | .error e, _ => (w, .error (.cryp e))
    | .ok (), .error e => (w, .error (.cryp e))
    | .ok (), .ok () => (w.setState state { cs with initialized := true }, .ok ())

def hashInit (w : World) (state : ℕ) (ctx : Except Cryp.Error Unit) : Result :=
  initState w state (fun cs =>
    match getClass cs.algo with
    | .digest => .ok ()
    | .mac => useKey w cs.key1
    | _ => .error .badParameters) ctx

def cipherInit (w : World) (state : ℕ) (ctx : Except Cryp.Error Unit) : Result :=
  initState w state (fun cs =>
    if getClass cs.algo ≠ .cipher then .error .badState
    else do
      useKey w cs.key1
      if (w.objects cs.key2).isSome then useKey w cs.key2 else .ok ()) ctx

def authencInit (w : World) (state : ℕ) (ctx : Except Cryp.Error Unit) : Result :=
  initState w state (fun cs => useKey w cs.key1) ctx

def TeeObj.derive (o : TeeObj) (bits : ℕ) : TeeObj :=
  { o with
    info := { o.info.setAttr .secretValue (.data bits) with
      initialized := true, haveAttrs := .secretValue :: o.info.haveAttrs }
    version := o.version + 1 }

def derives (algo : UInt32) : Bool :=
  algo = 0x80000032 || getMainAlg algo = 0x42 || (cfg.hkdf && getMainAlg algo = 0xC0) ||
    (cfg.concatKdf && getMainAlg algo = 0xC1) || (cfg.pbkdf2 && getMainAlg algo = 0xC2) ||
    (cfg.sm2Kep && algo = algSm2Kep)

def crypDeriveKey (w : World) (state derived : ℕ) (secret : Except Cryp.Error ℕ) : Result :=
  match w.states state with
  | none => (w, .error (.cryp .badParameters))
  | some cs =>
    match w.objects cs.key1, w.objects derived with
    | some _, some so =>
      if findTypeProps cfg.toConfig so.info.objectType = none then (w, .error (.cryp .notSupported))
      else if !derives cfg cs.algo then (w, .error (.cryp .notSupported))
      else if cs.algo = algSm2Kep ∧ (w.objects cs.key2).isNone then (w, .error (.cryp .badState))
      else
        match secret with
        | .error e => (w, .error (.cryp e))
        | .ok bits => (w.setObj derived (so.derive bits), .ok ())
    | _, _ => (w, .error (.cryp .badState))

end States

inductive Call
  | objAlloc (env : Env) (addr : ℕ) (copied : Bool) (type : ObjType) (maxKeySize : ℕ)
  | objClose (obj : ℕ)
  | objReset (obj : ℕ)
  | objPopulate (env : Env) (obj : ℕ) (attrs : List Attribute)
  | objCopy (dst src : ℕ)
  | objGenerateKey (env : Env) (obj keySize : ℕ) (params : List Attribute)
  | objRestrictUsage (obj : ℕ) (usage : UInt32)
  | storageObjOpen (env : Env) (addr : ℕ) (copied : Bool) (flags : Flags) (file : Except Error (Obj × UInt32))
  | storageObjCreate (env : Env) (addr : ℕ) (copied : Bool) (flags : Flags) (attr : ℕ) (created : Except Error Unit)
  | storageObjDel (obj : ℕ) (removed : Except Error Unit)
  | storageObjRead (obj : ℕ) (file : Except Error Unit)
  | storageObjTrunc (obj : ℕ) (file : Except Error Unit)
  | crypStateAlloc (addr : ℕ) (copied : Bool) (algo : UInt32) (mode : Mode) (key1 key2 : ℕ)
      (ctx : Except Cryp.Error Unit)
  | crypStateFree (state : ℕ)
  | crypStateCopy (dst src : ℕ)
  | hashInit (state : ℕ) (ctx : Except Cryp.Error Unit)
  | cipherInit (state : ℕ) (ctx : Except Cryp.Error Unit)
  | authencInit (state : ℕ) (ctx : Except Cryp.Error Unit)
  | crypDeriveKey (state derived : ℕ) (secret : Except Cryp.Error ℕ)

def call (cfg : Config) (w : World) : Call → Result
  | .objAlloc env addr copied type maxKeySize => objAlloc cfg w env addr copied type maxKeySize
  | .objClose obj => objClose w obj
  | .objReset obj => objReset w obj
  | .objPopulate env obj attrs => objPopulate cfg w env obj attrs
  | .objCopy dst src => objCopy cfg w dst src
  | .objGenerateKey env obj keySize params => objGenerateKey cfg w env obj keySize params
  | .objRestrictUsage obj usage => objRestrictUsage w obj usage
  | .storageObjOpen env addr copied flags file => storageObjOpen cfg w env addr copied flags file
  | .storageObjCreate env addr copied flags attr created => storageObjCreate cfg w env addr copied flags attr created
  | .storageObjDel obj removed => storageObjDel w obj removed
  | .storageObjRead obj file => storageObjRead w obj file
  | .storageObjTrunc obj file => storageObjTrunc w obj file
  | .crypStateAlloc addr copied algo mode key1 key2 ctx => crypStateAlloc cfg w addr copied algo mode key1 key2 ctx
  | .crypStateFree state => crypStateFree w state
  | .crypStateCopy dst src => crypStateCopy w dst src
  | .hashInit state ctx => hashInit w state ctx
  | .cipherInit state ctx => cipherInit w state ctx
  | .authencInit state ctx => authencInit w state ctx
  | .crypDeriveKey state derived secret => crypDeriveKey cfg w state derived secret

def step (cfg : Config) (w : World) (c : Call) : Except Empty World := .ok (call cfg w c).1

end Optee.Cryp.States
