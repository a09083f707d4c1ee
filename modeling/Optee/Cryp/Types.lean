import Mathlib.Data.List.Basic

/-! The types of cryptographic objects: their sizes and the attributes they have. -/

namespace Optee.Cryp

structure Config where
  /-- `CFG_COMPAT_GP10_DES` -/
  compatGp10Des : Bool
  hkdf : Bool
  concatKdf : Bool
  pbkdf2 : Bool
  /-- `CFG_CORE_BIGNUM_MAX_BITS` -/
  bignumMaxBits : ℕ

inductive ObjType
  | aes | des | des3 | sm4
  | hmacMd5 | hmacSha1 | hmacSha224 | hmacSha256 | hmacSha384 | hmacSha512 | hmacSm3
  | genericSecret | hkdfIkm | concatKdfZ | pbkdf2Password
  | rsaPublicKey | rsaKeypair | dsaPublicKey | dsaKeypair | dhKeypair
  | ecdsaPublicKey | ecdsaKeypair | ecdhPublicKey | ecdhKeypair
  | sm2DsaPublicKey | sm2DsaKeypair | sm2PkePublicKey | sm2PkeKeypair | sm2KepPublicKey | sm2KepKeypair
  | data
  deriving DecidableEq

inductive AttrId
  | secretValue | hkdfIkm | concatKdfZ | pbkdf2Password
  | rsaModulus | rsaPublicExponent | rsaPrivateExponent | rsaPrime1 | rsaPrime2 | rsaExponent1 | rsaExponent2
  | rsaCoefficient
  | dsaPrime | dsaSubprime | dsaBase | dsaPublicValue | dsaPrivateValue
  | dhPrime | dhBase | dhSubprime | dhXBits | dhPublicValue | dhPrivateValue
  | eccPublicValueX | eccPublicValueY | eccPrivateValue | eccCurve
  | other (id : ℕ)
  deriving DecidableEq

def AttrId.isValue : AttrId → Bool
  | .eccCurve | .dhXBits => true
  | .other id => id.testBit 29
  | _ => false

inductive Flag
  | required
  | optionalGroup
  | sizeIndicator
  | genKeyOpt
  | genKeyReq
  | bignumMaxbits
  deriving DecidableEq

inductive Ops
  | secret
  | bignum
  | value
  deriving DecidableEq

structure TypeAttr where
  id : AttrId
  flags : List Flag
  ops : Ops
  deriving DecidableEq

def secretAttrs (id : AttrId) : List TypeAttr := [⟨id, [.required, .sizeIndicator], .secret⟩]

def rsaPubKeyAttrs : List TypeAttr :=
  [⟨.rsaModulus, [.required, .sizeIndicator], .bignum⟩, ⟨.rsaPublicExponent, [.required], .bignum⟩]

def rsaKeypairAttrs : List TypeAttr :=
  [⟨.rsaModulus, [.required, .sizeIndicator], .bignum⟩, ⟨.rsaPublicExponent, [.required, .genKeyOpt], .bignum⟩,
    ⟨.rsaPrivateExponent, [.required], .bignum⟩, ⟨.rsaPrime1, [.optionalGroup], .bignum⟩,
    ⟨.rsaPrime2, [.optionalGroup], .bignum⟩, ⟨.rsaExponent1, [.optionalGroup], .bignum⟩,
    ⟨.rsaExponent2, [.optionalGroup], .bignum⟩, ⟨.rsaCoefficient, [.optionalGroup], .bignum⟩]

def dsaPubKeyAttrs : List TypeAttr :=
  [⟨.dsaPrime, [.required, .bignumMaxbits], .bignum⟩, ⟨.dsaSubprime, [.required, .sizeIndicator], .bignum⟩,
    ⟨.dsaBase, [.required, .bignumMaxbits], .bignum⟩, ⟨.dsaPublicValue, [.required, .bignumMaxbits], .bignum⟩]

def dsaKeypairAttrs : List TypeAttr :=
  [⟨.dsaPrime, [.required, .genKeyReq, .bignumMaxbits], .bignum⟩,
    ⟨.dsaSubprime, [.required, .sizeIndicator, .genKeyReq], .bignum⟩,
    ⟨.dsaBase, [.required, .genKeyReq, .bignumMaxbits], .bignum⟩,
    ⟨.dsaPrivateValue, [.required, .bignumMaxbits], .bignum⟩, ⟨.dsaPublicValue, [.required, .bignumMaxbits], .bignum⟩]

def dhKeypairAttrs : List TypeAttr :=
  [⟨.dhPrime, [.required, .sizeIndicator, .genKeyReq], .bignum⟩, ⟨.dhBase, [.required, .genKeyReq], .bignum⟩,
    ⟨.dhPublicValue, [.required], .bignum⟩, ⟨.dhPrivateValue, [.required], .bignum⟩,
    ⟨.dhSubprime, [.optionalGroup, .genKeyOpt], .bignum⟩, ⟨.dhXBits, [.genKeyOpt], .value⟩]

def eccPubKeyAttrs : List TypeAttr :=
  [⟨.eccPublicValueX, [.required], .bignum⟩, ⟨.eccPublicValueY, [.required], .bignum⟩,
    ⟨.eccCurve, [.required, .sizeIndicator], .value⟩]

def eccKeypairAttrs : List TypeAttr :=
  [⟨.eccPrivateValue, [.required], .bignum⟩, ⟨.eccPublicValueX, [.required], .bignum⟩,
    ⟨.eccPublicValueY, [.required], .bignum⟩, ⟨.eccCurve, [.required, .sizeIndicator, .genKeyReq], .value⟩]

structure TypeProps where
  quanta : ℕ
  minSize : ℕ
  maxSize : ℕ
  allocSize : ℕ
  typeAttrs : List TypeAttr

variable (cfg : Config)

def findTypeProps : ObjType → Option TypeProps
  | .aes => some ⟨64, 128, 256, 256 / 8, secretAttrs .secretValue⟩
  | .des => some ⟨64, 64, 64, 64 / 8, secretAttrs .secretValue⟩
  | .des3 => some ⟨64, 128, 192, 192 / 8, secretAttrs .secretValue⟩
  | .sm4 => some ⟨128, 128, 128, 128 / 8, secretAttrs .secretValue⟩
  | .hmacMd5 => some ⟨8, 64, 512, 512 / 8, secretAttrs .secretValue⟩
  | .hmacSha1 => some ⟨8, 80, 512, 512 / 8, secretAttrs .secretValue⟩
  | .hmacSha224 => some ⟨8, 112, 512, 512 / 8, secretAttrs .secretValue⟩
  | .hmacSha256 => some ⟨8, 192, 1024, 1024 / 8, secretAttrs .secretValue⟩
  | .hmacSha384 => some ⟨8, 256, 1024, 1024 / 8, secretAttrs .secretValue⟩
  | .hmacSha512 => some ⟨8, 256, 1024, 1024 / 8, secretAttrs .secretValue⟩
  | .hmacSm3 => some ⟨8, 80, 1024, 512 / 8, secretAttrs .secretValue⟩
  | .genericSecret => some ⟨8, 0, 4096, 4096 / 8, secretAttrs .secretValue⟩
  | .hkdfIkm => if cfg.hkdf then some ⟨8, 0, 4096, 4096 / 8, secretAttrs .hkdfIkm⟩ else none
  | .concatKdfZ => if cfg.concatKdf then some ⟨8, 0, 4096, 4096 / 8, secretAttrs .concatKdfZ⟩ else none
  | .pbkdf2Password => if cfg.pbkdf2 then some ⟨8, 0, 4096, 4096 / 8, secretAttrs .pbkdf2Password⟩ else none
  | .rsaPublicKey => some ⟨1, 256, cfg.bignumMaxBits, 0, rsaPubKeyAttrs⟩
  | .rsaKeypair => some ⟨1, 256, cfg.bignumMaxBits, 0, rsaKeypairAttrs⟩
  | .dsaPublicKey => some ⟨64, 512, 3072, 0, dsaPubKeyAttrs⟩
  | .dsaKeypair => some ⟨64, 512, 3072, 0, dsaKeypairAttrs⟩
  | .dhKeypair => some ⟨1, 256, 2048, 0, dhKeypairAttrs⟩
  | .ecdsaPublicKey | .ecdhPublicKey => some ⟨1, 192, 521, 0, eccPubKeyAttrs⟩
  | .ecdsaKeypair | .ecdhKeypair => some ⟨1, 192, 521, 0, eccKeypairAttrs⟩
  | .sm2DsaPublicKey | .sm2PkePublicKey | .sm2KepPublicKey => some ⟨1, 256, 256, 0, eccPubKeyAttrs⟩
  | .sm2DsaKeypair | .sm2PkeKeypair | .sm2KepKeypair => some ⟨1, 256, 256, 0, eccKeypairAttrs⟩
  | .data => none

def TypeProps.find (props : TypeProps) (id : AttrId) : Option TypeAttr := props.typeAttrs.find? (·.id = id)

inductive Error
  | badFormat
  | badParameters
  | badState
  | excessData
  | generic
  | itemNotFound
  | notImplemented
  | notSupported
  | outOfMemory
  | security
  deriving DecidableEq

def isGpLegacyDesKeySize (type : ObjType) (sz : ℕ) : Bool :=
  cfg.compatGp10Des && ((type = .des && sz = 56) || (type = .des3 && (sz = 112 || sz = 168)))

def withParity (type : ObjType) (keySize : ℕ) : ℕ :=
  if isGpLegacyDesKeySize cfg type keySize then keySize + keySize / 7 else keySize

def checkKeySize (type : ObjType) (props : TypeProps) (keySize : ℕ) : Except Error Unit :=
  let sz := withParity cfg type keySize
  if sz % props.quanta ≠ 0 then .error .notSupported
  else if sz < props.minSize then .error .notSupported
  else if props.maxSize < sz then .error .notSupported
  else .ok ()

def getEcKeySize : ℕ → Except Error ℕ
  | 1 => .ok 192
  | 2 => .ok 224
  | 3 => .ok 256
  | 4 => .ok 384
  | 5 => .ok 521
  | 0x300 => .ok 256
  | _ => .error .notSupported

end Optee.Cryp
