import Optee.FsHtree.HashTree

/-! A computable instance of the cryptography: a polynomial checksum in place of the digest and of the
authentication tag, and no encryption. -/

namespace Optee.FsHtree

open Lib.ByteStrings

def checksum (w : ℕ) (x : List UInt8) : Bytes w :=
  ⟨leBytes w (x.foldl (fun h b => (h * 259 + b.toNat + 1) % 256 ^ w) 1), leBytes_length _ _⟩

def toyCrypto : Crypto where
  digest := checksum 32
  authEnc key iv aad plain := (plain, checksum 16 (key.toList ++ iv.toList ++ aad ++ plain.toList))
  authDec key iv aad crypt tag :=
    if checksum 16 (key.toList ++ iv.toList ++ aad ++ crypt.toList) = tag then some crypt else none
  fekEncrypt _ fek := fek
  fekDecrypt _ fek := fek

lemma toyCrypto_correct : toyCrypto.Correct where
  authDec_authEnc _ _ _ _ := if_pos rfl
  fekDecrypt_fekEncrypt _ _ := rfl

end Optee.FsHtree
