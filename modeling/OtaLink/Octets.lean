import OtaLink.Protocol
import OtaLink.Lib.Sha256
import OtaLink.Lib.Symbolic

/-!
# Two alphabets

Symbolic octets model HMAC-SHA256 as an injective, unforgeable function and SHA-256 as
an injective one. They are the alphabet of every statement about an attacker. Machine
octets carry the two functions themselves.

## Main definitions

* `Octet` — symbolic octets over machine octets.
* `pskOctets` — a pre-shared key no part of which is public.
* `octets` — public octets.
-/

namespace OtaLink
open Lib

/-- A symbolic octet. -/
abbrev Octet := Lib.Sym UInt8

instance : Alphabet Octet where
  decEq := inferInstance
  ofByte := .lit
  toByte
    | .lit b => b
    | _ => 0
  toByte_ofByte _ := rfl
  hmac := Sym.mac
  length_hmac := Sym.length_mac
  espSha := Sym.sha
  length_espSha := Sym.length_sha

instance : Alphabet UInt8 where
  decEq := inferInstance
  ofByte := id
  toByte := id
  toByte_ofByte _ := rfl
  hmac := Hmac.hmac sha256 64
  length_hmac := Hmac.length_hmac sha256 64 length_sha256
  espSha := sha256
  length_espSha := length_sha256

/-- A pre-shared key of `n` secret octets. -/
def pskOctets (n : ℕ) : List Octet := (List.range n).map .secret

/-- A text of machine octets. -/
def octets (bytes : List UInt8) : List Octet := bytes.map .lit

end OtaLink
