import CiRunner.Digest.Hmac
import CiRunner.Text.Utf8

/-!
# Signatures of notifications

A notification is signed with the digest of its body under a secret that both sides know.  Without a
secret nothing is checked.

`verify?` formalises `verify_signature`.
-/

namespace CiRunner.Signature

/-- Whether a text has ASCII characters only. -/
def isAscii (s : String) : Bool := s.toList.all fun c => c.toNat < 128

/-- The signature of a body. -/
def ofBody (secret : String) (body : List UInt8) : String :=
  "sha256=" ++ Digest.Hmac.hexDigest (Text.Utf8.encode secret) body

/-- Whether a signature is right; nothing if it cannot be compared, since it is not ASCII. -/
def verify? (body : List UInt8) (signature : Option String) (secret : String) : Option Bool :=
  if secret = "" then some true
  else
    match signature with
    | none | some "" => some false
    | some given => if isAscii given then some (given == ofBody secret body) else none

end CiRunner.Signature
