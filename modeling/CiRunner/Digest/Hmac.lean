import CiRunner.Digest.Sha256
import CiRunner.Text.Hex

/-!
# Keyed digests

The digest of a message under a key: the key is brought to the size of a block and mixed with two
fixed bytes, and the message is digested behind the one, the outcome behind the other.
-/

namespace CiRunner.Digest.Hmac

/-- A key in the size of a block: a longer one is digested, a shorter one filled with zeros. -/
def blockKey (key : List UInt8) : List UInt8 :=
  let short := if Sha256.blockSize < key.length then Sha256.digest key else key
  short ++ List.replicate (Sha256.blockSize - short.length) 0

/-- The digest of a message under a key. -/
def digest (key message : List UInt8) : List UInt8 :=
  let key := blockKey key
  let inner := Sha256.digest (key.map (· ^^^ 0x36) ++ message)
  Sha256.digest (key.map (· ^^^ 0x5c) ++ inner)

/-- The digest of a message under a key, in lower-case hexadecimal digits. -/
def hexDigest (key message : List UInt8) : String := Text.hexOfBytes (digest key message)

end CiRunner.Digest.Hmac
