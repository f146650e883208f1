import QueryKit.Digest.Sha256

/-!
# Keys of cached results

- `keyBytes`: the bytes of a list of texts, each after its length in eight bytes, the lowest byte
  first. The lengths keep the texts apart.
- `cacheKey`: the hash of these bytes under a fixed prefix.
-/

namespace QueryKit

/-- A number in `count` bytes, the lowest byte first. -/
def littleEndian : Nat → Nat → List UInt8
  | 0, _ => []
  | count + 1, n => UInt8.ofNat n :: littleEndian count (n / 256)

/-- A text in bytes after its length. -/
def keyPart (s : String) : List UInt8 :=
  littleEndian 8 s.utf8ByteSize ++ s.toUTF8.toList

/-- The bytes from which a key is made. -/
def keyBytes (parts : List String) : List UInt8 :=
  parts.flatMap keyPart

/-- The key of a list of texts. -/
def cacheKey (parts : List String) : String :=
  "burrow:" ++ Sha256.hex (keyBytes parts)

end QueryKit
