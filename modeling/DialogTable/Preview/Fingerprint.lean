import DialogTable.Digest.Sha256

/-!
# Fingerprints of flow previews

A preview of a flow depends on three texts: its name, its description and the context of the
project. Their fingerprint is the digest of the texts, each with its length in front, so that text
cannot move from one part to another unseen.
-/

namespace DialogTable.Preview

/-- A number in bytes, least significant first. -/
def littleEndian (width n : Nat) : List UInt8 :=
  match width with
  | 0 => []
  | width + 1 => UInt8.ofNat n :: littleEndian width (n / 256)

/-- A text in bytes with their number in front. -/
def framed (text : String) : List UInt8 :=
  let bytes := text.toUTF8.data.toList
  littleEndian 8 bytes.length ++ bytes

/-- The bytes that are digested. -/
def keyBytes (name description context : String) : List UInt8 :=
  framed name ++ framed description ++ framed context

/-- The digest of the three texts in hexadecimal digits. -/
structure Fingerprint where
  hex : String
  deriving DecidableEq, Hashable, Repr

/-- The fingerprint of three texts by a digest. -/
def Fingerprint.ofWith (digest : List UInt8 → List UInt8) (name description context : String) :
    Fingerprint :=
  { hex := Digest.toHex (digest (keyBytes name description context)) }

/-- The fingerprint of three texts. -/
def Fingerprint.of (name description context : String) : Fingerprint :=
  .ofWith Digest.sha256 name description context

end DialogTable.Preview
