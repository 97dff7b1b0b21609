import HotComponents.Digest.Blake3
import HotComponents.Key
import HotComponents.Text.Percent

/-!
# Digests of source text

A source text compiled for a target is known by the hash of the target's octet followed by the
text. Two texts with one digest are taken to be one text.
-/

namespace HotComponents

/-- The 32 octets of a digest. -/
structure SourceDigest where
  octets : List UInt8
deriving DecidableEq, Repr, Inhabited

namespace SourceDigest

/-- The octet of a target in front of a text. -/
def targetOctet : Target → UInt8
  | .dom => 0
  | .ssr => 1

/-- The digest of `code` compiled for `target`. -/
def of (code : String) (target : Target) : SourceDigest :=
  ⟨Digest.Blake3.hash (ByteArray.empty.push (targetOctet target) ++ code.toUTF8)⟩

/-- Two small hexadecimal digits for each octet. -/
def hex (digest : SourceDigest) : String :=
  String.ofList <| digest.octets.flatMap fun b =>
    [Text.smallDigits.getD (b.toNat / 16) '0', Text.smallDigits.getD (b.toNat % 16) '0']

/-- The first sixteen digits, by which a digest is shown. -/
def short (digest : SourceDigest) : String := String.ofList (digest.hex.toList.take 16)

end SourceDigest

end HotComponents
