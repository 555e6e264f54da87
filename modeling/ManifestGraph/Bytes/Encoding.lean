/-
  The encoding of a document that does not name it: a byte order mark decides, else the places of
  the zero bytes among the first four. Lone surrogates are let through in every encoding.
-/
import ManifestGraph.Bytes.Utf8
namespace ManifestGraph

/-- An encoding of text; `bigEndian` says that the high byte of a unit comes first. -/
inductive Encoding where
  | utf8
  | utf16 (bigEndian : Bool)
  | utf32 (bigEndian : Bool)
  deriving DecidableEq

namespace Encoding

/-- The encoding of a document, and the document without its byte order mark. -/
def detect : Bytes → Encoding × Bytes
  | 0x00 :: 0x00 :: 0xFE :: 0xFF :: bs => (.utf32 true, bs)
  | 0xFF :: 0xFE :: 0x00 :: 0x00 :: bs => (.utf32 false, bs)
  | 0xFE :: 0xFF :: bs => (.utf16 true, bs)
  | 0xFF :: 0xFE :: bs => (.utf16 false, bs)
  | 0xEF :: 0xBB :: 0xBF :: bs => (.utf8, bs)
  | bs => (match bs with
    | a :: b :: c :: d :: _ =>
      if a = 0 then (if b = 0 then .utf32 true else .utf16 true)
      else if b = 0 then (if c = 0 && d = 0 then .utf32 false else .utf16 false)
      else .utf8
    | [a, b] => if a = 0 then .utf16 true else if b = 0 then .utf16 false else .utf8
    | _ => .utf8, bs)

/-- The numbers of the two-byte units; none if a byte is left over. -/
def units16 (bigEndian : Bool) : Bytes → Option (List Nat)
  | [] => some []
  | [_] => none
  | a :: b :: bs =>
    (units16 bigEndian bs).map
      ((if bigEndian then a.toNat * 256 + b.toNat else b.toNat * 256 + a.toNat) :: ·)

/-- The code points of two-byte units: a high half followed by a low half is one character. -/
def ofUnits16 : List Nat → Text
  | [] => []
  | [u] => (CodePoint.ofNat? u).toList
  | u :: v :: us =>
    if 0xD800 ≤ u && u < 0xDC00 && 0xDC00 ≤ v && v < 0xE000 then
      (CodePoint.ofNat? (0x10000 + (u - 0xD800) * 1024 + (v - 0xDC00))).toList ++ ofUnits16 us
    else (CodePoint.ofNat? u).toList ++ ofUnits16 (v :: us)

/-- The code points of four-byte units; none if bytes are left over or a number is too large. -/
def ofUnits32 (bigEndian : Bool) : Bytes → Option Text
  | [] => some []
  | a :: b :: c :: d :: bs => do
    let n :=
      if bigEndian then ((a.toNat * 256 + b.toNat) * 256 + c.toNat) * 256 + d.toNat
      else ((d.toNat * 256 + c.toNat) * 256 + b.toNat) * 256 + a.toNat
    let p ← CodePoint.ofNat? n
    let t ← ofUnits32 bigEndian bs
    some (p :: t)
  | _ => none

/-- The text of a document in its own encoding; none if it is malformed. -/
def decode (bs : Bytes) : Option Text :=
  match detect bs with
  | (.utf8, bs) => (Utf8.decodeHalves bs).toOption
  | (.utf16 bigEndian, bs) => (units16 bigEndian bs).map ofUnits16
  | (.utf32 bigEndian, bs) => ofUnits32 bigEndian bs

end Encoding
end ManifestGraph
