/-
  Byte strings as lists, cut at separators and at line ends.
-/
import ManifestGraph.Text
namespace ManifestGraph

/-- A finite sequence of bytes. -/
abbrev Bytes := List UInt8

namespace Bytes

/-- White space in the sense of ASCII: tab, the line breaks, form feed and space. -/
def isBlank (b : UInt8) : Bool := b = 0x20 || (0x09 ≤ b && b ≤ 0x0D)

/-- Nothing but ASCII white space. -/
def allBlank (bs : Bytes) : Bool := bs.all isBlank

/-- The bytes before and after the first occurrence of `sub`. -/
def breakOn (sub : Bytes) : Bytes → Option (Bytes × Bytes)
  | [] => if sub.isEmpty then some ([], []) else none
  | b :: bs =>
    if sub.isPrefixOf (b :: bs) then some ([], (b :: bs).drop sub.length)
    else (breakOn sub bs).map fun (before, after) => (b :: before, after)

/-- The pieces between the occurrences of `sep`, found from the left without overlap; `skip` bytes
of an occurrence are still to be passed over. -/
def splitOnFrom (sep : Bytes) : Nat → Bytes → List Bytes
  | _, [] => [[]]
  | skip + 1, _ :: bs => splitOnFrom sep skip bs
  | 0, b :: bs =>
    if sep.isPrefixOf (b :: bs) then [] :: splitOnFrom sep (sep.length - 1) bs
    else match splitOnFrom sep 0 bs with
      | piece :: pieces => (b :: piece) :: pieces
      | [] => [[b]]

/-- The pieces between the occurrences of a separator that is not empty. -/
def splitOn (sep : Bytes) (bs : Bytes) : List Bytes := splitOnFrom sep 0 bs

/-- The lines of a byte string, ended by LF, CR or CR LF; no line follows a final line end. -/
def lines : Bytes → List Bytes
  | [] => []
  | 0x0D :: 0x0A :: bs => [] :: lines bs
  | b :: bs =>
    if b = 0x0A || b = 0x0D then [] :: lines bs
    else match lines bs with
      | line :: rest => (b :: line) :: rest
      | [] => [[b]]

end Bytes
end ManifestGraph
