/-
  UTF-8: writing a text, and reading bytes strictly, or with a replacement character for every
  malformed run. A malformed run is the longest beginning of a code point that goes wrong. A text with
  halves of surrogate pairs has no UTF-8; where it must not be written its first run of them is told.
-/
import ManifestGraph.Bytes
namespace ManifestGraph.Utf8

/-- The bytes of one code point; a lone surrogate is written like any other of its size. -/
def encodePoint (c : CodePoint) : Bytes :=
  let n := c.toNat
  if n < 0x80 then [n.toUInt8]
  else if n < 0x800 then [(0xC0 + n / 64).toUInt8, (0x80 + n % 64).toUInt8]
  else if n < 0x10000 then
    [(0xE0 + n / 4096).toUInt8, (0x80 + n / 64 % 64).toUInt8, (0x80 + n % 64).toUInt8]
  else
    [(0xF0 + n / 262144).toUInt8, (0x80 + n / 4096 % 64).toUInt8, (0x80 + n / 64 % 64).toUInt8,
      (0x80 + n % 64).toUInt8]

/-- The bytes of a text. -/
def encode (t : Text) : Bytes := t.flatMap encodePoint

/-- What is wrong with a malformed run. -/
inductive Reason where
  | startByte
  | continuation
  | truncated
  deriving DecidableEq

/-- One step of reading: a code point with its size, or a malformed run. -/
inductive Unit where
  | point (c : CodePoint) (size : Nat)
  | malformed (run : Bytes) (reason : Reason)
  deriving DecidableEq

/-- A byte that continues a code point. -/
def isTail (b : UInt8) : Bool := 0x80 ≤ b && b ≤ 0xBF

/-- The bits that a continuing byte carries. -/
def tailBits (b : UInt8) : Nat := b.toNat - 0x80

/-- The second bytes that may follow a first byte of three. -/
def secondOfThree (halves : Bool) (a b : UInt8) : Bool :=
  if a = 0xE0 then 0xA0 ≤ b && b ≤ 0xBF
  else if a = 0xED && !halves then 0x80 ≤ b && b ≤ 0x9F
  else isTail b

/-- The second bytes that may follow a first byte of four. -/
def secondOfFour (a b : UInt8) : Bool :=
  if a = 0xF0 then 0x90 ≤ b && b ≤ 0xBF
  else if a = 0xF4 then 0x80 ≤ b && b ≤ 0x8F
  else isTail b

/-- A code point read from `size` bytes. -/
def point (n size : Nat) : Unit := .point ((CodePoint.ofNat? n).getD default) size

/-- Reads bytes step by step; `halves` allows lone surrogates. -/
def units (halves : Bool) : Bytes → List Unit
  | [] => []
  | a :: t =>
    if a < 0x80 then point a.toNat 1 :: units halves t
    else if a < 0xC2 then .malformed [a] .startByte :: units halves t
    else if a < 0xE0 then
      match t with
      | [] => [.malformed [a] .truncated]
      | b :: t2 =>
        if isTail b then point ((a.toNat - 0xC0) * 64 + tailBits b) 2 :: units halves t2
        else .malformed [a] .continuation :: units halves (b :: t2)
    else if a < 0xF0 then
      match t with
      | [] => [.malformed [a] .truncated]
      | b :: t2 =>
        if secondOfThree halves a b then
          match t2 with
          | [] => [.malformed [a, b] .truncated]
          | c :: t3 =>
            if isTail c then
              point ((a.toNat - 0xE0) * 4096 + tailBits b * 64 + tailBits c) 3 :: units halves t3
            else .malformed [a, b] .continuation :: units halves (c :: t3)
        else .malformed [a] .continuation :: units halves (b :: t2)
    else if a < 0xF5 then
      match t with
      | [] => [.malformed [a] .truncated]
      | b :: t2 =>
        if secondOfFour a b then
          match t2 with
          | [] => [.malformed [a, b] .truncated]
          | c :: t3 =>
            if isTail c then
              match t3 with
              | [] => [.malformed [a, b, c] .truncated]
              | d :: t4 =>
                if isTail d then
                  point ((a.toNat - 0xF0) * 262144 + tailBits b * 4096 + tailBits c * 64
                    + tailBits d) 4 :: units halves t4
                else .malformed [a, b, c] .continuation :: units halves (d :: t4)
            else .malformed [a, b] .continuation :: units halves (c :: t3)
        else .malformed [a] .continuation :: units halves (b :: t2)
    else .malformed [a] .startByte :: units halves t

/-- The first malformed run of some bytes, with its place. -/
structure Malformed where
  position : Nat
  run : Bytes
  reason : Reason
  deriving DecidableEq

/-- The text of a list of steps that starts at `position`, up to the first malformed run. -/
def strict (position : Nat) : List Unit → Except Malformed Text
  | [] => .ok []
  | .point c size :: us => (strict (position + size) us).map (c :: ·)
  | .malformed run reason :: _ => .error ⟨position, run, reason⟩

/-- Reads UTF-8, refusing anything malformed. -/
def decode (bs : Bytes) : Except Malformed Text := strict 0 (units false bs)

/-- Reads UTF-8 in which lone surrogates may stand. -/
def decodeHalves (bs : Bytes) : Except Malformed Text := strict 0 (units true bs)

/-- Reads UTF-8 with a replacement character in place of every malformed run. -/
def decodeLossy (bs : Bytes) : Text :=
  (units false bs).map fun
    | .point c _ => c
    | .malformed _ _ => .scalar '\uFFFD'

/-- The words for what is wrong. -/
def Reason.message : Reason → Text
  | .startByte => "invalid start byte"
  | .continuation => "invalid continuation byte"
  | .truncated => "unexpected end of data"

/-- The message about a malformed run. -/
def Malformed.message (m : Malformed) : Text :=
  let place : Text := match m.run with
    | [b] => "byte 0x" ++ Text.hex 2 b.toNat ++ " in position " ++ Text.ofNat m.position
    | _ => "bytes in position " ++ Text.ofNat m.position ++ "-"
        ++ Text.ofNat (m.position + m.run.length - 1)
  "'utf-8' codec can't decode " ++ place ++ ": " ++ m.reason.message

/-- A run of halves in a text, which have no UTF-8, with the place and the first of them. -/
structure Unwritable where
  position : Nat
  half : CodePoint
  length : Nat
  deriving DecidableEq

/-- The first run of halves in a text whose first code point is at `position`, if there is one. -/
def unwritable? (position : Nat) : Text → Option Unwritable
  | [] => none
  | .scalar _ :: t => unwritable? (position + 1) t
  | .surrogate n :: t =>
    some ⟨position, .surrogate n, 1 + (t.takeWhile fun c => c.char?.isNone).length⟩

/-- The message about a run of halves. -/
def Unwritable.message (u : Unwritable) : Text :=
  let place : Text :=
    if u.length = 1 then
      "character '\\u" ++ Text.hex 4 u.half.toNat ++ "' in position " ++ Text.ofNat u.position
    else
      "characters in position " ++ Text.ofNat u.position ++ "-"
        ++ Text.ofNat (u.position + u.length - 1)
  "'utf-8' codec can't encode " ++ place ++ ": surrogates not allowed"

end ManifestGraph.Utf8
