/-
  The version of uv, read from what `uv --version` prints: the first three numbers with dots between
  them, in digits of any script.
-/
import ManifestGraph.Failure
import ManifestGraph.Text.Blank
namespace ManifestGraph.Uv

/-- A version of three numbers. -/
structure Version where
  major : Nat
  minor : Nat
  patch : Nat
  deriving DecidableEq, Inhabited

namespace Version

/-- The first release that exports CycloneDX documents. -/
def minimum : Version := ⟨0, 9, 11⟩

/-- Order of versions, the first difference deciding. -/
def lt (a b : Version) : Bool :=
  a.major < b.major || (a.major = b.major
    && (a.minor < b.minor || (a.minor = b.minor && a.patch < b.patch)))

/-- A version as text. -/
def shown (v : Version) : Text :=
  Text.ofNat v.major ++ "." ++ Text.ofNat v.minor ++ "." ++ Text.ofNat v.patch

end Version

/-- A digit of any script. -/
def isDigit (c : CodePoint) : Bool := c.digitValue?.isSome

/-- The digits at the start, at least one, and the rest. -/
def digits? (t : Text) : Option (Text × Text) :=
  match t.takeWhile isDigit with
  | [] => none
  | ds => some (ds, t.dropWhile isDigit)

/-- The rest after a dot. -/
def dot? : Text → Option Text
  | .scalar '.' :: t => some t
  | _ => none

/-- The three numerals of a version that starts here. -/
def tripleHere? (t : Text) : Option (List Text) := do
  let (major, t) ← digits? t
  let (minor, t) ← digits? (← dot? t)
  let (patch, _) ← digits? (← dot? t)
  some [major, minor, patch]

/-- The three numerals of the first version in a text. -/
def triple? : Text → Option (List Text)
  | [] => none
  | c :: t =>
    match tripleHere? (c :: t) with
    | some found => some found
    | none => triple? t

/-- The value of a numeral in digits of any script. -/
def numeralValue (ds : Text) : Nat :=
  ds.foldl (fun acc c => 10 * acc + (c.digitValue?).getD 0) 0

/-- The message about a numeral with too many digits. -/
def tooLong (ds : Text) : Text :=
  "Exceeds the limit (" ++ Text.ofNat Text.maxNumeralDigits
    ++ " digits) for integer string conversion: value has " ++ Text.ofNat ds.length
    ++ " digits; use sys.set_int_max_str_digits() to increase the limit"

/-- The version that a binary reports, which must be recent enough. -/
def checkVersion (binary output : Text) : Except Failure Version :=
  match triple? output with
  | some [major, minor, patch] =>
    match [major, minor, patch].find? fun ds => Text.maxNumeralDigits < ds.length with
    | some ds => .error (.of (.foreign .value (tooLong ds)))
    | none =>
      let v : Version := ⟨numeralValue major, numeralValue minor, numeralValue patch⟩
      if v.lt Version.minimum then
        .error (.of (.inFamily .general (binary ++ " version " ++ v.shown
          ++ " is not supported. Minimum required version is " ++ Version.minimum.shown)))
      else .ok v
  | _ => .error (.of (.inFamily .general ("unable to parse " ++ binary ++ " version from output: " ++ output)))

end ManifestGraph.Uv
