/-
  A value shown inside a message or a requirement: a text as it is, anything else as a literal, with
  `True`, `False` and `None`, texts in quotes, and dates as constructor calls where they stand inside
  another value.
-/
import ManifestGraph.Binary64.Shortest
import ManifestGraph.Data
import ManifestGraph.Text.Quoted
namespace ManifestGraph

/-- A number padded with zeros to a width. -/
def Text.padded (width n : Nat) : Text :=
  let ds := ofNat n
  List.replicate (width - ds.length) (CodePoint.scalar '0') ++ ds

/-- Numbers shown in messages. -/
def Binary64.shownLayout : Binary64.Layout := .plain "nan" "inf"

namespace Date

/-- A day as `2020-01-31`. -/
def shown (d : Date) : Text :=
  Text.padded 4 d.year ++ "-" ++ Text.padded 2 d.month ++ "-" ++ Text.padded 2 d.day

/-- The arguments of a day's literal. -/
def arguments (d : Date) : List Text := [d.year, d.month, d.day].map Text.ofNat

end Date

namespace TimeOfDay

/-- A time as `10:20:30` or `10:20:30.000001`. -/
def shown (t : TimeOfDay) : Text :=
  let whole := Text.join ":" ([t.hour, t.minute, t.second].map (Text.padded 2))
  if t.microsecond = 0 then whole else whole ++ "." ++ Text.padded 6 t.microsecond

/-- The arguments of a time's literal: seconds and microseconds only where they are not zero. -/
def arguments (t : TimeOfDay) : List Text :=
  let tail :=
    if t.microsecond ≠ 0 then [t.second, t.microsecond]
    else if t.second ≠ 0 then [t.second]
    else []
  ([t.hour, t.minute] ++ tail).map Text.ofNat

end TimeOfDay

namespace Moment

/-- A distance from universal time as `+01:30`. -/
def shownOffset (minutes : Int) : Text :=
  let sign : Text := if minutes < 0 then "-" else "+"
  sign ++ Text.padded 2 (minutes.natAbs / 60) ++ ":" ++ Text.padded 2 (minutes.natAbs % 60)

/-- The literal of a time zone. -/
def zoneLiteral (minutes : Int) : Text :=
  if minutes = 0 then "datetime.timezone.utc"
  else
    let seconds := minutes * 60
    let days := seconds.fdiv 86400
    let rest := seconds.fmod 86400
    let parts : List Text :=
      (if days ≠ 0 then ["days=" ++ Text.ofInt days] else [])
        ++ (if rest ≠ 0 then ["seconds=" ++ Text.ofInt rest] else [])
    "datetime.timezone(datetime.timedelta(" ++ Text.join ", " parts ++ "))"

/-- A moment on its own. -/
def shown : Moment → Text
  | .date d => d.shown
  | .time t => t.shown
  | .both d t offset => d.shown ++ " " ++ t.shown ++ (offset.map shownOffset).getD []

/-- A moment inside another value. -/
def literal : Moment → Text
  | .date d => "datetime.date(" ++ Text.join ", " d.arguments ++ ")"
  | .time t => "datetime.time(" ++ Text.join ", " t.arguments ++ ")"
  | .both d t offset =>
    let zone := (offset.map fun minutes => ("tzinfo=" : Text) ++ zoneLiteral minutes).toList
    "datetime.datetime(" ++ Text.join ", " (d.arguments ++ t.arguments ++ zone) ++ ")"

end Moment

namespace Data

mutual

/-- A value as a literal. -/
def literal : Data → Text
  | .null => "None"
  | .bool true => "True"
  | .bool false => "False"
  | .int n => Text.ofInt n
  | .float x => Binary64.shownLayout.render x
  | .text t => t.quoted
  | .moment m => m.literal
  | .list items => "[" ++ Text.join ", " (literals items) ++ "]"
  | .record members => "\x7b" ++ Text.join ", " (memberLiterals members) ++ "\x7d"

/-- The literals of some values. -/
def literals : List Data → List Text
  | [] => []
  | d :: ds => literal d :: literals ds

/-- The literals of some members, each after its key. -/
def memberLiterals : List (Text × Data) → List Text
  | [] => []
  | (key, d) :: ms => (key.quoted ++ ": " ++ literal d) :: memberLiterals ms

end

/-- A value shown on its own. -/
def shown : Data → Text
  | .text t => t
  | .moment m => m.shown
  | d => d.literal

/-- The most digits of an integer that is shown. -/
def maxShownDigits : Nat := 4300

/-- The least number that is too long to be shown. -/
def shownLimit : Nat := Nat.pow 10 maxShownDigits

/-- What is said of an integer that is too long to be shown. -/
def tooLongToShow : Text :=
  "Exceeds the limit (" ++ Text.ofNat maxShownDigits ++ " digits) for integer string conversion; "
    ++ "use sys.set_int_max_str_digits() to increase the limit"

mutual

/-- All integers in a value are short enough to be shown. -/
def isShowable : Data → Bool
  | .int n => n.natAbs < shownLimit
  | .list items => allShowable items
  | .record members => membersShowable members
  | _ => true

/-- All integers in some values are short enough to be shown. -/
def allShowable : List Data → Bool
  | [] => true
  | d :: ds => isShowable d && allShowable ds

/-- All integers in some members are short enough to be shown. -/
def membersShowable : List (Text × Data) → Bool
  | [] => true
  | (_, d) :: ms => isShowable d && membersShowable ms

end

/-- Counts as true: anything but null, false, zero, and what is empty. -/
def isTruthy : Data → Bool
  | .null => false
  | .bool b => b
  | .int n => n ≠ 0
  | .float x => !x.isZero
  | .text t => !t.isEmpty
  | .moment _ => true
  | .list items => !items.isEmpty
  | .record members => !members.isEmpty

end Data
end ManifestGraph
