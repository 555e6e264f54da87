/-
  Strings of TOML: in double quotes with escapes, or in single quotes as they stand; either kind on one
  line or, in three quotes, on several.
-/
import ManifestGraph.Text
namespace ManifestGraph.Toml

/-- A space or tab. -/
def isSpace (c : CodePoint) : Bool := c = ' ' || c = '\t'

/-- A space, tab or line feed. -/
def isSpaceOrBreak (c : CodePoint) : Bool := isSpace c || c = '\n'

/-- A control character other than a tab. -/
def isControl (c : CodePoint) : Bool := (c.toNat < 0x20 && c ≠ '\t') || c.toNat = 0x7F

/-- A code point that may stand in a string; one on several lines may hold line feeds. -/
def isAllowed (several : Bool) (c : CodePoint) : Bool := !isControl c || (several && c = '\n')

/-- The code point of an escape of one letter. -/
def escaped? : CodePoint → Option CodePoint
  | .scalar 'b' => some '\x08'
  | .scalar 't' => some '\t'
  | .scalar 'n' => some '\n'
  | .scalar 'f' => some '\x0c'
  | .scalar 'r' => some '\r'
  | .scalar '"' => some '"'
  | .scalar '\\' => some '\\'
  | _ => none

/-- The character whose number some hexadecimal digits give. -/
def hexPoint? (ds : Text) : Option CodePoint := do
  let n ← ds.foldlM (fun acc c => (c.hexValue?).map (16 * acc + ·)) 0
  let c ← CodePoint.ofNat? n
  if c.char?.isSome then some c else none

/-- The character of an escape after its backslash, and the rest. -/
def escape? : Text → Option (CodePoint × Text)
  | [] => none
  | c :: t =>
    if c = 'u' then (if t.length < 4 then none else (hexPoint? (t.take 4)).map (·, t.drop 4))
    else if c = 'U' then (if t.length < 8 then none else (hexPoint? (t.take 8)).map (·, t.drop 8))
    else (escaped? c).map (·, t)

/-- The rest after a break of the line, with the white space around it; none if there is no break. -/
def lineBreak? (t : Text) : Option Text :=
  match t.dropWhile isSpace with
  | c :: r => if c = '\n' then some (r.dropWhile isSpaceOrBreak) else none
  | [] => none

theorem length_escape? {t r : Text} {c : CodePoint} (h : escape? t = some (c, r)) :
    r.length < t.length := by
  cases t with
  | nil => simp [escape?] at h
  | cons d t =>
    simp only [escape?] at h
    split at h
    · split at h
      · simp at h
      · simp only [Option.map_eq_some_iff, Prod.mk.injEq] at h
        obtain ⟨_, _, _, rfl⟩ := h
        simp only [List.length_drop, List.length_cons]; omega
    · split at h
      · split at h
        · simp at h
        · simp only [Option.map_eq_some_iff, Prod.mk.injEq] at h
          obtain ⟨_, _, _, rfl⟩ := h
          simp only [List.length_drop, List.length_cons]; omega
      · simp only [Option.map_eq_some_iff, Prod.mk.injEq] at h
        obtain ⟨_, _, _, rfl⟩ := h
        simp

theorem length_lineBreak? {t r : Text} (h : lineBreak? t = some r) : r.length ≤ t.length := by
  have hle : (t.dropWhile isSpace).length ≤ t.length := (List.dropWhile_sublist isSpace).length_le
  unfold lineBreak? at h
  split at h
  · next c u e =>
    split at h
    · have hu : (u.dropWhile isSpaceOrBreak).length ≤ u.length := (List.dropWhile_sublist _).length_le
      simp only [Option.some.injEq] at h
      subst h
      rw [e] at hle
      simp at hle
      omega
    · simp at h
  · simp at h

/-- The content of a string in double quotes, after the opening ones, and the rest after the closing
ones. A backslash that ends a line removes the white space around the break. -/
def basic? (several : Bool) (t : Text) : Option (Text × Text) :=
  match t with
  | [] => none
  | c :: t =>
    if c = '"' then
      if !several then some ([], t)
      else match t with
        | .scalar '"' :: .scalar '"' :: rest => some ([], rest)
        | t => (basic? several t).map fun (content, rest) => (c :: content, rest)
    else if c = '\\' then
      match _hb : if several then lineBreak? t else none with
      | some after => basic? several after
      | none =>
        match _he : escape? t with
        | some (e, after) => (basic? several after).map fun (content, rest) => (e :: content, rest)
        | none => none
    else if isAllowed several c then
      (basic? several t).map fun (content, rest) => (c :: content, rest)
    else none
termination_by t.length
decreasing_by
  · simp
  · split at _hb
    · have := length_lineBreak? _hb
      simp; omega
    · simp at _hb
  · have := length_escape? _he
    simp; omega
  · simp

/-- The content of a string in single quotes, and the rest. -/
def literal? : Text → Option (Text × Text)
  | [] => none
  | c :: t =>
    if c = '\'' then some ([], t)
    else if isAllowed false c then
      (literal? t).map fun (content, rest) => (c :: content, rest)
    else none

/-- The content of a string in three single quotes, and the rest. -/
def literalLines? : Text → Option (Text × Text)
  | [] => none
  | .scalar '\'' :: .scalar '\'' :: .scalar '\'' :: t => some ([], t)
  | c :: t =>
    if isAllowed true c then
      (literalLines? t).map fun (content, rest) => (c :: content, rest)
    else none

/-- The text without a line feed at its start. -/
def dropBreak : Text → Text
  | .scalar '\n' :: t => t
  | t => t

/-- Up to two more quotes after the closing ones belong to the content. -/
def withMoreQuotes (quote : CodePoint) (content rest : Text) : Text × Text :=
  match rest with
  | c :: d :: t =>
    if c = quote then
      if d = quote then (content ++ [quote, quote], t) else (content ++ [quote], d :: t)
    else (content, rest)
  | [c] => if c = quote then (content ++ [quote], []) else (content, rest)
  | [] => (content, [])

/-- A string, and the rest. -/
def string? : Text → Option (Text × Text)
  | .scalar '"' :: .scalar '"' :: .scalar '"' :: t =>
    (basic? true (dropBreak t)).map fun (content, rest) => withMoreQuotes '"' content rest
  | .scalar '"' :: t => basic? false t
  | .scalar '\'' :: .scalar '\'' :: .scalar '\'' :: t =>
    (literalLines? (dropBreak t)).map fun (content, rest) => withMoreQuotes '\'' content rest
  | .scalar '\'' :: t => literal? t
  | _ => none

/-- A code point of a key without quotes. -/
def isBareKey (c : CodePoint) : Bool := c.isLetter || c.isDigit || c = '-' || c = '_'

/-- One part of a key, and the rest. Quotes stand alone here, so three of them open an empty part. -/
def keyPart? : Text → Option (Text × Text)
  | [] => none
  | c :: t =>
    if isBareKey c then some ((c :: t).takeWhile isBareKey, (c :: t).dropWhile isBareKey)
    else if c = '\'' then literal? t
    else if c = '"' then basic? false t
    else none

end ManifestGraph.Toml
