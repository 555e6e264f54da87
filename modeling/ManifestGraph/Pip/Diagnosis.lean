/-
  What a failed pip run means, read off what it wrote: the first kind of error with one of its
  fragments in the text.
-/
import ManifestGraph.Failure
namespace ManifestGraph.Pip

/-- A kind of error, the fragments that betray it, and the words before the text. -/
structure Symptom where
  fragments : List Text
  family : CatalogFamily
  words : Text

/-- The kinds of errors, in order of precedence. -/
def symptoms : List Symptom := [
  ⟨["Invalid requirement", "Could not parse", "invalid requirement", "InvalidVersion",
      "Invalid version"], .syntaxIssues, "Invalid syntax in requirements file"⟩,
  ⟨["Could not find a version", "No matching distribution"], .packageNotFound, "Package not found"⟩,
  ⟨["requires Python", "Requires-Python"], .interpreterUnsupported, "Python version mismatch"⟩,
  ⟨["Conflict", "conflicting", "incompatible"], .conflictingRequirements,
    "Conflicting package requirements"⟩]

/-- The structured error of a failed installation. -/
def installFailure (why : Text) : CatalogError :=
  { family := .installation, detail := "Pip install failed: " ++ why }

/-- The structured error that the error output of a failed run stands for. -/
def classify (stderr : Text) : CatalogError :=
  match symptoms.find? fun s => s.fragments.any fun f => f.isInfixOf stderr with
  | some s => { family := s.family, detail := s.words ++ ": " ++ stderr }
  | none => installFailure stderr

end ManifestGraph.Pip
