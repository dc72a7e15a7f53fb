import Montage.Value.Operations

/-!
# Output resolutions

An export has one of two fixed sizes, or the size of the first source.
-/

namespace Montage.Resolution

/-- The name of the resolution that is read from the first source. -/
def ofSource : Text := "original"

/-- The names with a fixed size. -/
def fixedSizes : List (Text × Int × Int) := [("720p", 1280, 720), ("1080p", 1920, 1080)]

/-- All names of resolutions. -/
def names : List Text := fixedSizes.map (·.1) ++ [ofSource]

/-- The fixed size that a value names, none for that of the first source. -/
def dimensions? (name : Value) : Outcome (Option (Int × Int)) :=
  if name.equal (.text ofSource) then .ok none
  else do
    name.checkKey
    match fixedSizes.find? fun entry => name.equal (.text entry.1) with
    | some (_, size) => return some size
    | none => reject (.unknownResolution name)

end Montage.Resolution
