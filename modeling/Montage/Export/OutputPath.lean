import Montage.Value.Operations

/-!
# The file an export writes

Exports are MP4 files: a path with another ending gets that one added.
-/

namespace Montage

/-- The name of an exported file unless told otherwise. -/
def defaultOutputPath : Text := "exported-video.mp4"

/-- Whether a path ends in `.mp4`, in any case. -/
def isMp4 (path : Text) : Bool :=
  (".mp4" : Text).points.isSuffixOf (path.map Char.toLower).points

/-- The path an export writes to: the default for everything empty, and always
with the ending of an MP4 file. -/
def outputPath (path : Value) : Outcome Text :=
  match path with
  | .text s =>
    let path := if s.isEmpty then defaultOutputPath else s
    .ok (if isMp4 path then path else path ++ ".mp4")
  | path => if path.truthy then .error .noMembers else .ok defaultOutputPath

end Montage
