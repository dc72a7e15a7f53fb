import Montage.Export.Options
import Montage.Export.OutputPath
import Montage.Timeline.Basic

/-!
# Requests for an export

A request holds everything an export needs: the clips as they were when it was
made, the file to write and the options.
-/

namespace Montage.Export

/-- What is to be exported. -/
structure Request where
  /-- The clips, in any order. -/
  clips : List Clip
  /-- The file to write. -/
  outputPath : Text
  /-- What is rendered. -/
  options : ExportOptions

namespace Request

/-- A request for the clips of a timeline. -/
def ofTimeline (timeline : Timeline) (path : Value) (options : ExportOptions) :
    Outcome Request := do
  return ⟨timeline.clips, ← Montage.outputPath path, options⟩

/-- Reads a request. -/
def ofValue (value : Value) : Outcome Request := do
  let clips ← (← (← value.lookup "clips" (.list [])).elements).mapM Clip.ofValue
  let path ← Montage.outputPath (← value.lookup "outputPath" .null)
  return ⟨clips, path, ← ExportOptions.ofValue value⟩

end Request

end Montage.Export
