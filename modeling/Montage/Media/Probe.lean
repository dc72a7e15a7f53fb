import Montage.Media.Path
import Montage.Media.Programs
import Montage.Media.Report
import Montage.Timeline.Clip

/-!
# Probing media files

The probe is asked about a file that exists, and its report is read.
-/

namespace Montage.Media

/-- What the probe prints and ends with, whatever file it is asked about. -/
structure ProbeReply where
  /-- What it prints. -/
  output : Value
  /-- What it complains about. -/
  complaint : Value
  /-- The number it ends with, zero for success. -/
  status : Value

/-- The report in what the probe printed, which must be a text. -/
def reportOf (reply : ProbeReply) : Outcome Value :=
  if reply.status.truthy then
    .error (.unreadableMedia ("FFprobe failed: " ++ reply.complaint.display))
  else
    match reply.output with
    | .text output => Json.readOr (.unreadableMedia "Failed to parse FFprobe output") output
    | _ => .error .illTyped

/-- What is known about a media file. -/
def metadata (machine : Machine) (reply : ProbeReply) (path : Value) : Noting Metadata := do
  if (← Noting.ofOutcome (machine.disk.holds path)) then
    let _ ← probeProgram machine
    let report ← Noting.ofOutcome (reportOf reply)
    Noting.ofOutcome (Metadata.ofReport report path)
  else throw (.fileMissing ("Video file not found: " ++ path.display))

/-- A positive measure as a value, null for zero. -/
def measure (n : Int) : Value := if n = 0 then .null else .int n

/-- The source that a media file is, with its absolute path. -/
def source (machine : Machine) (reply : ProbeReply) (directory : Text) (path : Value) :
    Noting Source := do
  let found ← metadata machine reply path
  match path with
  | .text path =>
    return ⟨.text (Path.absolute directory path), .real found.duration, measure found.width,
      measure found.height⟩
  | _ => throw .illTyped

/-- The width and height that a source is shown with. -/
def dimensions (machine : Machine) (reply : ProbeReply) (source : Source) : Noting Value := do
  let (width, height) := (← metadata machine reply source.path).displaySize
  return .list [.int width, .int height]

end Montage.Media
