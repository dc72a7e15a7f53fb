import Montage.Settings

/-!
# The programs that handle media

The engine that renders and the probe that reports on files are programs of the
machine. A setting names them if it leads to something, else they are on the
search path, and the engine may come with the editor.
-/

namespace Montage.Media

/-- The location of a program: the configured one, or the one on the search
path, or the bundled one. -/
def locate (machine : Machine) (name missing : Text) (bundled : Option Value) :
    Noting Value := do
  let configured ← Settings.lookup machine name
  let usable ←
    if configured.truthy then Noting.ofOutcome (machine.disk.holds configured) else pure false
  let found := machine.program name
  if usable then return configured
  else if found.truthy then return found
  else Noting.ofOutcome (orFault (.fileMissing missing) bundled)

/-- The location of the engine that renders. -/
def engine (machine : Machine) : Noting Value :=
  locate machine "ffmpeg" "FFmpeg not found. Please install FFmpeg or set TIMELINE_EDITOR_FFMPEG."
    machine.bundledEngine

/-- The location of the probe that reports on files. -/
def probeProgram (machine : Machine) : Noting Value :=
  locate machine "ffprobe"
    "FFprobe not found. Please install FFmpeg/FFprobe or set TIMELINE_EDITOR_FFPROBE." none

end Montage.Media
