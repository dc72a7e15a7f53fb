import Montage.Export.Event
import Montage.Export.OutputPath
import Montage.Export.Progress
import Montage.Graph.CommandLine
import Montage.Graph.Compile
import Montage.Noting
import Montage.Text.Lines

/-!
# Running the media engine

An encoder starts the engine for a render graph, follows its progress and tells
the consumer by events. The consumer may cancel or close the stream whenever an
event has arrived. An engine that was started is waited for, and stopped first
unless it ended by itself.
-/

namespace Montage.Export

/-- What the engine prints and ends with. -/
structure EngineRun where
  /-- The lines it prints on its progress. -/
  lines : List Value
  /-- What it complains about. -/
  complaint : Text
  /-- The number it ends with, zero for success and null if it has none. -/
  status : Value

/-- What comes of starting the engine. -/
inductive Launch where
  /-- It cannot be started. -/
  | refused (reason : Text)
  /-- It cannot be listened to. -/
  | broken (fault : Fault)
  /-- It runs. -/
  | running (run : EngineRun)

/-- The world in which exports happen. -/
structure Studio where
  /-- The sources. -/
  outside : Outside
  /-- The search for the engine. -/
  engine : Noting Value
  /-- The engine. -/
  launch : Launch

/-- What drives the engine. -/
structure Encoder where
  /-- The location of the engine; it is searched for if this is empty. -/
  enginePath : Value
  /-- The settings, if they are not the usual ones. -/
  settings : Option EncoderSettings
  /-- Whether the export is to stop. -/
  cancelled : Bool
  /-- Whether an engine is running. -/
  holdsProcess : Bool

namespace Encoder

/-- An encoder that has not been used. -/
def ofEngine (enginePath : Value) (settings : Option EncoderSettings) : Encoder :=
  ⟨enginePath, settings, false, false⟩

/-- The settings for a file. -/
def settingsFor (encoder : Encoder) (path : Text) : EncoderSettings :=
  { encoder.settings.getD (EncoderSettings.ofPath (.text path)) with outputPath := .text path }

/-- The arguments that make the engine report its progress. -/
def progressArguments : List Value :=
  [.text "-progress", .text "pipe:1", .text "-nostats", .text "-loglevel", .text "error"]

/-- Puts the arguments for progress after the name of the engine. -/
def withProgress : List Value → List Value
  | [] => progressArguments
  | engine :: arguments => engine :: (progressArguments ++ arguments)

/-- The engine that is used. -/
def engine (encoder : Encoder) (studio : Studio) : Noting Value :=
  if encoder.enginePath.truthy then return encoder.enginePath else studio.engine

/-- The command line that renders a graph to a file. -/
def command (encoder : Encoder) (studio : Studio) (graph : RenderGraph) (path : Text) :
    Noting (List Value) := do
  let engine ← encoder.engine studio
  return withProgress
    (← Noting.ofOutcome (graph.commandLine (encoder.settingsFor path) engine))

end Encoder

/-- The words of a command line, which must all be texts. -/
def wordsOf (command : List Value) : Outcome (List Text) :=
  command.mapM fun
    | .text word => .ok word
    | _ => .error .illTyped

/-- How many lines of the engine's complaint are kept. -/
def keptLines : Nat := 100

/-- How many characters of the kept lines a failure shows. -/
def shownCharacters : Nat := 500

/-- What a failure shows of the engine's complaint. -/
def excerpt (complaint : Text) : Text :=
  let kept := (Text.lastItems keptLines (Text.lines complaint.points)).flatten
  Text.trim ⟨Text.lastItems shownCharacters kept⟩

/-- What is said of an engine that ended without success. -/
def failureMessage (run : EngineRun) : Text :=
  let shown := excerpt run.complaint
  if shown.isEmpty then "FFmpeg exited with code " ++ run.status.display
  else "FFmpeg error: " ++ shown

/-! ## Streams of events -/

/-- What a consumer does when an event has arrived. -/
structure Reaction where
  /-- It leaves notes. -/
  notes : List Note
  /-- It cancels the export. -/
  cancels : Bool
  /-- It stops listening. -/
  closes : Bool

/-- The reaction to the last of the events that have arrived so far. -/
abbrev Consumer := List Event → Reaction

/-- A consumer that listens to the end. -/
def Consumer.listening : Consumer := fun _ => ⟨[], false, false⟩

/-- An export under way. -/
structure Run where
  /-- What drives the engine. -/
  encoder : Encoder
  /-- The record of outside calls. -/
  trace : Trace
  /-- The events that have arrived, in order. -/
  events : List Event

namespace Run

/-- An export that has not begun. -/
def start (encoder : Encoder) (trace : Trace) : Run := ⟨encoder, trace, []⟩

/-- Asks for the export to stop: the engine is stopped if there is one, and no
more of its lines are read. -/
def cancel (run : Run) : Run :=
  { run with
    encoder := { run.encoder with cancelled := true }
    trace := if run.encoder.holdsProcess then run.trace.record .terminate else run.trace }

/-- Adds an outside call. -/
def record (call : OutsideCall) (run : Run) : Run := { run with trace := run.trace.record call }

/-- Adds notes. -/
def leave (notes : List Note) (run : Run) : Run := { run with trace := run.trace.leave notes }

/-- Notes whether an engine is running. -/
def holding (held : Bool) (run : Run) : Run :=
  { run with encoder := { run.encoder with holdsProcess := held } }

end Run

/-- Why an export ends before its stream does. -/
inductive Halt where
  /-- The consumer stopped listening. -/
  | closed
  /-- Something went wrong that is no event. -/
  | faulted (fault : Fault)

/-- A part of an export. -/
abbrev Exporting (α : Type) := ExceptT Halt (StateM Run) α

namespace Exporting

/-- An outcome as a part of an export. -/
def ofOutcome {α : Type} (outcome : Outcome α) : Exporting α :=
  ExceptT.mk (pure (outcome.mapError .faulted))

/-- Leaves a note. -/
def note (severity : Severity) (text : Text) : Exporting Unit :=
  modify (Run.leave [⟨severity, text⟩])

/-- Gives the consumer an event and lets it react. -/
def emit (consumer : Consumer) (event : Event) : Exporting Unit := do
  modify fun run => { run with events := run.events ++ [event] }
  let reaction := consumer (← get).events
  modify (Run.leave reaction.notes)
  if reaction.cancels then modify Run.cancel
  if reaction.closes then throw .closed

end Exporting

open Exporting

/-- Reads the lines of the engine until it is done or the export is cancelled,
and gives the consumer every percentage that is larger than all before. -/
def follow (consumer : Consumer) (tracker : ProgressTracker) :
    List Value → Exporting ProgressTracker
  | [] => return tracker
  | line :: lines => do
    if (← get).encoder.cancelled then return tracker
    else
      let line ← ofOutcome line.asText
      match ← ofOutcome (Progress.position? line) with
      | some seconds =>
        let (percent, tracker) ← ofOutcome (tracker.update (.real seconds))
        match percent with
        | some percent => emit consumer (.progress percent)
        | none => pure ()
        follow consumer tracker lines
      | none => if Progress.isEnd line then return tracker else follow consumer tracker lines

/-- Follows a running engine. The result says how far it came, and its status
unless it has none or the export was cancelled. -/
def watch (consumer : Consumer) (duration : Value) (engine : EngineRun) :
    Exporting (ProgressTracker × Option Value) := do
  emit consumer (.progress 0)
  let tracker ← follow consumer (ProgressTracker.start duration) engine.lines
  if (← get).encoder.cancelled then return (tracker, none)
  else
    modify (Run.record .await)
    return (tracker, if engine.status.isNull then none else some engine.status)

/-- Stops the engine and waits for it. -/
def stop : Exporting Unit := modify fun run => (run.record .terminate).record .await

/-- Gives up the engine. -/
def release : Exporting Unit := modify (Run.holding false)

/-- Watches an engine and makes sure that it has ended afterwards, however the
export goes. -/
def attend (consumer : Consumer) (duration : Value) (engine : EngineRun) :
    Exporting (ProgressTracker × Option Value) := do
  modify (Run.holding true)
  let watched ← tryCatch (watch consumer duration engine) fun halt => do
    stop
    release
    throw halt
  if watched.2.isNone then stop
  release
  return watched

/-- Tells how an export with a running engine went. -/
def report (consumer : Consumer) (path : Text) (engine : EngineRun) :
    ProgressTracker × Option Value → Exporting Unit
  | (_, none) => emit consumer (.failure "Export cancelled")
  | (tracker, some status) => do
    if status.equal (.int 0) then
      if (Number.real tracker.percent).lt 100 then emit consumer (.progress 100)
      note .info ("Export complete: " ++ path)
      emit consumer (.success (.text path))
    else
      note .error ("FFmpeg exited with code " ++ status.display)
      emit consumer (.failure (failureMessage engine))

/-- The message of a fault that prevents a command line, if the export tells it
by an event. -/
def commandFailure? : Fault → Option Text
  | .fileMissing message => some message
  | .uncompilable why => some why.message
  | _ => none

/-- Starts the engine with a command line and sees the export through. -/
def launch (consumer : Consumer) (studio : Studio) (duration : Value) (path : Text)
    (command : List Value) : Exporting Unit := do
  note .info ("FFmpeg command: " ++ Text.intercalate " " (← ofOutcome (wordsOf command)))
  match studio.launch with
  | .refused reason =>
    modify (Run.record (.launch command false))
    emit consumer (.failure ("Failed to start FFmpeg: " ++ reason))
  | .broken fault =>
    modify (Run.record (.launch command false))
    throw (.faulted fault)
  | .running engine =>
    modify (Run.record (.launch command true))
    report consumer path engine (← attend consumer duration engine)

/-- Renders a graph to a file. -/
def execute (consumer : Consumer) (studio : Studio) (graph : RenderGraph) (path : Text) :
    Exporting Unit := do
  let path ← ofOutcome (outputPath (.text path))
  modify fun run => { run with encoder := { run.encoder with cancelled := false } }
  let (command, notes) := ((← get).encoder.command studio graph path).result
  modify (Run.leave notes)
  match command with
  | .ok command => launch consumer studio graph.duration path command
  | .error fault =>
    match commandFailure? fault with
    | some message =>
      note .error ("Could not build FFmpeg command: " ++ message)
      emit consumer (.failure message)
    | none => throw (.faulted fault)

end Montage.Export
