import Montage.Export.Options
import Montage.Graph.FilterText

/-!
# The command line of the media engine

The arguments name the input files in the order of their numbers, the filter
text, the two streams of the output and the settings of the encoder.
-/

namespace Montage.RenderGraph

/-- The argument that selects one of the streams of the last stage. -/
def selected (stage : Stage) (name : Text) : Outcome Value := do
  return .text (Stage.link (← stage.param name))

/-- The arguments that name the input files. -/
def inputArguments (graph : RenderGraph) : List Value :=
  graph.inputs.flatMap fun input => [.text "-i", input.path]

/-- The command line that renders a graph with an engine. -/
def commandLine (graph : RenderGraph) (settings : EncoderSettings) (engine : Value) :
    Outcome (List Value) := do
  let filters ← graph.filterText
  let last ← graph.terminal
  let video ← selected last "video"
  let audio ← selected last "audio"
  let rate ← filterNumber settings.framesPerSecond timePlaces
  return [engine, .text "-y"] ++ graph.inputArguments ++ [
    .text "-filter_complex", .text filters,
    .text "-map", video,
    .text "-map", audio,
    .text "-c:v", settings.videoCodec,
    .text "-preset", settings.videoPreset,
    .text "-crf", .text settings.videoQuality.display,
    .text "-c:a", settings.audioCodec,
    .text "-b:a", settings.audioBitrate,
    .text "-r", .text rate,
    settings.outputPath]

end Montage.RenderGraph
