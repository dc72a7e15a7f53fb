import Montage.Graph.Basic

/-!
# Whether the labels of a graph fit together

Every stream is there before it is consumed. Streams of files can be read any
number of times; a stream that a stage produces has a label of its own and is
consumed at most once. Labels are compared as stored values, and lists and
records are none.
-/

namespace Montage.RenderGraph

/-- The labels of the streams that are there and of those that are used up. -/
structure Streams where
  /-- The labels that were produced so far, those of files included. -/
  available : List Value
  /-- The labels that were consumed and cannot be consumed again. -/
  consumed : List Value

/-- Turns a graph fault into the outcome of a check. -/
def failIf (condition : Bool) (why : GraphFault) : Outcome Unit :=
  if condition then .error (.uncompilable why) else .ok ()

/-- Consumes a stream. -/
def consume (files : List Value) (kind : StageKind) (streams : Streams) (label : Value) :
    Outcome Streams := do
  label.checkKey
  failIf (!label.isAmong streams.available) (.unknownStream kind.name.display label.display)
  if label.isAmong files then return streams
  else
    failIf (label.isAmong streams.consumed) (.consumedTwice label.display)
    return { streams with consumed := label :: streams.consumed }

/-- Produces a stream. -/
def produce (streams : Streams) (label : Value) : Outcome Streams := do
  label.checkKey
  failIf (label.isAmong streams.available) (.producedTwice label.display)
  return { streams with available := label :: streams.available }

/-- Runs a stage on the streams. -/
def pass (files : List Value) (streams : Streams) (stage : Stage) : Outcome Streams := do
  let streams ← stage.inputs.foldlM (consume files stage.kind) streams
  stage.outputs.foldlM produce streams

/-- The labels of the streams of all input files. -/
def fileStreams (graph : RenderGraph) : List Value :=
  graph.inputs.flatMap fun input => input.streams.map .text

/-- Checks that the labels fit together; the first misfit is reported. -/
def checkTopology (graph : RenderGraph) : Outcome Unit := do
  let files := graph.fileStreams
  let _ ← graph.stages.foldlM (pass files) ⟨files, []⟩
  return ()

end Montage.RenderGraph
