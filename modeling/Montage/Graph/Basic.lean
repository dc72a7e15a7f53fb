import Montage.Value.Operations

/-!
# Render graphs

A render graph is a list of processing stages that are connected by the labels
of the streams they consume and produce. The streams of the input files are
labelled by the number of the input. A graph may also be put together by hand;
its numbers, labels, kinds and parameters are then whatever was given.
-/

namespace Montage

/-- A media file that a graph reads. -/
structure GraphInput where
  /-- The number of the input. -/
  index : Value
  /-- The path of the file. -/
  path : Value
  /-- `media` for a file with picture and sound, `image` for a still. -/
  kind : Value

namespace GraphInput

/-- The label of the input's picture. -/
def video (input : GraphInput) : Text := input.index.display ++ ":v"

/-- The label of the input's sound. -/
def audio (input : GraphInput) : Text := input.index.display ++ ":a"

/-- The kind of inputs with picture and sound. -/
def media : Value := .text "media"

/-- The kind of inputs that are stills. -/
def image : Value := .text "image"

/-- The labels of all streams of the input; only one of the media kind has
sound. -/
def streams (input : GraphInput) : List Text :=
  if input.kind.equal media then [input.video, input.audio] else [input.video]

/-- The input as a document. -/
def toValue (input : GraphInput) : Value := .list [input.index, input.path, input.kind]

/-- Reads an input; one without a kind has picture and sound. -/
def ofValue (value : Value) : Outcome GraphInput := do
  match ← value.elements with
  | [index, path] => return ⟨index, path, media⟩
  | [index, path, kind] => return ⟨index, path, kind⟩
  | _ => .error .illTyped

end GraphInput

/-- What a processing step does. -/
inductive StageKind where
  /-- Cuts a window out of a picture stream. -/
  | trim
  /-- Cuts a window out of a sound stream. -/
  | audioTrim
  /-- Puts streams after each other. -/
  | concat
  /-- Scales a picture relative to another one. -/
  | overlayScale
  /-- Lays a picture over another one. -/
  | overlay
  /-- Scales a picture to the output size and pads it. -/
  | scalePad
  /-- Joins the picture and the sound of the output. -/
  | mux
  /-- Nothing that is known by this name. -/
  | unknown (name : Value)

namespace StageKind

/-- The kinds of steps with their names. -/
def named : List (Text × StageKind) := [
  ("trim", .trim),
  ("atrim", .audioTrim),
  ("concat", .concat),
  ("overlay_scale", .overlayScale),
  ("overlay", .overlay),
  ("scale_pad", .scalePad),
  ("mux", .mux)]

/-- The kind of a name. -/
def ofName (name : Value) : StageKind :=
  match named.find? fun entry => name.equal (.text entry.1) with
  | some (_, kind) => kind
  | none => .unknown name

/-- The name of a kind. -/
def name : StageKind → Value
  | .trim => .text "trim"
  | .audioTrim => .text "atrim"
  | .concat => .text "concat"
  | .overlayScale => .text "overlay_scale"
  | .overlay => .text "overlay"
  | .scalePad => .text "scale_pad"
  | .mux => .text "mux"
  | .unknown name => name

end StageKind

/-- One processing step. -/
structure Stage where
  /-- What the step does. -/
  kind : StageKind
  /-- The labels of the streams it consumes. -/
  inputs : List Value
  /-- The labels of the streams it produces. -/
  outputs : List Value
  /-- What it is told besides: a record with a field for each parameter. -/
  params : Value

namespace Stage

/-- A stage between streams that are labelled by texts. -/
def labelled (kind : StageKind) (inputs outputs : List Text) (params : List (Text × Value)) :
    Stage :=
  ⟨kind, inputs.map .text, outputs.map .text, .record params⟩

/-- The stage as a document. -/
def toValue (stage : Stage) : Value :=
  .list [stage.kind.name, .list stage.inputs, .list stage.outputs, stage.params]

/-- Reads a stage, which need not have parameters. -/
def ofValue (value : Value) : Outcome Stage := do
  match ← value.elements with
  | kind :: inputs :: outputs :: params =>
    return ⟨.ofName kind, ← inputs.elements, ← outputs.elements, params.headD (.record [])⟩
  | _ => .error .outOfRange

/-- A parameter that must be there. -/
def param (stage : Stage) (name : Text) : Outcome Value := stage.params.require name

/-- A parameter, null when it is absent. -/
def param? (stage : Stage) (name : Text) : Outcome Value := stage.params.lookup name .null

/-- Cuts the window of a clip out of a picture stream and filters it. -/
def trim (source label : Text) (start stop filter : Value) : Stage :=
  labelled .trim [source] [label] [("start", start), ("end", stop), ("filter", filter)]

/-- Cuts the window of a clip out of a sound stream. -/
def audioTrim (source label : Text) (start stop : Value) (muted : Bool) : Stage :=
  labelled .audioTrim [source] [label]
    [("start", start), ("end", stop), ("muted", .bool muted)]

/-- Puts `count` parts after each other, each of as many picture and sound
streams as told. -/
def concat (inputs outputs : List Text) (count video audio : Nat) : Stage :=
  labelled .concat inputs outputs
    [("n", .int count), ("video", .int video), ("audio", .int audio)]

/-- Scales a picture relative to another one, which is passed on. -/
def overlayScale (picture reference scaled passed : Text)
    (width height opacity image : Value) : Stage :=
  labelled .overlayScale [picture, reference] [scaled, passed]
    [("width", width), ("height", height), ("opacity", opacity), ("image", image)]

/-- Lays a picture over another one. -/
def overlay (base picture label : Text) (x y : Value) (atEnd : Text) : Stage :=
  labelled .overlay [base, picture] [label]
    [("x", x), ("y", y), ("eof_action", .text atEnd)]

/-- Scales a picture to the output size and pads it. -/
def scalePad (source label : Text) (width height : Value) : Stage :=
  labelled .scalePad [source] [label] [("width", width), ("height", height)]

/-- Joins the picture and the sound of the output. -/
def mux (video audio : Text) : Stage :=
  labelled .mux [video, audio] [] [("video", .text video), ("audio", .text audio)]

end Stage

/-- A render graph in the order in which its stages run. -/
structure RenderGraph where
  /-- The files it reads. -/
  inputs : List GraphInput
  /-- The stages. -/
  stages : List Stage
  /-- The width of the output. -/
  width : Value
  /-- The height of the output. -/
  height : Value
  /-- The duration of the output in seconds. -/
  duration : Value
  /-- The label of the output's picture. -/
  videoOutput : Text
  /-- The label of the output's sound. -/
  audioOutput : Text

namespace RenderGraph

/-- The stages whose kind has a name. -/
def stagesOf (graph : RenderGraph) (name : Value) : List Stage :=
  graph.stages.filter fun stage => stage.kind.name.equal name

/-- The last stage. -/
def terminal (graph : RenderGraph) : Outcome Stage :=
  orFault .outOfRange graph.stages.getLast?

end RenderGraph

end Montage
