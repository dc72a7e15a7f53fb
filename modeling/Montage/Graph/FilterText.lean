import Montage.Graph.Basic
import Montage.Graph.Numeral

/-!
# The filter text of a graph

The media engine is told a graph as a text in which every stage is a chain of
filters between the labels of its streams, and stages are separated by
semicolons.
-/

namespace Montage

/-- The filter chains behind the names of clip filters. -/
def filterExpressions : List (Text × Text) := [
  ("grayscale", "hue=s=0"),
  ("sepia", "colorchannelmixer=.393:.769:.189:0:.349:.686:.168:0:.272:.534:.131"),
  ("vintage", "curves=preset=vintage"),
  ("xray", "negate,hue=s=0"),
  ("blur", "boxblur=5:1"),
  ("bright", "eq=brightness=0.15"),
  ("dark", "eq=brightness=-0.15"),
  ("high-contrast", "eq=contrast=1.5"),
  ("flicker", "noise=alls=40:allf=t+u")]

/-- The filter chain behind the name of a clip filter. -/
def filterExpression (name : Value) : Outcome Text := do
  name.checkKey
  match filterExpressions.find? fun entry => name.equal (.text entry.1) with
  | some (_, chain) => return chain
  | none => .error (.uncompilable (.unknownFilter name))

namespace Stage

/-- A label in brackets. -/
def link (label : Value) : Text := "[" ++ label.display ++ "]"

/-- Labels in brackets. -/
def links (labels : List Value) : Text := Text.join (labels.map link)

/-- A filter chain between the labels of the stage. -/
def between (stage : Stage) (chain : Text) : Text :=
  links stage.inputs ++ chain ++ links stage.outputs

/-- A parameter as a time. -/
def time (stage : Stage) (name : Text) : Outcome Text := do
  filterNumber (← stage.param name) timePlaces

/-- A percentage among the parameters as a share of one. -/
def share (stage : Stage) (name : Text) : Outcome Text := do
  return decimalText sharePlaces (← (← stage.param name).div (.int 100))

/-- The two labels of a stage that has exactly two. -/
def twoLabels (labels : List Value) : Outcome (Value × Value) :=
  match labels with
  | [a, b] => .ok (a, b)
  | labels => .error (.unreadable (.ofCount labels.length))

/-- The window of a trim stage. -/
def window (stage : Stage) : Outcome Text := do
  return "start=" ++ (← stage.time "start") ++ ":end=" ++ (← stage.time "end")

/-- The filter chain of a picture trim, nothing without a filter. -/
def filterChain (name : Value) : Outcome Text :=
  if name.truthy then do return "," ++ (← filterExpression name) else .ok ""

/-- The text of a picture trim. -/
def trimText (stage : Stage) : Outcome Text := do
  let window ← stage.window
  let chain ← filterChain (← stage.param? "filter")
  return stage.between ("trim=" ++ window ++ ",setpts=PTS-STARTPTS" ++ chain)

/-- The text of a sound trim. -/
def audioTrimText (stage : Stage) : Outcome Text := do
  let window ← stage.window
  let volume := if (← stage.param? "muted").truthy then ",volume=0" else ""
  return stage.between ("atrim=" ++ window ++ ",asetpts=PTS-STARTPTS" ++ volume)

/-- The text of a concatenation. -/
def concatText (stage : Stage) : Outcome Text := do
  return stage.between ("concat=n=" ++ (← stage.param "n").display ++ ":v=" ++
    (← stage.param "video").display ++ ":a=" ++ (← stage.param "audio").display)

/-- The label of a picture whose opacity was changed. -/
def alphaLabel (scaled : Value) : Value := .text (scaled.display ++ "_alpha")

/-- The text of a relative scaling, after the change of opacity if one is
asked for. -/
def overlayScaleText (stage : Stage) : Outcome Text := do
  let (picture, reference) ← twoLabels stage.inputs
  let (scaled, passed) ← twoLabels stage.outputs
  let scaling := fun (picture : Value) => do
    return links [picture, reference] ++ "scale2ref=w=main_w*" ++ (← stage.share "width") ++
      ":h=main_h*" ++ (← stage.share "height") ++ links [scaled, passed]
  let opacity ← stage.param? "opacity"
  if opacity.isNull then scaling picture
  else
    let level ← filterNumber opacity sharePlaces
    return link picture ++ "format=rgba,colorchannelmixer=aa=" ++ level ++
      link (alphaLabel scaled) ++ ";" ++ (← scaling (alphaLabel scaled))

/-- The text of an overlay. -/
def overlayText (stage : Stage) : Outcome Text := do
  return stage.between ("overlay=x=main_w*" ++ (← stage.share "x") ++ ":y=main_h*" ++
    (← stage.share "y") ++ ":eof_action=" ++ (← stage.param "eof_action").display)

/-- The text of the final scaling. -/
def scalePadText (stage : Stage) : Outcome Text := do
  let size := (← stage.param "width").display ++ ":" ++ (← stage.param "height").display
  return stage.between ("scale=" ++ size ++ ":force_original_aspect_ratio=decrease,pad=" ++
    size ++ ":(ow-iw)/2:(oh-ih)/2,setsar=1")

/-- The text of a stage. The joining of picture and sound has none: it is told
on the command line. -/
def text (stage : Stage) : Outcome Text :=
  match stage.kind with
  | .trim => stage.trimText
  | .audioTrim => stage.audioTrimText
  | .concat => stage.concatText
  | .overlayScale => stage.overlayScaleText
  | .overlay => stage.overlayText
  | .scalePad => stage.scalePadText
  | .mux => .ok ""
  | .unknown name => .error (.uncompilable (.unknownStage name.display))

end Stage

/-- The filter text of a graph. -/
def RenderGraph.filterText (graph : RenderGraph) : Outcome Text := do
  let texts ← graph.stages.mapM Stage.text
  return Text.intercalate ";" (texts.filter fun text => !text.isEmpty)

end Montage
