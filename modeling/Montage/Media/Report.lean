import Montage.Value.Operations

/-!
# Probe reports

A probe describes a media file by a document with its streams and its format.
What the editor needs of it is the first video stream and the duration.
-/

namespace Montage.Media

/-- What is known about a media file. -/
structure Metadata where
  /-- The duration in seconds. -/
  duration : Binary64
  /-- The width of a frame in pixels, as it is stored. -/
  width : Int
  /-- The height of a frame in pixels, as it is stored. -/
  height : Int
  /-- The number of frames per second. -/
  framesPerSecond : Binary64
  /-- The name of the video codec. -/
  codec : Value
  /-- Whether the file has sound. -/
  hasAudio : Bool
  /-- By how many degrees the picture is turned when shown. -/
  rotation : Int

/-- The width and height of the picture as it is shown. -/
def Metadata.displaySize (m : Metadata) : Int × Int :=
  if m.rotation = 90 ∨ m.rotation = 270 then (m.height, m.width) else (m.width, m.height)

/-- What is known about a media file as a document. -/
def Metadata.toValue (m : Metadata) : Value := .record [
  ("duration", .real m.duration),
  ("width", .int m.width),
  ("height", .int m.height),
  ("fps", .real m.framesPerSecond),
  ("codec", m.codec),
  ("has_audio", .bool m.hasAudio),
  ("rotation", .int m.rotation),
  ("display_size", .list [.int m.displaySize.1, .int m.displaySize.2])]

/-- The first stream of a kind. -/
def firstStream (kind : Text) : List Value → Outcome (Option Value)
  | [] => .ok none
  | stream :: streams => do
    if (← stream.lookup "codec_type" .null).equal (.text kind) then return some stream
    else firstStream kind streams

/-- The double that a text stands for. -/
def decimalOf (text : Text) : Outcome Binary64 :=
  orFault (.unreadable (.notDecimal text)) (Text.decimal? text)

/-- The frame rate that a text gives: a decimal, or a quotient of two. A
quotient by zero gives thirty. -/
def frameRateOfText (text : Text) : Outcome Binary64 :=
  match text.split '/' with
  | [whole] => decimalOf whole
  | [num, den] => do
    let num ← decimalOf num
    let den ← decimalOf den
    return if (Number.real den).equal 0 then 30 else num.div den
  | num :: den :: third :: _ => do
    let _ ← decimalOf num
    let _ ← decimalOf den
    let _ ← decimalOf third
    .error (.unreadable .tooManyParts)
  | [] => .error (.unreadable (.tooFewParts 0))

/-- The frame rate that a report gives, as text or as a number. -/
def frameRate (value : Value) : Outcome Binary64 :=
  match value with
  | .text text => frameRateOfText text
  | value => do
    if (← value.mentions "/") then .error .noMembers else value.toDecimal

/-- The rotation given by side data, the last entry that has one, after
`present`. -/
def sideRotation (present : Int) : List Value → Outcome Int
  | [] => .ok present
  | entry :: entries => do
    let present ←
      if (← entry.mentions "rotation") then (← entry.require "rotation").toWhole else .ok present
    sideRotation present entries

/-- The rotation of a stream in degrees; a tag counts more than side data. -/
def streamRotation (stream : Value) : Outcome Int := do
  let entries ← (← stream.lookup "side_data_list" (.list [])).elements
  let side ← sideRotation 0 entries
  if (← (← stream.lookup "tags" (.record [])).mentions "rotate") then
    (← (← stream.require "tags").require "rotate").toWhole
  else return side

/-- The duration of a file, or of its video stream if the file gives none. -/
def reportedDuration (report stream : Value) : Outcome Binary64 := do
  let format ← report.lookup "format" (.record [])
  let whole ← (← format.lookup "duration" (.int 0)).toDecimal
  if (Number.real whole).equal 0 then
    if (← stream.mentions "duration") then (← stream.require "duration").toDecimal
    else return whole
  else return whole

/-- Reads a probe report about a file. -/
def Metadata.ofReport (report : Value) (path : Value) : Outcome Metadata := do
  let listed ← report.lookup "streams" (.list [])
  let video ← firstStream "video" (← listed.elements)
  let stream := video.getD .null
  if !stream.truthy then .error (.unreadableMedia ("No video stream found in: " ++ path.display))
  else
    let rate ← frameRate (← stream.lookup "r_frame_rate" (.text "30/1"))
    let turned ← streamRotation stream
    let length ← reportedDuration report stream
    let width ← (← stream.lookup "width" (.int 0)).toWhole
    let height ← (← stream.lookup "height" (.int 0)).toWhole
    let codec ← stream.lookup "codec_name" (.text "unknown")
    let audio ← firstStream "audio" (← listed.elements)
    return {
      duration := length
      width := width
      height := height
      framesPerSecond := rate
      codec := codec
      hasAudio := audio.isSome
      rotation := (turned.natAbs : Int) % 360 }

end Montage.Media
