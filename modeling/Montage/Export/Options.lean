import Montage.Value.Operations

/-!
# Options and settings of an export

Options decide what is rendered, settings how it is encoded.
-/

namespace Montage

/-- What is rendered. -/
structure ExportOptions where
  /-- The name of the output resolution. -/
  resolution : Value
  /-- Whether the overlay track is shown. -/
  overlayTrackVisible : Value
  /-- Whether the sound of the main track is silenced. -/
  mainMuted : Value
  /-- Whether the sound of the overlay track is silenced; it is never heard in
  an export. -/
  overlayMuted : Value

namespace ExportOptions

/-- The name of the resolution unless told otherwise. -/
def defaultResolution : Value := .text "1080p"

/-- The options unless told otherwise, for a resolution. -/
def ofResolution (resolution : Value) : ExportOptions :=
  ⟨resolution, .bool true, .bool false, .bool false⟩

/-- The options unless told otherwise. -/
def default : ExportOptions := ofResolution defaultResolution

/-- Reads options; what is missing is as by default. -/
def ofValue (value : Value) : Outcome ExportOptions := do
  return {
    resolution := ← value.lookup "resolution" defaultResolution
    overlayTrackVisible := ← value.lookup "overlayTrackVisible" (.bool true)
    mainMuted := ← value.lookup "track0Muted" (.bool false)
    overlayMuted := ← value.lookup "track1Muted" (.bool false) }

end ExportOptions

/-- How the result is encoded. -/
structure EncoderSettings where
  /-- The file that is written. -/
  outputPath : Value
  /-- The number of frames per second. -/
  framesPerSecond : Value
  /-- The name of the video codec. -/
  videoCodec : Value
  /-- The preset of the video codec. -/
  videoPreset : Value
  /-- The quality of the video; smaller is better. -/
  videoQuality : Value
  /-- The name of the audio codec. -/
  audioCodec : Value
  /-- The bit rate of the audio. -/
  audioBitrate : Value

/-- The settings unless told otherwise, for a file. -/
def EncoderSettings.ofPath (outputPath : Value) : EncoderSettings where
  outputPath := outputPath
  framesPerSecond := .real 30
  videoCodec := .text "libx264"
  videoPreset := .text "medium"
  videoQuality := .int 23
  audioCodec := .text "aac"
  audioBitrate := .text "192k"

/-- Reads settings; what is missing is as usual, the file included. -/
def EncoderSettings.ofValue (value path : Value) : Outcome EncoderSettings := do
  let usual := EncoderSettings.ofPath path
  return {
    outputPath := ← value.lookup "outputPath" usual.outputPath
    framesPerSecond := ← value.lookup "fps" usual.framesPerSecond
    videoCodec := ← value.lookup "videoCodec" usual.videoCodec
    videoPreset := ← value.lookup "videoPreset" usual.videoPreset
    videoQuality := ← value.lookup "videoCrf" usual.videoQuality
    audioCodec := ← value.lookup "audioCodec" usual.audioCodec
    audioBitrate := ← value.lookup "audioBitrate" usual.audioBitrate }

end Montage
