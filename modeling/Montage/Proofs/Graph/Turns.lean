import Montage.Proofs.Graph.Flow

/-!
# What each stage turns its streams into

For every kind of stage that the builder adds: which feeds it consumes, which
streams it produces, and what these carry.
-/

namespace Montage.Stage

section Outputs

variable {stage : Stage} {feeds : List Feed} {label other : StreamLabel} {signal second : Signal}

/-- A stage with one output makes one stream. -/
theorem Turns.single (consumes : stage.inputs = feeds.map fun feed => .text feed.label)
    (produces : stage.outputs = [label.value])
    (carries : stage.signal? (feeds.map Feed.signal) 0 = some signal) :
    stage.Turns feeds [(label, signal)] where
  consumes := consumes
  produces := produces
  carries number stream h := by
    cases number with
    | zero =>
      cases h
      exact carries
    | succ number => cases h

/-- A stage with two outputs makes two streams. -/
theorem Turns.pair (consumes : stage.inputs = feeds.map fun feed => .text feed.label)
    (produces : stage.outputs = [label.value, other.value])
    (first : stage.signal? (feeds.map Feed.signal) 0 = some signal)
    (last : stage.signal? (feeds.map Feed.signal) 1 = some second) :
    stage.Turns feeds [(label, signal), (other, second)] where
  consumes := consumes
  produces := produces
  carries number stream h := by
    match number with
    | 0 =>
      cases h
      exact first
    | 1 =>
      cases h
      exact last
    | number + 2 => cases h

end Outputs

/-- Trimming a picture gives a window of it. -/
theorem turns_trim (input : GraphInput) (label : StreamLabel) (start stop filter : Value) :
    (trim input.video label.text start stop filter).Turns [.picture input]
      [(label, .trimmed (Feed.picture input).signal start stop filter)] :=
  .single rfl rfl rfl

/-- Trimming a sound gives a window of it. -/
theorem turns_audioTrim (input : GraphInput) (label : StreamLabel) (start stop : Value)
    (muted : Bool) :
    (audioTrim input.audio label.text start stop muted).Turns [.sound input]
      [(label, .heard (Feed.sound input).signal start stop (.bool muted))] :=
  .single rfl rfl rfl

/-- Scaling an image by a picture gives the scaled image and the picture. -/
theorem turns_scaleImage (input : GraphInput) (reference scaled passed : StreamLabel)
    (base : Signal) (width height opacity image : Value) :
    (overlayScale input.video reference.text scaled.text passed.text width height opacity
        image).Turns [.picture input, .stream reference base]
      [(scaled, .scaled (Feed.picture input).signal base width height opacity),
        (passed, base)] :=
  .pair rfl rfl rfl rfl

/-- Scaling a stream by a picture gives the scaled stream and the picture. -/
theorem turns_scaleStream (picture reference scaled passed : StreamLabel) (top base : Signal)
    (width height opacity image : Value) :
    (overlayScale picture.text reference.text scaled.text passed.text width height opacity
        image).Turns [.stream picture top, .stream reference base]
      [(scaled, .scaled top base width height opacity), (passed, base)] :=
  .pair rfl rfl rfl rfl

/-- Laying a picture over another one. -/
theorem turns_overlay (under picture label : StreamLabel) (base top : Signal) (x y : Value)
    (atEnd : Text) :
    (overlay under.text picture.text label.text x y atEnd).Turns
      [.stream under base, .stream picture top] [(label, .laid base top x y (.text atEnd))] :=
  .single rfl rfl rfl

/-- Scaling a picture to the size of the output. -/
theorem turns_scalePad (source label : StreamLabel) (signal : Signal) (width height : Value) :
    (scalePad source.text label.text width height).Turns [.stream source signal]
      [(label, .padded signal width height)] :=
  .single rfl rfl rfl

/-- Joining picture and sound produces nothing more. -/
theorem turns_mux (video audio : StreamLabel) (picture sound : Signal) :
    (mux video.text audio.text).Turns [.stream video picture, .stream audio sound] [] where
  consumes := rfl
  produces := rfl
  carries number stream h := by cases h

/-- What putting streams after each other makes of them: the output of a number
is made of the stream with that number in each group. -/
theorem signal?_concat (inputs outputs : List Text) (count video audio number : Nat)
    (parts : List Signal) :
    (concat inputs outputs count video audio).signal? parts number =
      some (.joined (strided count (video + audio) number parts)) := by
  have hcount : (concat inputs outputs count video audio).param "n" = .ok (.int count) := rfl
  have hvideo : (concat inputs outputs count video audio).param "video" = .ok (.int video) := rfl
  have haudio : (concat inputs outputs count video audio).param "audio" = .ok (.int audio) := rfl
  have hkind : (concat inputs outputs count video audio).kind = .concat := rfl
  have hwhole : ∀ n : Nat, (Value.int n).toWhole = .ok (n : Int) := fun n => rfl
  have htotal : ((video : Int) + audio).toNat = video + audio := by omega
  simp only [signal?, hkind, hcount, hvideo, haudio, Except.toOption, Option.bind_eq_bind,
    Option.bind_some, hwhole, htotal, Int.toNat_natCast, Option.pure_def]

/-- The streams of pairs one after the other. -/
def paired (pairs : List ((StreamLabel × Signal) × (StreamLabel × Signal))) :
    List (StreamLabel × Signal) :=
  pairs.flatMap fun pair => [pair.1, pair.2]

/-- Putting pairs of picture and sound after each other joins both. -/
theorem turns_concat_pairs (pairs : List ((StreamLabel × Signal) × (StreamLabel × Signal)))
    (video audio : StreamLabel) :
    (concat ((paired pairs).map fun stream => stream.1.text) [video.text, audio.text] pairs.length
        1 1).Turns ((paired pairs).map Feed.ofStream)
      [(video, .joined (pairs.map fun pair => pair.1.2)),
        (audio, .joined (pairs.map fun pair => pair.2.2))] where
  consumes := by
    change ((paired pairs).map fun stream => stream.1.text).map Value.text = _
    rw [List.map_map, List.map_map]
    rfl
  produces := rfl
  carries number stream h := by
    have hsignals : ((paired pairs).map Feed.ofStream).map Feed.signal =
        (pairs.map fun pair => (pair.1.2, pair.2.2)).flatMap fun pair => [pair.1, pair.2] := by
      simp [paired, Feed.ofStream, Feed.signal, List.map_flatMap, List.flatMap_map]
    have hlength : pairs.length = (pairs.map fun pair => (pair.1.2, pair.2.2)).length := by
      rw [List.length_map]
    rw [signal?_concat, hsignals, hlength]
    match number with
    | 0 =>
      cases h
      rw [strided_first, List.map_map]
      rfl
    | 1 =>
      cases h
      rw [strided_second, List.map_map]
      rfl
    | number + 2 => cases h

/-- Putting pictures after each other joins them. -/
theorem turns_concat_pictures (streams : List (StreamLabel × Signal)) (label : StreamLabel) :
    (concat (streams.map fun stream => stream.1.text) [label.text] streams.length 1 0).Turns
      (streams.map Feed.ofStream) [(label, .joined (streams.map Prod.snd))] where
  consumes := by
    change (streams.map fun stream => stream.1.text).map Value.text = _
    rw [List.map_map, List.map_map]
    rfl
  produces := rfl
  carries number stream h := by
    have hsignals : (streams.map Feed.ofStream).map Feed.signal = streams.map Prod.snd := by
      rw [List.map_map]
      rfl
    have hlength : streams.length = (streams.map Prod.snd).length := by
      rw [List.length_map]
    rw [signal?_concat, hsignals, hlength]
    cases number with
    | zero =>
      cases h
      rw [strided_one]
    | succ number => cases h

end Montage.Stage
