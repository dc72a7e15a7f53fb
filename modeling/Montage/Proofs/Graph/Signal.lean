import Montage.Graph.Builder

/-!
# What streams carry

A signal tells how a picture or a sound is made from the files. The stages of a
graph give every label a signal: a label of a file's stream stands for that
stream, and any other one is unfolded by a stage that produces it, over the
signals of what the stage consumes.
-/

namespace Montage

/-- A picture or a sound, told by how it is made. -/
inductive Signal where
  /-- The picture of a file, which is a medium with sound or a still. -/
  | picture (isMedium : Bool) (path : Text)
  /-- The sound of a file. -/
  | sound (path : Text)
  /-- A window of a picture, filtered. -/
  | trimmed (source : Signal) (start stop filter : Value)
  /-- A window of a sound, muted or not. -/
  | heard (source : Signal) (start stop muted : Value)
  /-- Signals one after the other. -/
  | joined (parts : List Signal)
  /-- A picture that is scaled by the extent of another one and made
  translucent. -/
  | scaled (source reference : Signal) (width height opacity : Value)
  /-- A picture over another one. -/
  | laid (base top : Signal) (x y atEnd : Value)
  /-- A picture that is scaled and padded to a size. -/
  | padded (source : Signal) (width height : Value)

/-- Every so many-th item of a list, as many as told, from a place on. -/
def strided {α : Type} (count step start : Nat) (items : List α) : List α :=
  (List.range count).filterMap fun i => items[i * step + start]?

namespace Stage

/-- What the outputs of a stage carry, given what its inputs carry: the signal
of the output of a number. -/
def signal? (stage : Stage) (parts : List Signal) (number : Nat) : Option Signal :=
  match stage.kind, parts, number with
  | .trim, [source], 0 => do
    return .trimmed source (← (stage.param "start").toOption) (← (stage.param "end").toOption)
      (← (stage.param "filter").toOption)
  | .audioTrim, [source], 0 => do
    return .heard source (← (stage.param "start").toOption) (← (stage.param "end").toOption)
      (← (stage.param "muted").toOption)
  | .concat, parts, number => do
    let count ← ((← (stage.param "n").toOption).toWhole).toOption
    let video ← ((← (stage.param "video").toOption).toWhole).toOption
    let audio ← ((← (stage.param "audio").toOption).toWhole).toOption
    return .joined (strided count.toNat (video + audio).toNat number parts)
  | .overlayScale, [source, reference], 0 => do
    return .scaled source reference (← (stage.param "width").toOption)
      (← (stage.param "height").toOption) (← (stage.param "opacity").toOption)
  | .overlayScale, [_, reference], 1 => some reference
  | .overlay, [base, top], 0 => do
    return .laid base top (← (stage.param "x").toOption) (← (stage.param "y").toOption)
      (← (stage.param "eof_action").toOption)
  | .scalePad, [source], 0 => do
    return .padded source (← (stage.param "width").toOption) (← (stage.param "height").toOption)
  | _, _, _ => none

end Stage

/-- The signals that a label stands for, given the files and the stages. -/
inductive Unfolds (inputs : List GraphInput) (stages : List Stage) : Value → Signal → Prop
  /-- The picture of a file. -/
  | picture {input : GraphInput} (file : input ∈ inputs) :
      Unfolds inputs stages (.text input.video)
        (.picture (input.kind.equal GraphInput.media) input.path.display)
  /-- The sound of a file, which only a medium has. -/
  | sound {input : GraphInput} (file : input ∈ inputs)
      (medium : input.kind.equal GraphInput.media = true) :
      Unfolds inputs stages (.text input.audio) (.sound input.path.display)
  /-- An output of a stage. -/
  | output {stage : Stage} {number : Nat} {label : Value} {parts : List Signal}
      {signal : Signal} (here : stage ∈ stages) (produced : stage.outputs[number]? = some label)
      (complete : parts.length = stage.inputs.length)
      (unfolded : ∀ (i : Nat) (source : Value) (part : Signal), stage.inputs[i]? = some source →
        parts[i]? = some part → Unfolds inputs stages source part)
      (made : stage.signal? parts number = some signal) : Unfolds inputs stages label signal

/-- What a graph makes of a label. -/
def RenderGraph.Carries (graph : RenderGraph) (label : Text) (signal : Signal) : Prop :=
  Unfolds graph.inputs graph.stages (.text label) signal

/-- More files and more stages keep what labels stand for. -/
theorem Unfolds.mono {inputs more : List GraphInput} {stages longer : List Stage} {label : Value}
    {signal : Signal} (h : Unfolds inputs stages label signal)
    (hinputs : ∀ input ∈ inputs, input ∈ more) (hstages : ∀ stage ∈ stages, stage ∈ longer) :
    Unfolds more longer label signal := by
  induction h with
  | picture file => exact .picture (hinputs _ file)
  | sound file medium => exact .sound (hinputs _ file) medium
  | output here produced complete _ made ih =>
    exact .output (hstages _ here) produced complete ih made

/-- One signal, or several one after the other. -/
def Signal.join : List Signal → Signal
  | [signal] => signal
  | signals => .joined signals

namespace Clip

/-- The source of a clip as a signal. -/
def sourcePicture (clip : Clip) : Signal := .picture true clip.source.path.display

/-- The window of a clip's picture. -/
def window (clip : Clip) : Signal :=
  .trimmed clip.sourcePicture clip.inTime clip.outTime clip.filter

/-- The window of a clip's sound, silenced by the clip or by the options. -/
def heard (clip : Clip) (options : ExportOptions) : Signal :=
  .heard (.sound clip.source.path.display) clip.inTime clip.outTime
    (.bool (clip.muted.truthy || options.mainMuted.truthy))

/-- An image laid over a picture, unless its values cannot be forced into their
ranges. -/
def withImage (base : Signal) (overlay : Overlay) : Signal :=
  match overlay.clamped with
  | .ok (frame, opacity) =>
    .laid base
      (.scaled (.picture false overlay.image.display) base frame.width frame.height opacity)
      frame.x frame.y (.text "repeat")
  | .error _ => base

/-- The picture of a clip of the main track: its window with its images laid
over it in their order. -/
def shown (clip : Clip) : Signal := clip.overlays.foldl withImage clip.window

end Clip

namespace Signal

/-- The picture of the main track. -/
def mainPicture (main : List Clip) : Signal := join (main.map Clip.shown)

/-- The sound of the main track. -/
def mainSound (main : List Clip) (options : ExportOptions) : Signal :=
  join (main.map fun clip => clip.heard options)

/-- The picture of the overlay track laid over another one, in a frame. -/
def withInset (base : Signal) (overlay : List Clip) (frame : Frame) : Signal :=
  .laid base (.scaled (join (overlay.map Clip.window)) base frame.width frame.height .null)
    frame.x frame.y (.text "pass")

/-- The picture of both tracks: the overlay track is laid over the main one, at
the place and the size of its first clip, if it has clips and is visible. -/
def composition (main overlay : List Clip) (options : ExportOptions) : Outcome Signal :=
  match overlay with
  | [] => .ok (mainPicture main)
  | first :: _ =>
    if options.overlayTrackVisible.truthy then do
      return withInset (mainPicture main) overlay (← Frame.clamped first.position first.size)
    else .ok (mainPicture main)

end Signal

/-- Every so many-th item of groups of that size is the item of that number of
each group. -/
theorem strided_flatMap {α β : Type} (groups : List β) (items : β → List α) (step start : Nat)
    (hsize : ∀ group ∈ groups, (items group).length = step) (hstart : start < step) :
    strided groups.length step start (groups.flatMap items) =
      groups.filterMap fun group => (items group)[start]? := by
  induction groups with
  | nil => rfl
  | cons group groups ih =>
    have hlength := hsize group List.mem_cons_self
    have hrest := ih fun other hother => hsize other (List.mem_cons_of_mem _ hother)
    have hfirst : (items group ++ groups.flatMap items)[0 * step + start]? =
        (items group)[start]? := by
      rw [Nat.zero_mul, Nat.zero_add]
      exact List.getElem?_append_left (by omega)
    have hlater : ∀ i, (items group ++ groups.flatMap items)[(i + 1) * step + start]? =
        (groups.flatMap items)[i * step + start]? := by
      intro i
      have hmul : (i + 1) * step = i * step + step := Nat.succ_mul i step
      rw [List.getElem?_append_right (by omega), hlength]
      congr 1
      omega
    have hitem : (items group)[start]? = some ((items group).get ⟨start, by omega⟩) :=
      List.getElem?_eq_getElem _
    rw [strided] at hrest
    rw [strided, List.length_cons, List.range_succ_eq_map, List.flatMap_cons,
      List.filterMap_cons, hfirst, hitem, List.filterMap_map, List.filterMap_cons, hitem]
    simp only [Function.comp_def, Nat.succ_eq_add_one, hlater, hrest]

/-- The first items of pairs that stand one after the other. -/
theorem strided_first {α : Type} (pairs : List (α × α)) :
    strided pairs.length 2 0 (pairs.flatMap fun pair => [pair.1, pair.2]) =
      pairs.map Prod.fst := by
  have h := strided_flatMap pairs (fun pair => [pair.1, pair.2]) 2 0
    (fun _ _ => rfl) (by decide)
  simpa using h

/-- The second items of pairs that stand one after the other. -/
theorem strided_second {α : Type} (pairs : List (α × α)) :
    strided pairs.length 2 1 (pairs.flatMap fun pair => [pair.1, pair.2]) =
      pairs.map Prod.snd := by
  have h := strided_flatMap pairs (fun pair => [pair.1, pair.2]) 2 1
    (fun _ _ => rfl) (by decide)
  simpa using h

/-- Every item of a list. -/
theorem strided_one {α : Type} (items : List α) : strided items.length 1 0 items = items := by
  have h := strided_flatMap items (fun item => [item]) 1 0 (fun _ _ => rfl) Nat.one_pos
  simpa using h

end Montage
