import Montage.Proofs.Export.Command
import Montage.Proofs.Graph.Inputs

/-!
# Sources of compiled graphs

Stages name the streams of files by numbers. In a graph that was compiled from
clips whose paths are texts, the number of a file is its place, both among the
inputs and on the command line, and a stage for a clip or an image reads the file
with the path of that clip or image.
-/

namespace Montage

/-- A value that is a text. -/
def Value.IsText (value : Value) : Prop := ∃ t, value = .text t

/-- Texts that are shown alike are the same. -/
theorem Value.eq_of_display {a b : Value} (ha : a.IsText) (hb : b.IsText)
    (h : a.display = b.display) : a = b := by
  obtain ⟨s, rfl⟩ := ha
  obtain ⟨t, rfl⟩ := hb
  exact congrArg Value.text h

section Reading

variable (inputs : List GraphInput)

/-- A stage trims the picture of a clip, read from the media file with the path of
the clip's source. -/
def Clip.TrimmedBy (clip : Clip) (stage : Stage) : Prop :=
  ∃ input ∈ inputs, input.kind = GraphInput.media ∧ input.path = clip.source.path ∧
    ∃ label, stage = .trim input.video label clip.inTime clip.outTime clip.filter

/-- A stage trims the sound of a clip, read from the media file with the path of the
clip's source. -/
def Clip.HeardBy (clip : Clip) (stage : Stage) : Prop :=
  ∃ input ∈ inputs, input.kind = GraphInput.media ∧ input.path = clip.source.path ∧
    ∃ label muted, stage = .audioTrim input.audio label clip.inTime clip.outTime muted

/-- A stage scales the image of an overlay, read from the image file with the
overlay's path. -/
def Layer.ScaledBy (layer : Layer) (stage : Stage) : Prop :=
  ∃ input ∈ inputs, input.kind = GraphInput.image ∧ input.path = layer.overlay.image ∧
    ∃ base scaled passed frame opacity, stage = .overlayScale input.video base scaled passed
      (Frame.width frame) frame.height opacity layer.overlay.image

end Reading

namespace RenderGraph

/-- The numbers of streams point at the files of the clips of the main track and of
the clips of the overlay track that are shown. -/
structure Sourced (graph : RenderGraph) (main shown : List Clip) : Prop where
  /-- The number of an input is its place. -/
  numbered : ∀ (number : Nat) (input : GraphInput), graph.inputs[number]? = some input →
    input.index = .int number
  /-- No two inputs are of the same kind and have the same path. -/
  apart : graph.inputs.Pairwise fun a b => ¬ (a.kind = b.kind ∧ a.path = b.path)
  /-- A stage reads each input. -/
  read : ∀ input ∈ graph.inputs, ∃ stage ∈ graph.stages,
    .text input.video ∈ stage.inputs ∨ .text input.audio ∈ stage.inputs
  /-- The picture trims are those of the clips in their order. -/
  pictures : List.Forall₂ (Clip.TrimmedBy graph.inputs) (main ++ shown)
    (graph.stagesOf (.text "trim"))
  /-- The sound trims are those of the clips of the main track in their order. -/
  sounds : List.Forall₂ (Clip.HeardBy graph.inputs) main (graph.stagesOf (.text "atrim"))
  /-- The stages that scale images are those of the overlays of the main track whose
  values count, in their order; the one of the overlay track scales no image. -/
  images : ∃ scaled inset, graph.stagesOf (.text "overlay_scale") = scaled ++ inset ∧
    List.Forall₂ (Layer.ScaledBy graph.inputs) (Layer.ofClips main 0) scaled ∧
    ∀ stage ∈ inset, stage.param "image" = .ok .null

end RenderGraph

/-- If each group holds one stage, the stages stand for the items in their order. -/
theorem forall₂_flatten {α β : Type} {P : α → β → Prop} {items : List α} {groups : List (List β)}
    (h : List.Forall₂ (fun item group => ∃ b, group = [b] ∧ P item b) items groups) :
    List.Forall₂ P items groups.flatten := by
  induction h with
  | nil => exact .nil
  | cons hgroup _ ih =>
    obtain ⟨b, rfl, hb⟩ := hgroup
    exact .cons hb ih

namespace Builder

variable {stages inset : List Stage} {shown : List Clip}

/-- Among stages that only put streams after each other there are none with another
name. -/
theorem Joining.filter_named (h : Joining stages) {name : Value}
    (other : StageKind.concat.name.equal name = false) :
    (stages.filter fun stage => stage.kind.name.equal name) = [] :=
  List.filter_eq_nil_iff.mpr fun stage hstage => by simp [h stage hstage, other]

/-- Among the stages that lay the overlay track over the main one there are none
with yet other names. -/
theorem Insets.filter_named (h : Insets shown inset) {name : Value}
    (scale : StageKind.overlayScale.name.equal name = false)
    (lay : StageKind.overlay.name.equal name = false) :
    (inset.filter fun stage => stage.kind.name.equal name) = [] := by
  cases shown with
  | nil =>
    cases h
    rfl
  | cons first rest =>
    obtain ⟨picture, video, frame, _, rfl⟩ := h
    simp [Stage.overlayScale, Stage.overlay, Stage.labelled, scale, lay]

/-- None of them scales an image. -/
theorem Insets.param_image (h : Insets shown inset) :
    ∀ stage ∈ inset.filter fun stage => stage.kind.name.equal (.text "overlay_scale"),
      stage.param "image" = .ok .null := by
  cases shown with
  | nil =>
    cases h
    exact List.forall_mem_nil _
  | cons first rest =>
    obtain ⟨picture, video, frame, _, rfl⟩ := h
    exact List.forall_mem_singleton.mpr rfl

end Builder

namespace RenderGraph.Follows

variable {graph : RenderGraph} {main shown : List Clip} {front back : List Step}

/-- If each task stands for at most one stage with a name, and no stage that reads
no file has the name, then the stages with the name are those that the tasks stand
for, in their order. -/
theorem forall₂_stagesOf (follows : graph.Follows main shown front back) {name : Value}
    (others : ∀ kind ∈ [StageKind.concat, .overlayScale, .overlay, .scalePad, .mux],
      kind.name.equal name = false) {γ : Type} {meaning? : Task → Option γ} {P : γ → Stage → Prop}
    (meant : ∀ (task : Task) (source : GraphInput) (meaning : γ), .read task ∈ front ++ back →
      source ∈ graph.inputs → source.IsFor task.path task.kind → meaning? task = some meaning →
        ∃ stage, ((task.stages source).filter fun stage => stage.kind.name.equal name) = [stage] ∧
          P meaning stage)
    (unmeant : ∀ (task : Task) (source : GraphInput), meaning? task = none →
      ((task.stages source).filter fun stage => stage.kind.name.equal name) = []) :
    List.Forall₂ P (((front ++ back).filterMap Step.task?).filterMap meaning?)
      (graph.stagesOf name) := by
  obtain ⟨first, second, hstages, hfront, hback⟩ := follows.exists_groups
  obtain ⟨joins, hjoins, hfirst⟩ := follows.first
  obtain ⟨joined, inset, video, hjoined, hinset, hsecond⟩ := follows.second
  simp only [List.mem_cons, List.not_mem_nil, or_false, forall_eq_or_imp, forall_eq] at others
  obtain ⟨hconcat, hscale, hlay, hpad, hmux⟩ := others
  have hadded : ((Account.ofSteps (front ++ back)).stages.filter
      fun stage => stage.kind.name.equal name) = [] := by
    rw [Account.ofSteps_append, hfirst, hsecond]
    simp only [Account.append, List.filter_append, hjoins.filter_named hconcat,
      hjoined.filter_named hconcat, hinset.filter_named hscale hlay, List.nil_append]
    simp [Stage.scalePad, Stage.mux, Stage.labelled, hpad, hmux]
  obtain ⟨selected, hselected, hall⟩ :=
    exists_selected (Q := fun meaning group => ∃ stage, group = [stage] ∧ P meaning stage)
      (List.rel_append hfront hback) meant unmeant hadded
  rw [stagesOf, hstages, ← List.flatten_append, hselected]
  exact forall₂_flatten hall

/-- The tasks of a graph, told by what they are for. -/
theorem account (follows : graph.Follows main shown front back) :
    ((front ++ back).filterMap Step.task?).filterMap Task.trimmed? = main ++ shown ∧
      ((front ++ back).filterMap Step.task?).filterMap Task.heard? = main := by
  obtain ⟨_, _, hfirst⟩ := follows.first
  obtain ⟨_, _, _, _, _, hsecond⟩ := follows.second
  have haccount := Account.ofSteps_append front back
  rw [hfirst, hsecond] at haccount
  exact ⟨congrArg Account.trimmed haccount,
    (congrArg Account.heard haccount).trans (List.append_nil main)⟩

/-- What holds of every trim of a picture, read from a file that is given for it, holds of the
picture trims of a graph and its clips in their order. -/
theorem forall₂_pictures (follows : graph.Follows main shown front back)
    {P : Clip → Stage → Prop}
    (holds : ∀ (clip : Clip) (label : Text) (source : GraphInput),
      .read (.trim clip label) ∈ front ++ back → source ∈ graph.inputs →
        source.IsFor clip.source.path GraphInput.media →
          P clip (.trim source.video label clip.inTime clip.outTime clip.filter)) :
    List.Forall₂ P (main ++ shown) (graph.stagesOf (.text "trim")) := by
  rw [← follows.account.1]
  refine follows.forall₂_stagesOf (by decide +kernel) ?_ ?_
  · intro task source clip htask hsource hfor hclip
    cases task with
    | trim other label =>
      cases hclip
      exact ⟨_, rfl, holds clip label source htask hsource hfor⟩
    | listen other label muted => cases hclip
    | lay layer frame opacity video clamped => cases hclip
  · intro task source hnone
    cases task with
    | trim other label => cases hnone
    | listen other label muted => rfl
    | lay layer frame opacity video clamped => rfl

/-- The same for the sounds of the main track. -/
theorem forall₂_sounds (follows : graph.Follows main shown front back) {P : Clip → Stage → Prop}
    (holds : ∀ (clip : Clip) (label : Text) (muted : Bool) (source : GraphInput),
      .read (.listen clip label muted) ∈ front ++ back → source ∈ graph.inputs →
        source.IsFor clip.source.path GraphInput.media →
          P clip (.audioTrim source.audio label clip.inTime clip.outTime muted)) :
    List.Forall₂ P main (graph.stagesOf (.text "atrim")) := by
  rw [← follows.account.2]
  refine follows.forall₂_stagesOf (by decide +kernel) ?_ ?_
  · intro task source clip htask hsource hfor hclip
    cases task with
    | listen other label muted =>
      cases hclip
      exact ⟨_, rfl, holds clip label muted source htask hsource hfor⟩
    | trim other label => cases hclip
    | lay layer frame opacity video clamped => cases hclip
  · intro task source hnone
    cases task with
    | listen other label muted => cases hnone
    | trim other label => rfl
    | lay layer frame opacity video clamped => rfl

/-- A clip whose picture is trimmed is one of those that are shown. -/
theorem mem_of_trim (follows : graph.Follows main shown front back) {clip : Clip} {label : Text}
    (h : .read (.trim clip label) ∈ front ++ back) : clip ∈ main ++ shown := by
  rw [← follows.account.1, List.mem_filterMap]
  exact ⟨_, List.mem_filterMap.mpr ⟨_, h, rfl⟩, rfl⟩

/-- A clip whose sound is trimmed is on the main track. -/
theorem mem_of_listen (follows : graph.Follows main shown front back) {clip : Clip} {label : Text}
    {muted : Bool} (h : .read (.listen clip label muted) ∈ front ++ back) : clip ∈ main := by
  rw [← follows.account.2, List.mem_filterMap]
  exact ⟨_, List.mem_filterMap.mpr ⟨_, h, rfl⟩, rfl⟩

variable (follows : graph.Follows main shown front back)
  (hmain : ∀ clip ∈ main, clip.Reads Value.IsText)
  (hshown : ∀ clip ∈ shown, clip.source.path.IsText)

include follows hmain hshown

/-- If all paths are texts, the file that is given for a task has the task's path. -/
theorem path_eq {task : Task} {source : GraphInput} (htask : .read task ∈ front ++ back)
    (hsource : source ∈ graph.inputs) (hfor : source.IsFor task.path task.kind) :
    source.path = task.path :=
  Value.eq_of_display (follows.reads hmain hshown source hsource)
    (follows.path_of_task hmain hshown htask) hfor.2

/-- The picture trims of a graph are those of its clips. -/
theorem pictures : List.Forall₂ (Clip.TrimmedBy graph.inputs) (main ++ shown)
    (graph.stagesOf (.text "trim")) := by
  refine follows.forall₂_pictures fun clip label source htask hsource hfor => ?_
  exact ⟨source, hsource, hfor.1, follows.path_eq hmain hshown htask hsource hfor, label, rfl⟩

/-- The sound trims of a graph are those of the clips of the main track. -/
theorem sounds : List.Forall₂ (Clip.HeardBy graph.inputs) main
    (graph.stagesOf (.text "atrim")) := by
  refine follows.forall₂_sounds fun clip label muted source htask hsource hfor => ?_
  exact ⟨source, hsource, hfor.1, follows.path_eq hmain hshown htask hsource hfor, label, muted,
    rfl⟩

/-- The stages of a graph that scale images are those of the overlays of the main
track whose values count. -/
theorem images : ∃ scaled inset, graph.stagesOf (.text "overlay_scale") = scaled ++ inset ∧
    List.Forall₂ (Layer.ScaledBy graph.inputs) (Layer.ofClips main 0) scaled ∧
    ∀ stage ∈ inset, stage.param "image" = .ok .null := by
  have hlaid : ∀ (task : Task) (source : GraphInput) (layer : Layer), .read task ∈ front →
      source ∈ graph.inputs → source.IsFor task.path task.kind → task.layer? = some layer →
        ∃ stage, ((task.stages source).filter fun stage =>
          stage.kind.name.equal (.text "overlay_scale")) = [stage] ∧
            layer.ScaledBy graph.inputs stage := by
    intro task source layer htask hsource hfor hlayer
    have hpath := follows.path_eq hmain hshown (List.mem_append_left _ htask) hsource hfor
    cases task with
    | lay other frame opacity base clamped =>
      cases hlayer
      exact ⟨_, rfl, source, hsource, hfor.1, hpath, base, _, _, frame, opacity, rfl⟩
    | trim clip label => cases hlayer
    | listen clip label muted => cases hlayer
  have hothers : ∀ (task : Task) (source : GraphInput), task.layer? = none →
      ((task.stages source).filter fun stage =>
        stage.kind.name.equal (.text "overlay_scale")) = [] := by
    intro task source hnone
    cases task with
    | lay layer frame opacity base clamped => cases hnone
    | trim clip label => rfl
    | listen clip label muted => rfl
  have hplain : ∀ stage : Stage, stage.kind = .concat ∨ stage.kind = .scalePad ∨
      stage.kind = .mux → stage.kind.name.equal (.text "overlay_scale") = false := by
    rintro stage (h | h | h) <;> rw [h] <;> decide +kernel
  obtain ⟨scaled, inset, hstages, hall, hinset⟩ := follows.exists_layers
    (Q := fun layer group => ∃ stage, group = [stage] ∧ layer.ScaledBy graph.inputs stage)
    hlaid hothers hplain
  exact ⟨scaled.flatten, _, hstages, forall₂_flatten hall, hinset.param_image⟩

/-- The numbers of streams point at the right files. -/
theorem sourced : graph.Sourced main shown := by
  obtain ⟨hnumbered, hapart, hread⟩ := follows.gathered
  refine ⟨hnumbered, hapart.imp fun {a b} hdiffers hsame => ?_, hread,
    follows.pictures hmain hshown, follows.sounds hmain hshown, follows.images hmain hshown⟩
  exact hdiffers ⟨hsame.1, congrArg Value.display hsame.2⟩

end RenderGraph.Follows

namespace RenderGraph

/-- The values that are told for a flag among flags with their values. -/
def valuesOf (flag : Text) (pairs : List (Text × Value)) : List Value :=
  (pairs.filter fun pair => pair.1 = flag).map Prod.snd

/-- More flags add more values. -/
theorem valuesOf_append (flag : Text) (first second : List (Text × Value)) :
    valuesOf flag (first ++ second) = valuesOf flag first ++ valuesOf flag second := by
  simp [valuesOf]

/-- The values that one flag is told for. -/
theorem valuesOf_map_self {α : Type} (flag : Text) (value : α → Value) (items : List α) :
    valuesOf flag (items.map fun item => (flag, value item)) = items.map value := by
  simp [valuesOf, List.filter_map, Function.comp_def]

/-- They are not told for another one. -/
theorem valuesOf_map_of_ne {α : Type} {flag other : Text} (h : other ≠ flag) (value : α → Value)
    (items : List α) : valuesOf flag (items.map fun item => (other, value item)) = [] := by
  simp [valuesOf, h]

/-- A command line of an engine names the files of a graph in the order of their
numbers and selects the streams of the output: between the engine and the file that
is written there are flags with one value each, but for the first one. -/
def Commands (graph : RenderGraph) (video audio : Text) (settings : EncoderSettings)
    (engine : Value) (command : List Value) : Prop :=
  ∃ pairs : List (Text × Value),
    command = [engine, .text "-y"] ++ pairs.flatMap (fun pair => [.text pair.1, pair.2]) ++
      [settings.outputPath] ∧
    valuesOf "-i" pairs = graph.inputs.map GraphInput.path ∧
    valuesOf "-map" pairs =
      [.text (Stage.link (.text video)), .text (Stage.link (.text audio))]

/-- The command line of a graph is such a command. -/
theorem commands_of_commandLine {graph : RenderGraph} {video audio : Text}
    {settings : EncoderSettings} {engine : Value} {command : List Value}
    (last : graph.terminal = .ok (.mux video audio))
    (h : graph.commandLine settings engine = .ok command) :
    graph.Commands video audio settings engine command := by
  obtain ⟨filters, _, h⟩ := Outcome.bind_eq_ok.mp h
  obtain ⟨stage, hstage, h⟩ := Outcome.bind_eq_ok.mp h
  rw [last] at hstage
  cases hstage
  obtain ⟨picture, hpicture, h⟩ := Outcome.bind_eq_ok.mp h
  obtain ⟨sound, hsound, h⟩ := Outcome.bind_eq_ok.mp h
  obtain ⟨rate, _, h⟩ := Outcome.bind_eq_ok.mp h
  cases hpicture
  cases hsound
  cases h
  refine ⟨graph.inputs.map (fun input => (("-i" : Text), input.path)) ++ ([
    ("-filter_complex", .text filters),
    ("-map", .text (Stage.link (.text video))),
    ("-map", .text (Stage.link (.text audio))),
    ("-c:v", settings.videoCodec),
    ("-preset", settings.videoPreset),
    ("-crf", .text settings.videoQuality.display),
    ("-c:a", settings.audioCodec),
    ("-b:a", settings.audioBitrate),
    ("-r", .text rate)] : List (Text × Value)), ?_, ?_, ?_⟩
  · simp [inputArguments, List.flatMap_map]
  · rw [valuesOf_append, valuesOf_map_self]
    exact List.append_nil _
  · rw [valuesOf_append, valuesOf_map_of_ne (by decide)]
    rfl

end RenderGraph

namespace Compile

variable {outside : Outside} {footage : Footage} {options : ExportOptions} {graph : RenderGraph}

/-- Footage is compiled to a graph, at the size that its options ask for or at any
other size. -/
def Compiles (outside : Outside) (footage : Footage) (options : ExportOptions)
    (graph : RenderGraph) : Prop :=
  ∃ trace after, (run outside footage options).run.run trace = (.ok graph, after) ∨
    ∃ width height, (sized outside footage options width height).run.run trace = (.ok graph, after)

/-- A graph that was compiled follows the steps for the tracks of the footage. -/
theorem Compiles.exists_follows (h : Compiles outside footage options graph) :
    ∃ main overlay front back, footage.tracks = .ok (main, overlay) ∧
      graph.Follows main (options.shown overlay) front back := by
  obtain ⟨trace, after, h | ⟨width, height, h⟩⟩ := h
  · obtain ⟨main, overlay, _, _, htracks, _, _, hbuilt⟩ := of_run_eq_ok h
    obtain ⟨front, back, follows⟩ :=
      RenderGraph.exists_follows (RenderGraph.construct_of_build hbuilt)
    exact ⟨main, overlay, front, back, htracks, follows⟩
  · obtain ⟨main, overlay, _, htracks, _, hbuilt⟩ := of_sized_eq_ok h
    obtain ⟨front, back, follows⟩ :=
      RenderGraph.exists_follows (RenderGraph.construct_of_build hbuilt)
    exact ⟨main, overlay, front, back, htracks, follows⟩

/-- The numbers of streams in every graph that was compiled from clips whose paths
are texts point at the files of these clips, and each command line of the graph
names the files in the order of their numbers and selects the streams that its last
stage joins. -/
theorem sourced_of_compiles (h : Compiles outside footage options graph)
    (paths : ∀ clip ∈ footage.shown, clip.Reads Value.IsText) :
    ∃ main overlay video audio, footage.tracks = .ok (main, overlay) ∧
      graph.Sourced main (options.shown overlay) ∧
      graph.terminal = .ok (.mux video audio) ∧
      ∀ settings engine command, graph.commandLine settings engine = .ok command →
        graph.Commands video audio settings engine command := by
  obtain ⟨main, overlay, front, back, htracks, follows⟩ := h.exists_follows
  have hshown := Footage.mem_shown_of_tracks htracks
  refine ⟨main, overlay, _, _, htracks, follows.sourced ?_ ?_, follows.terminal,
    fun settings engine command => RenderGraph.commands_of_commandLine follows.terminal⟩
  · exact fun clip hclip => paths clip (hshown clip (List.mem_append_left _ hclip))
  · intro clip hclip
    exact (paths clip (hshown clip
      (List.mem_append_right _ (ExportOptions.mem_of_shown hclip)))).1

/-- The film's numbers point at its files, also on its command line. -/
theorem sourced_of_film : ∃ graph, Compiles everywhere film .default graph ∧
    graph.Sourced [titled, following] [inset] ∧
    ∃ video audio command, graph.terminal = .ok (.mux video audio) ∧
      graph.commandLine (.ofPath (.text "film.mp4")) (.text "ffmpeg") = .ok command ∧
      graph.Commands video audio (.ofPath (.text "film.mp4")) (.text "ffmpeg") command := by
  obtain ⟨checked, hvalid⟩ := exists_film_checked
  obtain ⟨graph, after, _, hsized, hjoins⟩ :=
    exists_joins_of_valid (rfl : film.tracks = _) hvalid film_total
      (by decide +kernel) film_placeable 1920 1080
  have hcompiles : Compiles everywhere film .default graph :=
    ⟨Trace.empty, after, .inr ⟨_, _, hsized⟩⟩
  have hpaths : ∀ clip ∈ film.shown, clip.Reads Value.IsText := by
    simp [film, Footage.shown, Timeline.clips, Clip.Reads, Value.IsText, titled, following, inset,
      Clip.plain]
  obtain ⟨main, overlay, video, audio, htracks, hsourced, hterminal, hcommands⟩ :=
    sourced_of_compiles hcompiles hpaths
  obtain ⟨command, hcommand, _⟩ :=
    Export.exists_commandLine hjoins (EncoderSettings.typed_ofPath (.text "film.mp4")) rfl "ffmpeg"
  cases htracks
  exact ⟨graph, hcompiles, hsourced, video, audio, command, hterminal, hcommand,
    hcommands _ _ _ hcommand⟩

end Compile

end Montage
