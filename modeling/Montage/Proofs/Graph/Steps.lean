import Montage.Proofs.Graph.Built
import Montage.Proofs.Value.Clamp

/-!
# The steps of a builder

All work of a builder comes down to steps that each read at most one file. An
account of the steps tells which clips are trimmed for them, which images are laid
over pictures and which stages are added besides. What the builder does for a
track is described by the account of its steps.
-/

namespace Montage

/-- Whether all values of an overlay count as numbers other than not-a-number. -/
def Overlay.counts (overlay : Overlay) : Bool :=
  [overlay.opacity, overlay.position.x, overlay.position.y, overlay.size.width,
    overlay.size.height].all Value.counts

/-- An overlay can be forced into its ranges exactly when its values count. -/
theorem Overlay.exists_clamped_iff {overlay : Overlay} :
    (∃ values, overlay.clamped = .ok values) ↔ overlay.counts = true := by
  constructor
  · rintro ⟨⟨frame, opacity⟩, h⟩
    obtain ⟨hframe, hopacity⟩ := Overlay.clamped_eq_ok h
    obtain ⟨hwidth, hheight, hx, hy⟩ := Frame.clamped_eq_ok hframe
    have hcounts := fun {value forced : Value} (h : value.clampPercent = .ok forced) =>
      Value.exists_clampPercent_iff.mp ⟨forced, h⟩
    have hlevel := Value.exists_clampOpacity_iff.mp ⟨opacity, hopacity⟩
    simp [counts, hlevel, hcounts hwidth, hcounts hheight, hcounts hx, hcounts hy]
  · intro h
    simp only [counts, List.all_cons, List.all_nil, Bool.and_true, Bool.and_eq_true] at h
    obtain ⟨hopacity, hx, hy, hwidth, hheight⟩ := h
    obtain ⟨opacity, hopacity⟩ := Value.exists_clampOpacity_iff.mpr hopacity
    obtain ⟨x, hx⟩ := Value.exists_clampPercent_iff.mpr hx
    obtain ⟨y, hy⟩ := Value.exists_clampPercent_iff.mpr hy
    obtain ⟨width, hwidth⟩ := Value.exists_clampPercent_iff.mpr hwidth
    obtain ⟨height, hheight⟩ := Value.exists_clampPercent_iff.mpr hheight
    exact ⟨(⟨width, height, x, y⟩, opacity), by
      rw [clamped, Frame.clamped, hwidth, hheight, hx, hy, hopacity]
      rfl⟩

/-- An overlay of the main track that is laid over its clip. -/
structure Layer where
  /-- The number of the clip. -/
  index : Nat
  /-- The number of the overlay on the clip. -/
  number : Nat
  /-- The overlay. -/
  overlay : Overlay

namespace Layer

/-- The overlays of a clip whose values count, in their order. The numbers of the
others are left out. -/
def ofOverlays (index number : Nat) (overlays : List Overlay) : List Layer :=
  ((overlays.zipIdx number).filter fun entry => entry.1.counts).map fun entry =>
    ⟨index, entry.2, entry.1⟩

/-- The overlays of the clips of the main track whose values count. -/
def ofClips (clips : List Clip) (first : Nat) : List Layer :=
  (clips.zipIdx first).flatMap fun entry => ofOverlays entry.2 0 entry.1.overlays

end Layer

/-- What the builder reads a file for. -/
inductive Task where
  /-- The picture of a clip is trimmed. -/
  | trim (clip : Clip) (label : Text)
  /-- The sound of a clip is trimmed. -/
  | listen (clip : Clip) (label : Text) (muted : Bool)
  /-- The image of an overlay whose values can be forced into their ranges is laid
  over a picture. -/
  | lay (layer : Layer) (frame : Frame) (opacity : Value) (video : Text)
    (clamped : layer.overlay.clamped = .ok (frame, opacity))

namespace Task

/-- The path of the file. -/
def path : Task → Value
  | trim clip _ => clip.source.path
  | listen clip _ _ => clip.source.path
  | lay layer _ _ _ _ => layer.overlay.image

/-- The kind of the file. -/
def kind : Task → Value
  | trim _ _ => GraphInput.media
  | listen _ _ _ => GraphInput.media
  | lay _ _ _ _ _ => GraphInput.image

/-- The stages that are added for the file. -/
def stages (source : GraphInput) : Task → List Stage
  | trim clip label => [.trim source.video label clip.inTime clip.outTime clip.filter]
  | listen clip label muted => [.audioTrim source.audio label clip.inTime clip.outTime muted]
  | lay layer frame opacity video _ =>
    let scaled := (StreamLabel.image layer.index layer.number).text
    let passed := (StreamLabel.passed layer.index layer.number).text
    [.overlayScale source.video video scaled passed frame.width frame.height opacity
        layer.overlay.image,
      .overlay passed scaled (StreamLabel.laid layer.index layer.number).text frame.x frame.y
        "repeat"]

/-- The clip whose picture is trimmed. -/
def trimmed? : Task → Option Clip
  | trim clip _ => some clip
  | _ => none

/-- The clip whose sound is trimmed. -/
def heard? : Task → Option Clip
  | listen clip _ _ => some clip
  | _ => none

/-- The overlay that is laid over a picture. -/
def layer? : Task → Option Layer
  | lay layer _ _ _ _ => some layer
  | _ => none

end Task

/-- A step of the builder. -/
inductive Step where
  /-- A file is read for a task. -/
  | read (task : Task)
  /-- A stage is added that reads no file. -/
  | add (stage : Stage)
  /-- A note is left. -/
  | tell (note : Note)

namespace Step

/-- The task that a file is read for. -/
def task? : Step → Option Task
  | read task => some task
  | _ => none

/-- The stage that reads no file. -/
def stage? : Step → Option Stage
  | add stage => some stage
  | _ => none

end Step

/-- What steps do, each kind of work in its order. -/
structure Account where
  /-- The clips whose pictures are trimmed. -/
  trimmed : List Clip
  /-- The clips whose sounds are trimmed. -/
  heard : List Clip
  /-- The overlays that are laid over pictures. -/
  layers : List Layer
  /-- The stages that read no files. -/
  stages : List Stage

namespace Account

/-- The account of steps. -/
def ofSteps (steps : List Step) : Account where
  trimmed := (steps.filterMap Step.task?).filterMap Task.trimmed?
  heard := (steps.filterMap Step.task?).filterMap Task.heard?
  layers := (steps.filterMap Step.task?).filterMap Task.layer?
  stages := steps.filterMap Step.stage?

/-- The account of more steps. -/
def append (first second : Account) : Account where
  trimmed := first.trimmed ++ second.trimmed
  heard := first.heard ++ second.heard
  layers := first.layers ++ second.layers
  stages := first.stages ++ second.stages

/-- Steps that follow each other are accounted for one after the other. -/
theorem ofSteps_append (first second : List Step) :
    ofSteps (first ++ second) = (ofSteps first).append (ofSteps second) := by
  simp [ofSteps, append]

end Account

namespace Builder

/-- The builder after a step. -/
def perform (builder : Builder) : Step → Builder
  | .read task =>
    let (source, after) := builder.addInput task.path task.kind
    { after with stages := after.stages ++ task.stages source }
  | .add stage => builder.addStage stage
  | .tell note => builder.addNote note

/-- A file is asked for and its stages are added. -/
theorem perform_read {builder after : Builder} {task : Task} {source : GraphInput}
    (h : builder.addInput task.path task.kind = (source, after)) :
    builder.perform (.read task) =
      { after with stages := after.stages ++ task.stages source } := by
  rw [perform, h]

/-- The builder after steps. -/
def run (builder : Builder) (steps : List Step) : Builder := steps.foldl perform builder

/-- Steps that follow each other are run one after the other. -/
theorem run_append (builder : Builder) (first second : List Step) :
    builder.run (first ++ second) = (builder.run first).run second := List.foldl_append

/-- A builder becomes another one by steps with an account. -/
def Becomes (builder : Builder) (account : Account) (after : Builder) : Prop :=
  ∃ steps, after = builder.run steps ∧ Account.ofSteps steps = account

variable {builder after final : Builder} {account other : Account}

namespace Becomes

/-- Nothing is done. -/
theorem refl (builder : Builder) : builder.Becomes ⟨[], [], [], []⟩ builder := ⟨[], rfl, rfl⟩

/-- One step is done. -/
theorem step (builder : Builder) (step : Step) :
    builder.Becomes (.ofSteps [step]) (builder.perform step) := ⟨[step], rfl, rfl⟩

/-- One thing is done after the other. -/
theorem trans (h : builder.Becomes account after) (h' : after.Becomes other final) :
    builder.Becomes (account.append other) final := by
  obtain ⟨first, rfl, rfl⟩ := h
  obtain ⟨second, rfl, rfl⟩ := h'
  exact ⟨first ++ second, (builder.run_append first second).symm, Account.ofSteps_append _ _⟩

/-- A stage that reads no file is added. -/
theorem add {trimmed heard : List Clip} {layers : List Layer} {stages : List Stage}
    (h : builder.Becomes ⟨trimmed, heard, layers, stages⟩ after) (stage : Stage) :
    builder.Becomes ⟨trimmed, heard, layers, stages ++ [stage]⟩ (after.addStage stage) := by
  have hstep : after.Becomes ⟨[], [], [], [stage]⟩ (after.addStage stage) :=
    .step after (.add stage)
  simpa only [Account.append, List.append_nil] using h.trans hstep

end Becomes

/-! ## The main track -/

/-- Trimming a picture is a step. -/
theorem becomes_trimVideo (builder : Builder) (clip : Clip) (label : Text) :
    builder.Becomes ⟨[clip], [], [], []⟩ (builder.trimVideo clip label) :=
  .step builder (.read (.trim clip label))

/-- So is trimming a sound. -/
theorem becomes_trimAudio (builder : Builder) (clip : Clip) (label : Text) (muted : Bool) :
    builder.Becomes ⟨[], [clip], [], []⟩ (builder.trimAudio clip label muted) :=
  .step builder (.read (.listen clip label muted))

/-- Laying an image over a picture is one, too. -/
theorem becomes_layImage (builder : Builder) (layer : Layer) {frame : Frame} {opacity : Value}
    (video : Text) (clamped : layer.overlay.clamped = .ok (frame, opacity)) :
    builder.Becomes ⟨[], [], [layer], []⟩
      (builder.layImage layer.index layer.number layer.overlay frame opacity video).2 := by
  have hstep : builder.perform (.read (.lay layer frame opacity video clamped)) =
      (builder.layImage layer.index layer.number layer.overlay frame opacity video).2 := by
    unfold layImage
    simp only [← StreamLabel.text_laid, ← StreamLabel.text_image, ← StreamLabel.text_passed]
    simp only [perform, Task.path, Task.kind, Task.stages, addStage, List.append_assoc,
      List.singleton_append]
  rw [← hstep]
  exact .step builder _

/-- The images of a clip that are laid over its picture are those whose values
count. -/
theorem becomes_layImages (builder : Builder) (index : Nat) (clip : Clip) (video : Text)
    (number : Nat) (overlays : List Overlay) :
    builder.Becomes ⟨[], [], Layer.ofOverlays index number overlays, []⟩
      (builder.layImages index clip video number overlays).2 := by
  induction overlays generalizing builder video number with
  | nil => exact .refl builder
  | cons overlay overlays ih =>
    unfold layImages
    cases hclamped : overlay.clamped with
    | ok values =>
      obtain ⟨frame, opacity⟩ := values
      have hcounts := Overlay.exists_clamped_iff.mp ⟨_, hclamped⟩
      have hlayers : Layer.ofOverlays index number (overlay :: overlays) =
          ⟨index, number, overlay⟩ :: Layer.ofOverlays index (number + 1) overlays := by
        simp [Layer.ofOverlays, hcounts]
      rw [hlayers]
      exact (builder.becomes_layImage ⟨index, number, overlay⟩ video hclamped).trans (ih _ _ _)
    | error fault =>
      have hcounts : overlay.counts = false := by
        rw [← Bool.not_eq_true, ← Overlay.exists_clamped_iff, hclamped]
        simp
      have hlayers : Layer.ofOverlays index number (overlay :: overlays) =
          Layer.ofOverlays index (number + 1) overlays := by
        simp [Layer.ofOverlays, hcounts]
      rw [hlayers]
      exact (Becomes.step builder (.tell (skippedNote clip overlay))).trans (ih _ _ _)

/-- A clip of the main track is trimmed and heard, and its images are laid over
it. -/
theorem becomes_addMainClip (builder : Builder) (options : ExportOptions) (index : Nat)
    (clip : Clip) :
    builder.Becomes ⟨[clip], [clip], Layer.ofOverlays index 0 clip.overlays, []⟩
      (builder.addMainClip options index clip).2 :=
  ((builder.becomes_trimVideo clip _).trans (becomes_trimAudio _ clip _ _)).trans
    (becomes_layImages _ index clip _ 0 clip.overlays)

/-- So are all clips of the main track. -/
theorem becomes_addMainClips (builder : Builder) (options : ExportOptions) (index : Nat)
    (clips : List Clip) :
    builder.Becomes ⟨clips, clips, Layer.ofClips clips index, []⟩
      (builder.addMainClips options index clips).2 := by
  induction clips generalizing builder index with
  | nil => exact .refl builder
  | cons clip clips ih =>
    exact (builder.becomes_addMainClip options index clip).trans (ih _ (index + 1))

/-- Stages that only put streams after each other. -/
def Joining (stages : List Stage) : Prop := ∀ stage ∈ stages, stage.kind = .concat

/-- No stage is one of them. -/
theorem joining_nil : Joining [] := by simp [Joining]

/-- The clips of the main track may be put after each other besides. -/
theorem becomes_addMainTrack (builder : Builder) (options : ExportOptions) (clips : List Clip) :
    ∃ joins, Joining joins ∧ builder.Becomes ⟨clips, clips, Layer.ofClips clips 0, joins⟩
      (builder.addMainTrack options clips).2 := by
  have hclips := builder.becomes_addMainClips options 0 clips
  unfold addMainTrack
  dsimp only
  split
  · exact ⟨[], joining_nil, hclips⟩
  · exact ⟨[_], List.forall_mem_singleton.mpr rfl, hclips.add _⟩

/-! ## The overlay track -/

/-- The clips of the overlay track are trimmed. -/
theorem becomes_trimOverlayClips (builder : Builder) (index : Nat) (clips : List Clip) :
    builder.Becomes ⟨clips, [], [], []⟩ (builder.trimOverlayClips index clips).2 := by
  induction clips generalizing builder index with
  | nil => exact .refl builder
  | cons clip clips ih => exact (builder.becomes_trimVideo clip _).trans (ih _ (index + 1))

/-- They may be put after each other. -/
theorem becomes_joinOverlayClips (builder : Builder) (labels : List Text) :
    ∃ joins, Joining joins ∧
      builder.Becomes ⟨[], [], [], joins⟩ (builder.joinOverlayClips labels).2 := by
  unfold joinOverlayClips
  split
  · exact ⟨[], joining_nil, .refl builder⟩
  · exact ⟨[_], List.forall_mem_singleton.mpr rfl, (Becomes.refl builder).add _⟩

/-- The stages that lay the overlay track over the main one, in the frame of its
first clip. Without clips there are none. -/
def Insets : List Clip → List Stage → Prop
  | [], stages => stages = []
  | first :: _, stages => ∃ picture video frame,
    Frame.clamped first.position first.size = .ok frame ∧
    stages = [
      .overlayScale picture video StreamLabel.overlayScaled.text StreamLabel.overlayBase.text
        frame.width frame.height .null .null,
      .overlay StreamLabel.overlayBase.text StreamLabel.overlayScaled.text
        StreamLabel.composited.text frame.x frame.y "pass"]

end Builder

/-- The clips of the overlay track if it is shown. -/
def ExportOptions.shown (options : ExportOptions) (clips : List Clip) : List Clip :=
  if options.overlayTrackVisible.truthy then clips else []

/-- What is shown is on the overlay track. -/
theorem ExportOptions.mem_of_shown {options : ExportOptions} {clips : List Clip} {clip : Clip}
    (h : clip ∈ options.shown clips) : clip ∈ clips := by
  unfold shown at h
  split at h
  · exact h
  · cases h

namespace Builder

variable {builder after : Builder} {options : ExportOptions}

/-- The overlay track is trimmed, joined and laid over the main one. -/
theorem becomes_addOverlayTrack {first : Clip} {rest : List Clip} {video label : Text}
    (h : builder.addOverlayTrack first (first :: rest) video = .ok (label, after)) :
    ∃ joins inset, Joining joins ∧ Insets (first :: rest) inset ∧
      builder.Becomes ⟨first :: rest, [], [], joins ++ inset⟩ after := by
  unfold addOverlayTrack at h
  split at h
  · cases h
  · next frame hframe =>
    have htrimmed := builder.becomes_trimOverlayClips 0 (first :: rest)
    cases hlabels : builder.trimOverlayClips 0 (first :: rest) with
    | mk labels trimmed =>
      rw [hlabels] at h htrimmed
      dsimp only at h htrimmed
      obtain ⟨joins, hjoins, hjoined⟩ := becomes_joinOverlayClips trimmed labels
      cases hpicture : trimmed.joinOverlayClips labels with
      | mk picture joined =>
        rw [hpicture] at h hjoined
        have hall := htrimmed.trans hjoined
        simp only [Account.append, List.append_nil, List.nil_append] at hall
        have hlaid := (hall.add (.overlayScale picture video StreamLabel.overlayScaled.text
          StreamLabel.overlayBase.text frame.width frame.height .null .null)).add
          (.overlay StreamLabel.overlayBase.text StreamLabel.overlayScaled.text
            StreamLabel.composited.text frame.x frame.y "pass")
        rw [List.append_assoc joins] at hlaid
        cases h
        exact ⟨joins, _, hjoins, ⟨picture, video, frame, hframe, rfl⟩, hlaid⟩

/-- This is done for the clips that are shown. -/
theorem becomes_addOverlay {clips : List Clip} {video label : Text}
    (h : builder.addOverlay options clips video = .ok (label, after)) :
    ∃ joins inset, Joining joins ∧ Insets (options.shown clips) inset ∧
      builder.Becomes ⟨options.shown clips, [], [], joins ++ inset⟩ after := by
  unfold addOverlay at h
  unfold ExportOptions.shown
  split at h
  · cases h
    rw [ite_self]
    exact ⟨[], [], joining_nil, rfl, .refl builder⟩
  · split at h
    · next hvisible =>
      rw [if_pos hvisible]
      exact becomes_addOverlayTrack h
    · next hhidden =>
      cases h
      rw [if_neg hhidden]
      exact ⟨[], [], joining_nil, rfl, .refl builder⟩

end Builder

namespace RenderGraph

/-- A graph comes from steps for the main track and steps for the clips of the
overlay track that are shown. -/
structure Follows (graph : RenderGraph) (main shown : List Clip) (front back : List Step) :
    Prop where
  /-- The files are those that the steps read. -/
  inputs : graph.inputs = (Builder.empty.run (front ++ back)).inputs
  /-- The stages are those of the steps. -/
  stages : graph.stages = (Builder.empty.run (front ++ back)).stages
  /-- What is done for the main track. -/
  first : ∃ joins, Builder.Joining joins ∧
    Account.ofSteps front = ⟨main, main, Layer.ofClips main 0, joins⟩
  /-- What is done for the overlay track and the output. -/
  second : ∃ joins inset video, Builder.Joining joins ∧ Builder.Insets shown inset ∧
    Account.ofSteps back = ⟨shown, [], [], joins ++ inset ++
      [.scalePad video Stage.outputVideo graph.width graph.height,
        .mux graph.videoOutput graph.audioOutput]⟩
  /-- The last stage joins the outputs. -/
  terminal : graph.terminal = .ok (.mux graph.videoOutput graph.audioOutput)

/-- A constructed graph follows the steps for its tracks. -/
theorem exists_follows {main overlay : List Clip} {options : ExportOptions}
    {width height : Value} {graph : RenderGraph}
    (h : (construct main overlay options width height).1 = .ok graph) :
    ∃ front back, graph.Follows main (options.shown overlay) front back := by
  unfold construct at h
  obtain ⟨joins, hjoins, front, hmain, hfront⟩ :=
    Builder.empty.becomes_addMainTrack options main
  obtain ⟨⟨label, builder⟩, hadded, h⟩ := Outcome.bind_eq_ok.mp (Outcome.mapError_eq_ok.mp h)
  obtain ⟨joined, inset, hjoined, hinset, hoverlay⟩ := Builder.becomes_addOverlay hadded
  obtain ⟨total, _, h⟩ := Outcome.bind_eq_ok.mp h
  obtain ⟨_, _, h⟩ := Outcome.bind_eq_ok.mp h
  rw [← Outcome.pure_eq_ok.mp h]
  obtain ⟨back, hback, haccount⟩ := (hoverlay.add
    (.scalePad label Stage.outputVideo width height)).add
    (.mux Stage.outputVideo (Builder.empty.addMainTrack options main).1.2)
  rw [hmain, ← Builder.run_append] at hback
  refine ⟨front, back, congrArg Builder.inputs hback, congrArg Builder.stages hback,
    ⟨joins, hjoins, hfront⟩, ⟨joined, inset, label, hjoined, hinset, ?_⟩, ?_⟩
  · rw [haccount, List.append_assoc _ [_] [_]]
    rfl
  · unfold terminal
    dsimp only [Builder.addStage]
    rw [List.getLast?_append]
    rfl

end RenderGraph

end Montage
