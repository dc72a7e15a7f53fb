import Montage.Proofs.Graph.Compiled
import Montage.Proofs.Graph.Gathered

/-!
# Frames of compiled graphs

Whatever values the overlays and the clips hold, the numbers that place and scale
pictures in a compiled graph are finite and lie in their ranges. An overlay of a
clip of the main track comes down to two stages exactly when all its values count
as numbers other than not-a-number. The others leave no stage.
-/

namespace Montage

namespace Stage

/-- A parameter is there and lies between two integers. -/
def Bounds (stage : Stage) (name : Text) (low high : Int) : Prop :=
  ∃ value, stage.param name = .ok value ∧ value.Within low high

/-- The parameters of a stage that scales one picture relative to another or lays
it over that one lie in their ranges. An opacity may be left open. -/
def InFrame (stage : Stage) : Prop :=
  match stage.kind with
  | .overlayScale => stage.Bounds "width" 0 100 ∧ stage.Bounds "height" 0 100 ∧
      (stage.param "opacity" = .ok .null ∨ stage.Bounds "opacity" 0 1)
  | .overlay => stage.Bounds "x" 0 100 ∧ stage.Bounds "y" 0 100
  | _ => True

/-- Whether a stage scales one picture relative to another or lays it over that
one. -/
def isLaying (stage : Stage) : Bool :=
  match stage.kind with
  | .overlayScale | .overlay => true
  | _ => false

/-- A stage that does neither is in the frame. -/
theorem inFrame_of_not_isLaying {stage : Stage} (h : stage.isLaying = false) : stage.InFrame := by
  unfold isLaying at h
  unfold InFrame
  cases hkind : stage.kind <;> simp [hkind] at h ⊢

variable {position : Position} {size : Size} {frame : Frame}

/-- A scaling with the numbers of a forced frame is in the frame. -/
theorem inFrame_overlayScale (picture reference scaled passed : Text) {opacity : Value}
    (image : Value) (clamped : Frame.clamped position size = .ok frame)
    (level : opacity = .null ∨ opacity.Within 0 1) :
    (overlayScale picture reference scaled passed frame.width frame.height opacity
      image).InFrame := by
  obtain ⟨hwidth, hheight, _, _⟩ := Frame.clamped_eq_ok clamped
  refine ⟨⟨_, rfl, Value.within_of_clampPercent hwidth⟩,
    ⟨_, rfl, Value.within_of_clampPercent hheight⟩, ?_⟩
  rcases level with rfl | hlevel
  · exact .inl rfl
  · exact .inr ⟨_, rfl, hlevel⟩

/-- So is a picture that is laid at the place of one. -/
theorem inFrame_overlay (base picture label : Text) (atEnd : Text)
    (clamped : Frame.clamped position size = .ok frame) :
    (overlay base picture label frame.x frame.y atEnd).InFrame := by
  obtain ⟨_, _, hx, hy⟩ := Frame.clamped_eq_ok clamped
  exact ⟨⟨_, rfl, Value.within_of_clampPercent hx⟩, ⟨_, rfl, Value.within_of_clampPercent hy⟩⟩

end Stage

/-- The two stages that an overlay of a clip comes down to: its image is scaled
relative to a picture and laid over it, with the numbers of the overlay forced into
their ranges. -/
def Layer.LaidBy (layer : Layer) (pair : List Stage) : Prop :=
  ∃ image base frame opacity, layer.overlay.clamped = .ok (frame, opacity) ∧
    pair = [
      .overlayScale image base (StreamLabel.image layer.index layer.number).text
        (StreamLabel.passed layer.index layer.number).text frame.width frame.height opacity
        layer.overlay.image,
      .overlay (StreamLabel.passed layer.index layer.number).text
        (StreamLabel.image layer.index layer.number).text
        (StreamLabel.laid layer.index layer.number).text frame.x frame.y "repeat"]

/-- The stages of a task are in the frame. -/
theorem Task.inFrame_stages (task : Task) (source : GraphInput) :
    ∀ stage ∈ task.stages source, stage.InFrame := by
  cases task with
  | trim clip label => exact List.forall_mem_singleton.mpr trivial
  | listen clip label muted => exact List.forall_mem_singleton.mpr trivial
  | lay layer frame opacity video clamped =>
    obtain ⟨hframe, hopacity⟩ := Overlay.clamped_eq_ok clamped
    have hscale := Stage.inFrame_overlayScale source.video video
      (StreamLabel.image layer.index layer.number).text
      (StreamLabel.passed layer.index layer.number).text layer.overlay.image hframe
      (.inr (Value.within_of_clampOpacity hopacity))
    have hlay := Stage.inFrame_overlay (StreamLabel.passed layer.index layer.number).text
      (StreamLabel.image layer.index layer.number).text
      (StreamLabel.laid layer.index layer.number).text "repeat" hframe
    exact List.forall_mem_cons.mpr ⟨hscale, List.forall_mem_singleton.mpr hlay⟩

/-- The stages that lay the overlay track over the main one are in the frame. -/
theorem Builder.Insets.inFrame {shown : List Clip} {inset : List Stage}
    (h : Builder.Insets shown inset) : ∀ stage ∈ inset, stage.InFrame := by
  cases shown with
  | nil =>
    cases h
    exact List.forall_mem_nil _
  | cons first rest =>
    obtain ⟨picture, video, frame, hframe, rfl⟩ := h
    have hscale := Stage.inFrame_overlayScale picture video StreamLabel.overlayScaled.text
      StreamLabel.overlayBase.text .null hframe (.inl rfl)
    have hlay := Stage.inFrame_overlay StreamLabel.overlayBase.text
      StreamLabel.overlayScaled.text StreamLabel.composited.text "pass" hframe
    exact List.forall_mem_cons.mpr ⟨hscale, List.forall_mem_singleton.mpr hlay⟩

/-- They all scale pictures or lay them over others. -/
theorem Builder.Insets.filter_isLaying {shown : List Clip} {inset : List Stage}
    (h : Builder.Insets shown inset) : inset.filter Stage.isLaying = inset := by
  cases shown with
  | nil =>
    cases h
    rfl
  | cons first rest =>
    obtain ⟨picture, video, frame, _, rfl⟩ := h
    rfl

/-- Stages that only put streams after each other do neither. -/
theorem Builder.Joining.not_isLaying {stages : List Stage} (h : Builder.Joining stages) :
    ∀ stage ∈ stages, stage.isLaying = false := by
  intro stage hstage
  rw [Stage.isLaying, h stage hstage]

namespace RenderGraph.Follows

variable {graph : RenderGraph} {main shown : List Clip} {front back : List Step}

/-- All stages of a graph are in the frame. -/
theorem inFrame (follows : graph.Follows main shown front back) :
    ∀ stage ∈ graph.stages, stage.InFrame := by
  obtain ⟨first, second, hstages, hfront, hback⟩ := follows.exists_groups
  obtain ⟨joins, hjoins, hfirst⟩ := follows.first
  obtain ⟨joined, inset, video, hjoined, hinset, hsecond⟩ := follows.second
  rw [hstages]
  intro stage hstage
  rcases List.mem_append.mp hstage with hmem | hmem
  · rcases of_mem_done hfront hmem with hadded | ⟨task, source, htask⟩
    · rw [hfirst] at hadded
      exact Stage.inFrame_of_not_isLaying (hjoins.not_isLaying stage hadded)
    · exact task.inFrame_stages source stage htask
  · rcases of_mem_done hback hmem with hadded | ⟨task, source, htask⟩
    · rw [hsecond] at hadded
      simp only [List.mem_append, List.mem_cons, List.not_mem_nil, or_false] at hadded
      rcases hadded with (hadded | hadded) | rfl | rfl
      · exact Stage.inFrame_of_not_isLaying (hjoined.not_isLaying stage hadded)
      · exact hinset.inFrame stage hadded
      · exact trivial
      · exact trivial
    · exact task.inFrame_stages source stage htask

/-- The stages that scale pictures or lay them over others are the pairs of the
overlays of the main track whose values count, and those of the overlay track. -/
theorem exists_pairs (follows : graph.Follows main shown front back) :
    ∃ pairs inset, graph.stages.filter Stage.isLaying = pairs.flatten ++ inset ∧
      List.Forall₂ Layer.LaidBy (Layer.ofClips main 0) pairs ∧ Builder.Insets shown inset := by
  have hlaid : ∀ (task : Task) (source : GraphInput) (layer : Layer), .read task ∈ front →
      source ∈ graph.inputs → source.IsFor task.path task.kind → task.layer? = some layer →
        layer.LaidBy ((task.stages source).filter Stage.isLaying) := by
    intro task source layer _ _ _ hlayer
    cases task with
    | lay other frame opacity base clamped =>
      cases hlayer
      exact ⟨source.video, base, frame, opacity, clamped, rfl⟩
    | trim clip label => cases hlayer
    | listen clip label muted => cases hlayer
  have hothers : ∀ (task : Task) (source : GraphInput), task.layer? = none →
      (task.stages source).filter Stage.isLaying = [] := by
    intro task source hnone
    cases task with
    | lay layer frame opacity base clamped => cases hnone
    | trim clip label => rfl
    | listen clip label muted => rfl
  have hplain : ∀ stage : Stage, stage.kind = .concat ∨ stage.kind = .scalePad ∨
      stage.kind = .mux → stage.isLaying = false := by
    rintro stage (h | h | h) <;> rw [Stage.isLaying, h]
  obtain ⟨pairs, inset, hstages, hall, hinset⟩ := follows.exists_layers hlaid hothers hplain
  rw [hinset.filter_isLaying] at hstages
  exact ⟨pairs, inset, hstages, hall, hinset⟩

end RenderGraph.Follows

namespace Compile

variable {outside : Outside} {footage : Footage} {options : ExportOptions} {trace after : Trace}

/-- Every graph that is compiled for a size has its pictures in the frame: each
width, height and distance is a finite number from zero to a hundred, and each
opacity is one from zero to one or left open. Its stages that scale pictures or lay
them over others are, in this order, the pairs of those overlays of the main track
all of whose values count as numbers other than not-a-number, and the pair of the
overlay track if that has clips and is shown. -/
theorem inFrame_of_sized {width height : Value} {graph : RenderGraph}
    (h : (sized outside footage options width height).run.run trace = (.ok graph, after)) :
    (∀ stage ∈ graph.stages, stage.InFrame) ∧
    ∃ main overlay pairs inset, footage.tracks = .ok (main, overlay) ∧
      graph.stages.filter Stage.isLaying = pairs.flatten ++ inset ∧
      List.Forall₂ Layer.LaidBy (Layer.ofClips main 0) pairs ∧
      Builder.Insets (options.shown overlay) inset := by
  obtain ⟨main, overlay, _, htracks, _, hbuilt⟩ := of_sized_eq_ok h
  obtain ⟨front, back, follows⟩ :=
    RenderGraph.exists_follows (RenderGraph.construct_of_build hbuilt)
  obtain ⟨pairs, inset, hlaying, hpairs, hinset⟩ := follows.exists_pairs
  exact ⟨follows.inFrame, main, overlay, pairs, inset, htracks, hlaying, hpairs, hinset⟩

/-- Of the two images on the film's first clip only the first can be laid over it. -/
theorem film_layers : Layer.ofClips [titled, following] 0 =
    [⟨0, 0, ⟨.text "logo", .text "logo.png", .int 1, .ofOverlay, .quarter⟩⟩] := by
  have hlogo : Overlay.counts ⟨.text "logo", .text "logo.png", .int 1, .ofOverlay, .quarter⟩ =
      true := by decide +kernel
  have hmark : Overlay.counts ⟨.text "mark", .text "mark.png", .null, .ofOverlay, .quarter⟩ =
      false := by decide +kernel
  simp [Layer.ofClips, Layer.ofOverlays, titled, following, Clip.plain, hlogo, hmark]

/-- The film comes down to two pairs: that of this image and that of its overlay
track. -/
theorem inFrame_of_film : ∃ graph after pair laid,
    (sized everywhere film .default (.int 1920) (.int 1080)).run.run Trace.empty =
      (.ok graph, after) ∧
    (∀ stage ∈ graph.stages, stage.InFrame) ∧
    graph.stages.filter Stage.isLaying = pair ++ laid ∧
    Layer.LaidBy ⟨0, 0, ⟨.text "logo", .text "logo.png", .int 1, .ofOverlay, .quarter⟩⟩ pair ∧
    Builder.Insets [inset] laid := by
  obtain ⟨checked, hvalid⟩ := exists_film_checked
  obtain ⟨graph, after, _, hsized, _⟩ :=
    exists_joins_of_valid (rfl : film.tracks = _) hvalid film_total
      (by decide +kernel) film_placeable 1920 1080
  obtain ⟨hframe, main, overlay, pairs, laid, htracks, hlaying, hpairs, hinset⟩ :=
    inFrame_of_sized hsized
  cases htracks
  rw [film_layers] at hpairs
  cases hpairs with
  | @cons _ pair _ pairs hpair hrest =>
    cases hrest
    rw [List.flatten_singleton] at hlaying
    exact ⟨graph, after, pair, laid, hsized, hframe, hlaying, hpair, hinset⟩

end Compile

end Montage
