import Montage.Graph.Compile
import Montage.Proofs.Graph.Finished
import Montage.Proofs.Work

/-!
# Compiled graphs

What a compilation returns is what its tracks are meant to be: the output of the
graph unfolds to the composition of both tracks and to the sound of the main
one. A compilation of valid clips fails only over the frame of the overlay track;
otherwise it returns a graph that is linear, and so is its filter text.
-/

namespace Montage

namespace Compiling

variable {α : Type}

/-- An outcome that needs nothing from outside leaves the record as it is. -/
theorem run_ofOutcome (outcome : Outcome α) (trace : Trace) :
    (ofOutcome outcome).run.run trace = (outcome, trace) := rfl

end Compiling

namespace Compile

/-- Validation that passes has accepted every clip. -/
theorem valid_of_validateEach {outside : Outside} {clips : List Clip} {trace after : Trace}
    (h : (validateEach outside clips).run.run trace = (.ok (), after)) :
    ∀ clip ∈ clips, clip.validate = .ok () := by
  induction clips generalizing trace with
  | nil => exact fun clip hclip => absurd hclip List.not_mem_nil
  | cons clip clips ih =>
    obtain ⟨_, _, _, h⟩ := Work.run_bind_eq_ok.mp h
    obtain ⟨found, _, _, h⟩ := Work.run_bind_eq_ok.mp h
    cases found with
    | false => cases h
    | true =>
      obtain ⟨_, _, hvalid, h⟩ := Work.run_bind_eq_ok.mp h
      intro other hother
      rcases List.mem_cons.mp hother with rfl | hother
      · rw [Compiling.run_ofOutcome, Prod.mk.injEq] at hvalid
        exact hvalid.1
      · exact ih h other hother

/-- Validation of both tracks that passes has accepted every clip. -/
theorem valid_of_validate {outside : Outside} {main overlay : List Clip} {trace after : Trace}
    (h : (validate outside main overlay).run.run trace = (.ok (), after)) :
    (∀ clip ∈ main, clip.validate = .ok ()) ∧ ∀ clip ∈ overlay, clip.validate = .ok () := by
  unfold validate at h
  split at h
  · cases h
  · have hall := valid_of_validateEach h
    exact ⟨fun clip hclip => hall clip (List.mem_append_left _ hclip),
      fun clip hclip => hall clip (List.mem_append_right _ hclip)⟩

/-- Footage whose tracks are valid is built. -/
theorem sized_run {outside : Outside} {footage : Footage} {main overlay : List Clip}
    {trace checked : Trace} (tracks : footage.tracks = .ok (main, overlay))
    (valid : (validate outside main overlay).run.run trace = (.ok (), checked))
    (options : ExportOptions) (width height : Value) :
    (sized outside footage options width height).run.run trace =
      ((RenderGraph.build main overlay options width height).1,
        checked.leave (RenderGraph.build main overlay options width height).2) := by
  have htracks : (Compiling.ofOutcome footage.tracks).run.run trace =
      (.ok (main, overlay), trace) := by
    rw [Compiling.run_ofOutcome, tracks]
  unfold sized
  rw [Work.run_bind_of_ok htracks, Work.run_bind_of_ok valid]
  rfl

/-- Footage for which a graph is returned has valid tracks, of which the graph was
built. -/
theorem of_sized_eq_ok {outside : Outside} {footage : Footage} {options : ExportOptions}
    {width height : Value} {trace after : Trace} {graph : RenderGraph}
    (h : (sized outside footage options width height).run.run trace = (.ok graph, after)) :
    ∃ main overlay checked, footage.tracks = .ok (main, overlay) ∧
      (validate outside main overlay).run.run trace = (.ok (), checked) ∧
      (RenderGraph.build main overlay options width height).1 = .ok graph := by
  obtain ⟨⟨main, overlay⟩, _, htracks, hrest⟩ := Work.run_bind_eq_ok.mp h
  obtain ⟨_, checked, hvalid, _⟩ := Work.run_bind_eq_ok.mp hrest
  rw [Compiling.run_ofOutcome, Prod.mk.injEq] at htracks
  obtain ⟨htracks, rfl⟩ := htracks
  refine ⟨main, overlay, checked, htracks, hvalid, ?_⟩
  rw [sized_run htracks hvalid, Prod.mk.injEq] at h
  exact h.1

end Compile

namespace RenderGraph

/-- The graph of a builder that holds the picture of both tracks and the sound of
the main one. -/
def finished (builder : Builder) (video audio : Text) (width height : Value) (total : Number) :
    RenderGraph where
  inputs := builder.inputs
  stages := builder.stages ++ [.scalePad video Stage.outputVideo width height] ++
    [.mux Stage.outputVideo audio]
  width := width
  height := height
  duration := .number total
  videoOutput := Stage.outputVideo
  audioOutput := audio

variable {builder : Builder} {video audio : StreamLabel} {picture sound : Signal}

/-- A finished graph joins the padded picture and the sound. -/
theorem joins_finished (holds : builder.Holds ⟨6, 0, 0⟩ [(video, picture), (audio, sound)])
    {good : Stage → Prop} (hgood : ∀ stage, stage.Written → good stage) {width height : Value}
    (hscale : good (.scalePad video.text Stage.outputVideo width height)) (total : Number) :
    (finished builder video.text audio.text width height total).Joins good
      (.padded picture width height) sound where
  numbered := holds.numbered
  flows := by
    obtain ⟨made, flow, hmade⟩ := holds.flows
    have hfresh : (made ++ [StreamLabel.output]).Nodup := by
      refine List.nodup_append.mpr ⟨flow.made_nodup, List.nodup_singleton _, ?_⟩
      intro label hlabel other hother hsame
      have hbefore := hmade label hlabel
      rw [hsame, List.mem_singleton.mp hother] at hbefore
      simp [StreamLabel.rank, Rank.Before] at hbefore
    have hpadded := Flow.add (flow.mono (fun _ h => h) hgood) hscale
      (Stage.turns_scalePad video .output picture width height) (by simp [Feed.Ready]) (.refl _)
      hfresh (.refl _)
    exact ⟨_, _, .output, audio, hpadded, rfl, rfl, rfl⟩

/-- Finishing a graph only needs the sum of the durations. -/
theorem finish_eq (holds : builder.Holds ⟨6, 0, 0⟩ [(video, picture), (audio, sound)])
    (main : List Clip) (width height : Value) :
    finish builder video.text audio.text main width height =
      (totalDuration main).map (finished builder video.text audio.text width height) := by
  cases htotal : totalDuration main with
  | error fault =>
    unfold finish
    rw [htotal]
    rfl
  | ok total =>
    have hjoins : (finished builder video.text audio.text width height total).Joins
        (fun _ => True) (.padded picture width height) sound :=
      joins_finished holds (fun _ _ => trivial) trivial total
    have hchecked := hjoins.checkTopology_eq_ok
    unfold finish
    rw [htotal, Outcome.ok_bind]
    change ((finished builder video.text audio.text width height total).checkTopology >>=
      fun _ => pure (finished builder video.text audio.text width height total)) = _
    rw [hchecked]
    rfl

variable {main overlay : List Clip} {options : ExportOptions}

/-- Constructing a graph of valid clips fails over the frame of the overlay track,
or comes down to the sum of the durations. -/
theorem construct_cases (validMain : ∀ clip ∈ main, clip.validate = .ok ())
    (validOverlay : ∀ clip ∈ overlay, clip.validate = .ok ()) (options : ExportOptions)
    (width height : Value) :
    (∃ (fault : Fault) (first : Clip), Signal.composition main overlay options = .error fault ∧
      overlay.head? = some first ∧ (construct main overlay options width height).1 =
        .error (.uncompilable (.overlayGeometry first.id))) ∨
    ∃ (picture : Signal) (video audio : StreamLabel) (builder : Builder),
      Signal.composition main overlay options = .ok picture ∧
      builder.Holds ⟨6, 0, 0⟩ [(video, picture), (audio, Signal.mainSound main options)] ∧
      (construct main overlay options width height).1 =
        ((totalDuration main).map
          (finished builder video.text audio.text width height)).mapError asGraphFault := by
  obtain ⟨video, audio, hlabels, hmain⟩ :=
    (Builder.holds_empty ⟨0, 0, 0⟩).addMainTrack validMain options
  unfold construct
  cases hadded : Builder.empty.addMainTrack options main with
  | mk labels builder =>
    rw [hadded] at hlabels hmain
    dsimp only at hlabels hmain ⊢
    rw [hlabels]
    dsimp only
    rcases hmain.addOverlay validOverlay with
      ⟨fault, first, hcomposition, hfirst, hoverlay⟩ |
      ⟨picture, label, after, hcomposition, hoverlay, hholds⟩
    · refine .inl ⟨fault, first, hcomposition, hfirst, ?_⟩
      rw [hoverlay]
      rfl
    · refine .inr ⟨picture, label, audio, after, hcomposition, hholds, ?_⟩
      rw [hoverlay, Outcome.ok_bind]
      dsimp only
      rw [finish_eq hholds]

/-- A graph is built by constructing it and showing its duration. -/
theorem build_eq (main overlay : List Clip) (options : ExportOptions) (width height : Value) :
    (build main overlay options width height).1 = (do
      let graph ← (construct main overlay options width height).1
      graph.builtNote.map fun _ => graph) := by
  unfold build
  cases construct main overlay options width height with
  | mk outcome notes =>
    cases outcome with
    | error fault => rfl
    | ok graph =>
      dsimp only
      rw [Outcome.ok_bind]
      cases graph.builtNote <;> rfl

/-- A graph is built exactly if it is constructed and a double can hold its duration. -/
theorem build_eq_ok {width height : Value} {graph : RenderGraph} :
    (build main overlay options width height).1 = .ok graph ↔
      (construct main overlay options width height).1 = .ok graph ∧
        ∃ x, graph.duration.toReal = .ok x := by
  rw [build_eq, Outcome.bind_eq_ok]
  constructor
  · rintro ⟨built, hbuilt, hnoted⟩
    cases hduration : built.duration.toReal with
    | error fault =>
      rw [builtNote, hduration] at hnoted
      cases hnoted
    | ok x =>
      rw [builtNote, hduration] at hnoted
      cases hnoted
      exact ⟨hbuilt, x, hduration⟩
  · rintro ⟨hbuilt, x, hduration⟩
    refine ⟨graph, hbuilt, ?_⟩
    rw [builtNote, hduration]
    rfl

/-- A graph that is built was constructed. -/
theorem construct_of_build {width height : Value} {graph : RenderGraph}
    (h : (build main overlay options width height).1 = .ok graph) :
    (construct main overlay options width height).1 = .ok graph :=
  (build_eq_ok.mp h).1

/-- A graph that is constructed of valid clips finishes one that holds the composition
of both tracks and the sound of the main one. -/
theorem exists_finished_of_construct (validMain : ∀ clip ∈ main, clip.validate = .ok ())
    (validOverlay : ∀ clip ∈ overlay, clip.validate = .ok ()) {width height : Value}
    {graph : RenderGraph} (h : (construct main overlay options width height).1 = .ok graph) :
    ∃ (picture : Signal) (video audio : StreamLabel) (builder : Builder) (total : Number),
      Signal.composition main overlay options = .ok picture ∧
      builder.Holds ⟨6, 0, 0⟩ [(video, picture), (audio, Signal.mainSound main options)] ∧
      totalDuration main = .ok total ∧
      graph = finished builder video.text audio.text width height total := by
  rcases construct_cases validMain validOverlay options width height with
    ⟨_, _, _, _, hfailed⟩ | ⟨picture, video, audio, builder, hcomposition, hholds, hfinish⟩
  · rw [hfailed] at h
    cases h
  · rw [hfinish] at h
    cases htotal : totalDuration main with
    | error fault =>
      rw [htotal] at h
      cases h
    | ok total =>
      rw [htotal] at h
      cases h
      exact ⟨picture, video, audio, builder, total, hcomposition, hholds, rfl, rfl⟩

/-- A construction that fails is no build. -/
theorem build_of_construct_error {width height : Value} {fault : Fault}
    (h : (construct main overlay options width height).1 = .error fault) :
    (build main overlay options width height).1 = .error fault := by
  rw [build_eq, h, Outcome.error_bind]

/-- The overlay track is shown, and the place or the size of its first clip holds
not-a-number or no number at all. -/
def Unplaceable (overlay : List Clip) (options : ExportOptions) : Prop :=
  ∃ first, overlay.head? = some first ∧ options.overlayTrackVisible.truthy = true ∧
    ∃ value ∈ [first.size.width, first.size.height, first.position.x, first.position.y],
      value.isNaN = true ∨ value.number? = none

/-- Two tracks cannot be composed exactly when the overlay track cannot be
placed. -/
theorem composition_eq_error (main overlay : List Clip) (options : ExportOptions) :
    (∃ fault, Signal.composition main overlay options = .error fault) ↔
      Unplaceable overlay options := by
  cases overlay with
  | nil =>
    constructor
    · rintro ⟨fault, h⟩
      cases h
    · rintro ⟨first, h, _⟩
      cases h
  | cons first clips =>
    unfold Signal.composition Unplaceable
    simp only [List.head?_cons, Option.some.injEq, exists_eq_left', ← Frame.clamped_eq_error]
    by_cases hvisible : options.overlayTrackVisible.truthy
    · cases hclamped : Frame.clamped first.position first.size with
      | error fault => simp [hvisible]
      | ok frame => simp [hvisible, pure, Except.pure]
    · simp [hvisible]

end RenderGraph

namespace Compile

open RenderGraph

variable {outside : Outside} {footage : Footage} {main overlay : List Clip}
  {options : ExportOptions} {trace checked after : Trace}

/-- Dimensions that can be used become whole numbers. -/
theorem exists_int_of_usable {width height : Value} {size : Value × Value}
    (h : usableDimensions width height = .ok size) : ∃ m n : Int, size = (.int m, .int n) := by
  simp only [usableDimensions, Outcome.bind_eq_ok, Outcome.demand_bind_eq_ok] at h
  obtain ⟨_, _, _, _, _, _, _, _, _, _, h⟩ := h
  split at h
  · exact absurd h Outcome.reject_ne_ok
  · obtain ⟨m, _, h⟩ := Outcome.bind_eq_ok.mp h
    obtain ⟨n, _, h⟩ := Outcome.bind_eq_ok.mp h
    exact ⟨m, n, (Outcome.pure_eq_ok.mp h).symm⟩

/-- Output dimensions are whole numbers. -/
theorem exists_int_of_dimensions {main : List Clip} {resolution width height : Value}
    (h : (dimensions outside main resolution).run.run trace = (.ok (width, height), after)) :
    ∃ m n : Int, width = .int m ∧ height = .int n := by
  obtain ⟨fixed, _, _, h⟩ := Work.run_bind_eq_ok.mp h
  cases fixed with
  | some size =>
    cases h
    exact ⟨size.1, size.2, rfl, rfl⟩
  | none =>
    cases main with
    | nil => cases h
    | cons first rest =>
      obtain ⟨_, _, _, h⟩ := Work.run_bind_eq_ok.mp h
      obtain ⟨_, _, _, h⟩ := Work.run_bind_eq_ok.mp h
      obtain ⟨⟨w, k⟩, _, _, h⟩ := Work.run_bind_eq_ok.mp h
      rw [Compiling.run_ofOutcome, Prod.mk.injEq] at h
      obtain ⟨m, n, hsize⟩ := exists_int_of_usable h.1
      exact ⟨m, n, (Prod.mk.injEq ..).mp hsize⟩

/-- Footage that is compiled has valid tracks, of which the graph was built with
whole numbers for its size. -/
theorem of_run_eq_ok {graph : RenderGraph}
    (h : (run outside footage options).run.run trace = (.ok graph, after)) :
    ∃ (main overlay : List Clip) (width height : Int), footage.tracks = .ok (main, overlay) ∧
      (∀ clip ∈ main, clip.validate = .ok ()) ∧ (∀ clip ∈ overlay, clip.validate = .ok ()) ∧
      (build main overlay options (.int width) (.int height)).1 = .ok graph := by
  obtain ⟨⟨main, overlay⟩, _, htracks, h⟩ := Work.run_bind_eq_ok.mp h
  obtain ⟨_, _, hvalid, h⟩ := Work.run_bind_eq_ok.mp h
  obtain ⟨⟨width, height⟩, _, hsize, h⟩ := Work.run_bind_eq_ok.mp h
  obtain ⟨m, n, rfl, rfl⟩ := exists_int_of_dimensions hsize
  obtain ⟨validMain, validOverlay⟩ := valid_of_validate hvalid
  obtain ⟨_, _, _, h⟩ := Work.run_bind_eq_ok.mp h
  rw [Compiling.run_ofOutcome, Prod.mk.injEq] at htracks
  exact ⟨main, overlay, m, n, htracks.1, validMain, validOverlay, congrArg Prod.fst h⟩

/-- Valid clips of which the overlay track can be placed are compiled to a graph
that joins what the tracks are meant to be, and whose stages are written. -/
theorem exists_joins_of_valid {total : Number} (tracks : footage.tracks = .ok (main, overlay))
    (valid : (validate outside main overlay).run.run trace = (.ok (), checked))
    (sum : totalDuration main = .ok total) (range : total.toReal?.isSome = true)
    (placeable : ¬ Unplaceable overlay options) (width height : Int) :
    ∃ graph after picture,
      (sized outside footage options (.int width) (.int height)).run.run trace =
        (.ok graph, after) ∧
      graph.Joins Stage.Written (.padded picture (.int width) (.int height))
        (Signal.mainSound main options) := by
  obtain ⟨validMain, validOverlay⟩ := valid_of_validate valid
  rcases construct_cases validMain validOverlay options (.int width) (.int height) with
    ⟨fault, _, hcomposition, _, _⟩ | ⟨picture, video, audio, builder, _, hholds, hfinish⟩
  · exact absurd ((composition_eq_error main overlay options).mp ⟨fault, hcomposition⟩) placeable
  · rw [sum] at hfinish
    obtain ⟨x, hx⟩ := Option.isSome_iff_exists.mp range
    have hduration : Value.toReal (.number total) = .ok x := by
      change orFault .tooLarge total.toReal? = .ok x
      exact Outcome.orFault_eq_ok.mpr hx
    have hbuilt := build_eq_ok.mpr ⟨hfinish, x, hduration⟩
    have hscale : (Stage.scalePad video.text Stage.outputVideo (.int width)
        (.int height)).Written :=
      Stage.written_scalePad video.plain_text (by decide)
    have hrun := sized_run tracks valid options (.int width) (.int height)
    rw [hbuilt] at hrun
    exact ⟨_, _, picture, hrun, joins_finished hholds (fun _ h => h) hscale total⟩

/-- A clip with an image on it and another one that cannot be laid over it. -/
def titled : Clip :=
  { Clip.plain (.text "a") ⟨.text "a.mp4", .int 5, .null, .null⟩ (.int 1) (.int 4) (.int 0) with
    overlays := [⟨.text "logo", .text "logo.png", .int 1, .ofOverlay, .quarter⟩,
      ⟨.text "mark", .text "mark.png", .null, .ofOverlay, .quarter⟩] }

/-- The clip that comes next. -/
def following : Clip :=
  { Clip.plain (.text "b") ⟨.text "b.mp4", .int 5, .null, .null⟩ (.int 0) (.int 2) (.int 0) with
    startTime := .int 3 }

/-- A picture in the picture. -/
def inset : Clip :=
  .plain (.text "c") ⟨.text "a.mp4", .int 5, .null, .null⟩ (.int 0) (.int 2) (.int 1)

/-- Two clips on the main track and one on the overlay track. -/
def film : Footage := .timeline ⟨[titled, following], [inset]⟩

/-- A world in which every source can be found. -/
def everywhere : Outside := ⟨fun _ => .ok true, fun _ => (.error .illTyped, [])⟩

/-- The film is valid. -/
theorem exists_film_checked : ∃ checked,
    (validate everywhere [titled, following] [inset]).run.run Trace.empty = (.ok (), checked) := by
  have hvalid : ((validate everywhere [titled, following] [inset]).run.run Trace.empty).1 =
      .ok () := Outcome.eq_ok_of_isOk (by decide +kernel)
  generalize (validate everywhere [titled, following] [inset]).run.run Trace.empty = run at hvalid ⊢
  obtain ⟨outcome, checked⟩ := run
  exact ⟨checked, congrArg (·, checked) hvalid⟩

/-- The film lasts five seconds. -/
theorem film_total : totalDuration [titled, following] = .ok (.int 5) :=
  Outcome.eq_ok_of_toOption (by decide +kernel)

/-- The film's overlay track can be placed. -/
theorem film_placeable : ¬ Unplaceable [inset] .default := by
  rintro ⟨first, hfirst, _, value, hvalue, hbad⟩
  cases hfirst
  have hall : ∀ value ∈ [inset.size.width, inset.size.height, inset.position.x, inset.position.y],
      (value.isNaN || value.number?.isNone) = false := by decide +kernel
  have hgood := hall value hvalue
  rw [Bool.or_eq_false_iff] at hgood
  rcases hbad with hnan | hnone
  · rw [hgood.1] at hnan
    cases hnan
  · rw [hnone] at hgood
    cases hgood.2

/-- A compilation that returns a graph gives its outputs exactly the signals that
the tracks are meant to be: the composition of both, scaled and padded, and the
sound of the main one. Every label that a stage produces is produced by this
stage only and stands for one signal. -/
theorem carries_of_sized {width height : Value} {graph : RenderGraph}
    (h : (sized outside footage options width height).run.run trace = (.ok graph, after)) :
    ∃ main overlay picture, footage.tracks = .ok (main, overlay) ∧
      Signal.composition main overlay options = .ok picture ∧
      graph.terminal = .ok (.mux graph.videoOutput graph.audioOutput) ∧
      (∀ signal, graph.Carries graph.videoOutput signal ↔
        signal = .padded picture width height) ∧
      (∀ signal, graph.Carries graph.audioOutput signal ↔
        signal = Signal.mainSound main options) ∧
      (graph.stages.flatMap Stage.outputs).Nodup ∧
      ∀ stage ∈ graph.stages, ∀ label ∈ stage.outputs,
        ∃ signal, ∀ other, Unfolds graph.inputs graph.stages label other ↔ other = signal := by
  obtain ⟨main, overlay, _, htracks, hvalid, hbuilt⟩ := of_sized_eq_ok h
  obtain ⟨validMain, validOverlay⟩ := valid_of_validate hvalid
  obtain ⟨picture, video, audio, builder, total, hcomposition, hholds, _, rfl⟩ :=
    exists_finished_of_construct validMain validOverlay (construct_of_build hbuilt)
  have hjoins : Joins _ (fun _ => True) (.padded picture width height)
      (Signal.mainSound main options) :=
    joins_finished hholds (fun _ _ => trivial) trivial total
  exact ⟨main, overlay, picture, htracks, hcomposition, hjoins.terminal_eq_ok,
    fun signal => (hjoins.carries_iff signal).1, fun signal => (hjoins.carries_iff signal).2,
    hjoins.nodup_outputs, fun stage hstage label hlabel => hjoins.exists_unfolds hstage hlabel⟩

/-- The film is compiled to a graph whose outputs carry what its tracks are meant
to be. -/
theorem carries_of_film : ∃ graph after,
    (sized everywhere film .default (.int 1920) (.int 1080)).run.run Trace.empty =
      (.ok graph, after) ∧
    ∃ main overlay picture, film.tracks = .ok (main, overlay) ∧
      Signal.composition main overlay .default = .ok picture ∧
      (∀ signal, graph.Carries graph.videoOutput signal ↔
        signal = .padded picture (.int 1920) (.int 1080)) ∧
      ∀ signal, graph.Carries graph.audioOutput signal ↔
        signal = Signal.mainSound main .default := by
  obtain ⟨checked, hvalid⟩ := exists_film_checked
  obtain ⟨graph, after, _, hsized, _⟩ :=
    exists_joins_of_valid (rfl : film.tracks = _) hvalid film_total
      (by decide +kernel) film_placeable 1920 1080
  obtain ⟨main, overlay, picture, htracks, hcomposition, _, hvideo, haudio, _⟩ :=
    carries_of_sized hsized
  exact ⟨graph, after, hsized, main, overlay, picture, htracks, hcomposition, hvideo, haudio⟩

/-- A compilation of valid clips, whose durations have a sum that a double can
hold, fails exactly when the overlay track cannot be placed. Otherwise it returns
a graph that passes its check and is linear, and whose filter text exists and is
linear up to the two outputs that the command line selects. -/
theorem linear_of_valid {total : Number} (tracks : footage.tracks = .ok (main, overlay))
    (valid : (validate outside main overlay).run.run trace = (.ok (), checked))
    (sum : totalDuration main = .ok total) (range : total.toReal?.isSome = true)
    (width height : Int) :
    (Unplaceable overlay options ∧ ∃ first after, overlay.head? = some first ∧
      (sized outside footage options (.int width) (.int height)).run.run trace =
        (.error (.uncompilable (.overlayGeometry first.id)), after)) ∨
    (¬ Unplaceable overlay options ∧ ∃ graph after t last,
      (sized outside footage options (.int width) (.int height)).run.run trace =
        (.ok graph, after) ∧
      graph.checkTopology = .ok () ∧ graph.Linear ∧
      graph.filterText = .ok t ∧ graph.Linked t ∧ graph.terminal = .ok last ∧
      selected last "video" = .ok (.text (Stage.link (.text graph.videoOutput))) ∧
      selected last "audio" = .ok (.text (Stage.link (.text graph.audioOutput)))) := by
  by_cases hplace : Unplaceable overlay options
  · refine .inl ⟨hplace, ?_⟩
    obtain ⟨validMain, validOverlay⟩ := valid_of_validate valid
    obtain ⟨fault, hcomposition⟩ := (composition_eq_error main overlay options).mpr hplace
    rcases construct_cases validMain validOverlay options (.int width) (.int height) with
      ⟨_, first, _, hfirst, hfailed⟩ | ⟨picture, _, _, _, hcomposed, _, _⟩
    · have hrun := sized_run tracks valid options (.int width) (.int height)
      rw [build_of_construct_error hfailed] at hrun
      exact ⟨first, _, hfirst, hrun⟩
    · rw [hcomposition] at hcomposed
      cases hcomposed
  · refine .inr ⟨hplace, ?_⟩
    obtain ⟨graph, after, picture, hsized, hjoins⟩ :=
      exists_joins_of_valid tracks valid sum range hplace width height
    obtain ⟨t, htext, hlinked⟩ := hjoins.exists_linked
    exact ⟨graph, after, t, _, hsized, hjoins.checkTopology_eq_ok, hjoins.linear, htext, hlinked,
      hjoins.terminal_eq_ok, rfl, rfl⟩

/-- The film is compiled to a linear graph with a linear filter text. -/
theorem linear_of_film : ∃ graph after t,
    (sized everywhere film .default (.int 1920) (.int 1080)).run.run Trace.empty =
      (.ok graph, after) ∧
    graph.checkTopology = .ok () ∧ graph.Linear ∧ graph.filterText = .ok t ∧
      graph.Linked t := by
  obtain ⟨checked, hvalid⟩ := exists_film_checked
  rcases linear_of_valid (rfl : film.tracks = _) hvalid film_total
    (by decide +kernel) 1920 1080 with
    ⟨hplace, _⟩ | ⟨_, graph, after, t, _, hsized, hchecked, hlinear, htext, hlinked, _⟩
  · exact absurd hplace film_placeable
  · exact ⟨graph, after, t, hsized, hchecked, hlinear, htext, hlinked⟩

end Compile

end Montage
