import Montage.Export.Encoder
import Montage.Proofs.Graph.Compiled

/-!
# Command lines of compiled graphs

A graph that was compiled has a filter text and lasts for a number of seconds
that a double can hold. With settings and files of the right kinds it has a
command line of words, which ends in the file that is written.
-/

namespace Montage

/-- The sum of the lengths of valid clips is a number. -/
theorem totalDuration_isNaN {clips : List Clip} (valid : ∀ clip ∈ clips, clip.validate = .ok ())
    {total : Number} (h : totalDuration clips = .ok total) {x : Binary64}
    (hx : total.toReal? = some x) : x.isNaN = false := by
  unfold totalDuration at h
  have hstart : ∀ x : Binary64, (0 : Number).toReal? = some x → x.isNaN = false :=
    fun x => Number.toReal?_isNaN_of_int
  generalize (0 : Number) = begun at h hstart
  induction clips generalizing begun with
  | nil =>
    cases h
    exact hstart x hx
  | cons clip clips ih =>
    rw [List.foldlM_cons, Outcome.bind_eq_ok] at h
    obtain ⟨next, hnext, hrest⟩ := h
    obtain ⟨length, hlength, hsum⟩ := Outcome.bind_eq_ok.mp hnext
    refine ih (fun other hother => valid other (List.mem_cons_of_mem _ hother)) next hrest ?_
    intro y hy
    rcases Number.combine?_eq_some ((Value.add_eq_ok rfl rfl).mp hsum) with
      ⟨m, n, _, _, rfl⟩ | ⟨u, v, hu, hv, rfl⟩
    · exact Number.toReal?_isNaN_of_int hy
    · have hfinite : v.isFinite = true := by
        refine (Clip.hasMoments_of_validate (valid clip List.mem_cons_self)).length_isFinite ?_
        rw [Clip.length, hlength, Outcome.ok_bind, hv, orFault]
      rw [Number.toReal?, Option.some.injEq] at hy
      rw [← hy]
      exact Binary64.add_isNaN (hstart u hu) hfinite

namespace Compile

open RenderGraph

variable {outside : Outside} {footage : Footage} {options : ExportOptions} {trace after : Trace}
  {graph : RenderGraph}

/-- A graph that was compiled joins a picture and a sound with stages that are
written, and lasts for a number of seconds. -/
theorem exists_joins_of_run
    (h : (run outside footage options).run.run trace = (.ok graph, after)) :
    ∃ (picture sound : Signal) (total : Number) (x : Binary64),
      graph.Joins Stage.Written picture sound ∧ graph.duration = .number total ∧
      total.toReal? = some x ∧ x.isNaN = false := by
  obtain ⟨main, overlay, width, height, _, validMain, validOverlay, hbuilt⟩ := of_run_eq_ok h
  obtain ⟨hconstruct, x, hduration⟩ := build_eq_ok.mp hbuilt
  obtain ⟨picture, video, audio, builder, total, _, hholds, htotal, rfl⟩ :=
    exists_finished_of_construct validMain validOverlay hconstruct
  have hscale : (Stage.scalePad video.text Stage.outputVideo (.int width)
      (.int height)).Written :=
    Stage.written_scalePad video.plain_text (by decide)
  have hx : total.toReal? = some x := Outcome.orFault_eq_ok.mp hduration
  exact ⟨_, _, total, x, joins_finished hholds (fun _ h => h) hscale total, rfl, hx,
    totalDuration_isNaN validMain htotal hx⟩

end Compile

/-- Settings whose parts are of the right kinds. -/
structure EncoderSettings.Typed (settings : EncoderSettings) : Prop where
  /-- The number of frames can be written with decimal places. -/
  rate : ∃ n, settings.framesPerSecond.number? = some n ∧ n.toReal?.isSome = true
  /-- Codecs, the preset and the bit rate are texts. -/
  names : ∀ value ∈ [settings.videoCodec, settings.videoPreset, settings.audioCodec,
    settings.audioBitrate], ∃ name, value = .text name

/-- The usual settings are of the right kinds. -/
theorem EncoderSettings.typed_ofPath (path : Value) : (ofPath path).Typed where
  rate := ⟨.real 30, rfl, rfl⟩
  names := by simp [ofPath]

namespace Export

/-- A command line of texts consists of words. -/
theorem exists_wordsOf {command : List Value} (h : ∀ value ∈ command, ∃ word, value = .text word) :
    ∃ words, wordsOf command = .ok words := by
  unfold wordsOf
  induction command with
  | nil => exact ⟨[], rfl⟩
  | cons value command ih =>
    obtain ⟨word, rfl⟩ := h value List.mem_cons_self
    obtain ⟨words, hwords⟩ := ih fun other hother => h other (List.mem_cons_of_mem _ hother)
    refine ⟨word :: words, ?_⟩
    rw [List.mapM_cons, hwords]
    rfl

/-- A compiled graph with settings of the right kinds has a command line that ends in
the file to write. It consists of words if the files that are read are texts. -/
theorem exists_commandLine {graph : RenderGraph} {picture sound : Montage.Signal}
    (joins : graph.Joins Stage.Written picture sound) {settings : EncoderSettings}
    (typed : settings.Typed) {file : Text} (target : settings.outputPath = .text file)
    (engine : Text) :
    ∃ command, graph.commandLine settings (.text engine) = .ok command ∧
      ((∀ input ∈ graph.inputs, ∃ file, input.path = .text file) →
        ∀ value ∈ Encoder.withProgress command, ∃ word, value = .text word) ∧
      (Encoder.withProgress command).getLast? = some (.text file) := by
  obtain ⟨filters, hfilters, _⟩ := joins.exists_linked
  obtain ⟨n, hn, hreal⟩ := typed.rate
  obtain ⟨rate, hrate, _⟩ := Value.exists_filterNumber timePlaces hn hreal
  have hvideo : RenderGraph.selected (.mux graph.videoOutput graph.audioOutput) "video" =
      .ok (.text (Stage.link (.text graph.videoOutput))) := rfl
  have haudio : RenderGraph.selected (.mux graph.videoOutput graph.audioOutput) "audio" =
      .ok (.text (Stage.link (.text graph.audioOutput))) := rfl
  have hnames := typed.names
  simp only [List.forall_mem_cons] at hnames
  rw [RenderGraph.commandLine, hfilters, Outcome.ok_bind, joins.terminal_eq_ok, Outcome.ok_bind,
    hvideo, Outcome.ok_bind, haudio, Outcome.ok_bind, hrate, Outcome.ok_bind, target]
  refine ⟨_, rfl, fun files => ?_, ?_⟩
  · have hinputs : ∀ value ∈ graph.inputArguments, ∃ word, value = .text word := by
      intro value hvalue
      obtain ⟨input, hinput, hmem⟩ := List.mem_flatMap.mp hvalue
      rcases List.mem_cons.mp hmem with rfl | hmem
      · exact ⟨_, rfl⟩
      · rw [List.mem_singleton.mp hmem]
        exact files input hinput
    simp only [Encoder.withProgress, Encoder.progressArguments, List.cons_append, List.nil_append,
      List.forall_mem_cons, List.forall_mem_append, Value.text.injEq, exists_eq', true_and]
    exact ⟨hinputs, hnames.1, hnames.2.1, hnames.2.2.1, hnames.2.2.2.1, by simp⟩
  · simp [Encoder.withProgress, List.getLast?_append, List.getLast?_cons]

end Export

end Montage
