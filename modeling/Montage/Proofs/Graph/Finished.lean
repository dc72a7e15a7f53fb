import Montage.Graph.CommandLine
import Montage.Proofs.Graph.Built
import Montage.Proofs.Graph.Linked

/-!
# Finished graphs

The stages of a finished graph flow until only its picture and its sound wait,
which are then joined. Such a graph passes its check, is linear, gives each label
one signal and has a filter text whose links are linear, too.
-/

namespace Montage

namespace RenderGraph

/-- The links of a text are linear: but for the streams of files and the two
outputs of the graph, every label that occurs does so once as an output and once
as an input. The outputs occur once, as outputs. -/
structure Linked (graph : RenderGraph) (t : Text) : Prop where
  /-- The labels within the text. -/
  paired : ∀ link ∈ t.links, .text link.label ∉ graph.fileStreams →
    link.label ≠ graph.videoOutput → link.label ≠ graph.audioOutput →
      t.links.count ⟨.output, link.label⟩ = 1 ∧ t.links.count ⟨.input, link.label⟩ = 1
  /-- The labels of the outputs. -/
  ends : ∀ label, label = graph.videoOutput ∨ label = graph.audioOutput →
    t.links.count ⟨.output, label⟩ = 1 ∧ t.links.count ⟨.input, label⟩ = 0

/-- A graph whose stages flow until a picture and a sound wait, its outputs, and
which ends with joining these. -/
structure Joins (graph : RenderGraph) (good : Stage → Prop) (picture sound : Signal) : Prop where
  /-- The files are numbered in their order. -/
  numbered : Numbered graph.inputs
  /-- The stages flow up to the last one. -/
  flows : ∃ (front : List Stage) (made : List StreamLabel) (video audio : StreamLabel),
    Flow good graph.inputs front made [(video, picture), (audio, sound)] ∧
      graph.stages = front ++ [.mux video.text audio.text] ∧
      graph.videoOutput = video.text ∧ graph.audioOutput = audio.text

namespace Joins

variable {graph : RenderGraph} {good : Stage → Prop} {picture sound : Signal}

/-- The last stage joins the outputs. -/
theorem terminal_eq_ok (joins : graph.Joins good picture sound) :
    graph.terminal = .ok (.mux graph.videoOutput graph.audioOutput) := by
  obtain ⟨front, _, video, audio, _, hstages, hvideo, haudio⟩ := joins.flows
  rw [terminal, hstages, hvideo, haudio, List.getLast?_append]
  rfl

/-- All stages flow, and no stream waits in the end. -/
theorem exists_flow (joins : graph.Joins good picture sound) :
    ∃ made, Flow (fun _ => True) graph.inputs graph.stages made [] := by
  obtain ⟨front, made, video, audio, flow, hstages, _⟩ := joins.flows
  rw [hstages]
  refine ⟨made ++ [], .add (flow.mono (fun _ h => h) fun _ _ => trivial) trivial
    (Stage.turns_mux video audio picture sound) ?_ (.refl _) ?_ (.refl _)⟩
  · intro feed h
    simp only [List.mem_cons, List.not_mem_nil, or_false] at h
    rcases h with rfl | rfl <;> trivial
  · rw [List.map_nil, List.append_nil]
    exact flow.made_nodup

/-- The check of the labels passes. -/
theorem checkTopology_eq_ok (joins : graph.Joins good picture sound) :
    graph.checkTopology = .ok () := by
  obtain ⟨made, flow⟩ := joins.exists_flow
  exact flow.checkTopology_eq_ok joins.numbered

/-- The graph is linear. -/
theorem linear (joins : graph.Joins good picture sound) : graph.Linear := by
  obtain ⟨made, flow⟩ := joins.exists_flow
  exact linear_of_flow joins.numbered flow

/-- Every label stands for at most one signal. -/
theorem unique (joins : graph.Joins good picture sound) {label : Value} {signal other : Signal}
    (h : Unfolds graph.inputs graph.stages label signal)
    (h' : Unfolds graph.inputs graph.stages label other) : signal = other := by
  obtain ⟨made, flow⟩ := joins.exists_flow
  exact h.unique joins.numbered flow.outputs flow.made_nodup h'

/-- Every label that a stage produces stands for exactly one signal. -/
theorem exists_unfolds (joins : graph.Joins good picture sound) {stage : Stage} {label : Value}
    (hstage : stage ∈ graph.stages) (hlabel : label ∈ stage.outputs) :
    ∃ signal, ∀ other, Unfolds graph.inputs graph.stages label other ↔ other = signal := by
  obtain ⟨made, flow⟩ := joins.exists_flow
  obtain ⟨stream, hstream, rfl⟩ := flow.exists_made (List.mem_flatMap.mpr ⟨stage, hstage, hlabel⟩)
  obtain ⟨signal, hsignal⟩ := flow.exists_unfolds stream hstream
  refine ⟨signal, fun other => ⟨fun h => joins.unique h hsignal, ?_⟩⟩
  rintro rfl
  exact hsignal

/-- No two stages produce the same label. -/
theorem nodup_outputs (joins : graph.Joins good picture sound) :
    (graph.stages.flatMap Stage.outputs).Nodup := by
  obtain ⟨made, flow⟩ := joins.exists_flow
  rw [flow.outputs]
  exact flow.made_nodup.map fun a b => StreamLabel.value_inj

/-- The outputs carry the picture and the sound, and nothing else. -/
theorem carries_iff (joins : graph.Joins good picture sound) (signal : Signal) :
    (graph.Carries graph.videoOutput signal ↔ signal = picture) ∧
      (graph.Carries graph.audioOutput signal ↔ signal = sound) := by
  obtain ⟨front, made, video, audio, flow, hstages, hvideo, haudio⟩ := joins.flows
  have hcarries : ∀ stream ∈ [(video, picture), (audio, sound)],
      graph.Carries stream.1.text stream.2 := by
    intro stream h
    refine (flow.unfolds stream h).mono (fun _ h => h) fun stage h => ?_
    rw [hstages]
    exact List.mem_append_left _ h
  have hpicture : graph.Carries graph.videoOutput picture := by
    rw [hvideo]
    exact hcarries (video, picture) List.mem_cons_self
  have hsound : graph.Carries graph.audioOutput sound := by
    rw [haudio]
    exact hcarries (audio, sound) (List.mem_cons_of_mem _ List.mem_cons_self)
  constructor
  · exact ⟨fun h => joins.unique h hpicture, fun h => h ▸ hpicture⟩
  · exact ⟨fun h => joins.unique h hsound, fun h => h ▸ hsound⟩

/-- If all stages are written, the graph has a filter text, and its links are
linear. -/
theorem exists_linked (joins : graph.Joins Stage.Written picture sound) :
    ∃ t, graph.filterText = .ok t ∧ graph.Linked t := by
  obtain ⟨front, made, video, audio, flow, hstages, hvideo, haudio⟩ := joins.flows
  obtain ⟨t, htext, hlinks⟩ := exists_filterText hstages flow.good_of_mem
  have hwaiting : ∀ label : StreamLabel, label ∈ [(video, picture), (audio, sound)].map Prod.fst ↔
      label = video ∨ label = audio := by
    simp
  refine ⟨t, htext, ?_, ?_⟩
  · intro link hlink hfile hne hne'
    rw [hlinks] at hlink ⊢
    rcases flow.of_mem_chainLinks hlink with hmem | ⟨label, hmade, hlabel⟩ | halpha
    · exact absurd hmem hfile
    · obtain ⟨hproduced, hconsumed⟩ := flow.count_made joins.numbered hmade
      rw [hlabel, hvideo] at hne
      rw [hlabel, haudio] at hne'
      have hgone : label ∉ [(video, picture), (audio, sound)].map Prod.fst := by
        rw [hwaiting]
        rintro (rfl | rfl)
        · exact hne rfl
        · exact hne' rfl
      rw [if_neg hgone] at hconsumed
      rw [hlabel]
      exact ⟨hproduced, hconsumed⟩
    · exact ⟨flow.count_alpha joins.numbered halpha .output,
        flow.count_alpha joins.numbered halpha .input⟩
  · intro label hlabel
    rw [hvideo, haudio] at hlabel
    obtain ⟨stream, hstream, rfl⟩ : ∃ stream : StreamLabel,
        (stream = video ∨ stream = audio) ∧ label = stream.text := by
      rcases hlabel with rfl | rfl
      · exact ⟨video, .inl rfl, rfl⟩
      · exact ⟨audio, .inr rfl, rfl⟩
    have hwaits := (hwaiting stream).mpr hstream
    obtain ⟨hproduced, hconsumed⟩ :=
      flow.count_made joins.numbered (flow.waiting_sublist.2 stream hwaits)
    rw [if_pos hwaits] at hconsumed
    rw [hlinks]
    exact ⟨hproduced, hconsumed⟩

end Joins

end RenderGraph

end Montage
