import Montage.Proofs.Graph.Fitting
import Montage.Proofs.Graph.Flow

/-!
# Linear graphs

The labels of a graph whose stages flow fit together, so it passes its check. If no
stream waits in the end, every stream that a stage produces is consumed exactly once,
by a later stage.
-/

namespace Montage

/-- How often a text equals one of some texts. -/
theorem Value.countP_equal_text {values : List Value}
    (texts : ∀ value ∈ values, ∃ s, value = .text s) (t : Text) :
    values.countP (Value.equal (.text t)) = (values.map Value.display).count t := by
  rw [List.count, List.countP_map]
  refine List.countP_congr fun value hvalue => ?_
  obtain ⟨s, rfl⟩ := texts value hvalue
  rw [Value.equal_text, decide_eq_true_eq, eq_comm]
  exact beq_iff_eq.symm

namespace RenderGraph

variable {graph : RenderGraph}

/-- The label of a stream that takes nothing away is one of the files' labels. -/
theorem mem_fileStreams {feed : Feed} (ready : feed.Ready graph.inputs)
    (htaken : feed.taken? = none) : .text feed.label ∈ graph.fileStreams := by
  cases feed with
  | picture input =>
    refine List.mem_flatMap.mpr ⟨input, ready, List.mem_map_of_mem ?_⟩
    unfold GraphInput.streams
    split <;> exact List.mem_cons_self
  | sound input =>
    refine List.mem_flatMap.mpr ⟨input, ready.1, List.mem_map_of_mem ?_⟩
    rw [GraphInput.streams, if_pos ready.2]
    exact List.mem_cons_of_mem _ List.mem_cons_self
  | stream label signal => cases htaken

/-- No stage of a graph with numbered files produces a stream of a file. -/
theorem not_isFile_value (numbered : Numbered graph.inputs) (stream : StreamLabel) :
    ¬ graph.IsFile stream.value := by
  rintro ⟨input, hinput, h | ⟨_, h⟩⟩
  · have labels : GraphInput.Labels graph.inputs input.video := ⟨input, hinput, .inl rfl⟩
    exact labels.ne_text numbered stream (Value.text.inj h).symm
  · have labels : GraphInput.Labels graph.inputs input.audio := ⟨input, hinput, .inr rfl⟩
    exact labels.ne_text numbered stream (Value.text.inj h).symm

end RenderGraph

/-- The label of a stream is found among those of feeds as often as the stream is
taken away. -/
theorem Feed.count_label {inputs : List GraphInput} (numbered : Numbered inputs)
    {feeds : List Feed} (ready : ∀ feed ∈ feeds, feed.Ready inputs) (label : StreamLabel) :
    (feeds.map Feed.label).count label.text = ((Feed.taken feeds).map Prod.fst).count label := by
  induction feeds with
  | nil => rfl
  | cons feed feeds ih =>
    have hrest := ih fun other h => ready other (List.mem_cons_of_mem _ h)
    rw [List.map_cons, List.count_cons, hrest]
    cases hkind : feed.taken? with
    | none =>
      have hlabels := (ready feed List.mem_cons_self).labels hkind
      have htaken : Feed.taken (feed :: feeds) = Feed.taken feeds :=
        List.filterMap_cons_none hkind
      rw [htaken, if_neg (by simpa using hlabels.ne_text numbered label), Nat.add_zero]
    | some stream =>
      have htaken : Feed.taken (feed :: feeds) = stream :: Feed.taken feeds :=
        List.filterMap_cons_some hkind
      have hsame : feed.label = label.text ↔ stream.1 = label := by
        rw [Feed.of_taken? hkind]
        exact ⟨fun h => StreamLabel.text_inj h, fun h => congrArg StreamLabel.text h⟩
      rw [htaken, List.map_cons, List.count_cons]
      simp only [beq_iff_eq, hsame]

namespace Flow

variable {good : Stage → Prop} {inputs : List GraphInput} {stages : List Stage}
  {made : List StreamLabel} {waiting : List (StreamLabel × Signal)}

/-- A stream that was produced still waits or is consumed by a later stage. -/
theorem waits_or_consumed_later (flow : Flow good inputs stages made waiting)
    {before after : List Stage} {stage : Stage} (h : stages = before ++ stage :: after)
    {label : StreamLabel} (hlabel : label.value ∈ stage.outputs) :
    label ∈ waiting.map Prod.fst ∨ ∃ later ∈ after, label.value ∈ later.inputs := by
  induction flow generalizing after with
  | empty => exact absurd h.symm (List.append_ne_nil_of_right_ne_nil _ (List.cons_ne_nil _ _))
  | @add stages made waiting rest later new last feeds _ _ turns _ takes _ waits ih =>
    have hkept : ∀ {other : StreamLabel}, other ∈ new.map Prod.fst ∨ other ∈ rest.map Prod.fst →
        other ∈ later.map Prod.fst := by
      intro other hother
      refine (waits.map Prod.fst).mem_iff.mpr ?_
      rw [List.map_append]
      exact List.mem_append.mpr hother
    rcases List.eq_nil_or_concat after with rfl | ⟨middle, final, rfl⟩
    · -- the stage is the last one
      obtain ⟨_, hlast⟩ := List.append_inj' h rfl
      obtain rfl : last = stage := List.singleton_inj.mp hlast
      rw [turns.produces] at hlabel
      obtain ⟨stream, hstream, hsame⟩ := List.mem_map.mp hlabel
      rw [← StreamLabel.value_inj hsame]
      exact .inl (hkept (.inl (List.mem_map_of_mem hstream)))
    · rw [List.concat_eq_append, ← List.cons_append, ← List.append_assoc] at h
      obtain ⟨hfront, hlast⟩ := List.append_inj' h rfl
      obtain rfl : last = final := List.singleton_inj.mp hlast
      rcases ih hfront with hwaits | ⟨consumer, hconsumer, hinput⟩
      · obtain ⟨stream, hstream, rfl⟩ := List.mem_map.mp hwaits
        rcases List.mem_append.mp (takes.mem_iff.mp hstream) with htaken | hrest
        · obtain ⟨feed, hfeed, hkind⟩ := List.mem_filterMap.mp htaken
          refine .inr ⟨last, by simp, ?_⟩
          rw [turns.consumes]
          refine List.mem_map.mpr ⟨feed, hfeed, ?_⟩
          rw [Feed.of_taken? hkind]
          rfl
        · exact .inl (hkept (.inr (List.mem_map_of_mem hrest)))
      · exact .inr ⟨consumer, by simp [hconsumer], hinput⟩

/-- The labels that stages produce are texts. -/
theorem outputs_are_texts (flow : Flow good inputs stages made waiting) :
    ∀ value ∈ stages.flatMap Stage.outputs, ∃ t, value = .text t := by
  intro value hvalue
  obtain ⟨label, _, rfl⟩ := flow.exists_made hvalue
  exact ⟨label.text, rfl⟩

/-- So are those that they consume. -/
theorem inputs_are_texts (flow : Flow good inputs stages made waiting) :
    ∀ value ∈ stages.flatMap Stage.inputs, ∃ t, value = .text t := by
  intro value hvalue
  obtain ⟨feed, _, rfl, _⟩ := flow.exists_feed hvalue
  exact ⟨feed.label, rfl⟩

/-- A stream that was made is produced once. -/
theorem count_produced (flow : Flow good inputs stages made waiting) {label : StreamLabel}
    (h : label ∈ made) : ((stages.flatMap Stage.outputs).map Value.display).count label.text = 1 := by
  have hlabels : (stages.flatMap Stage.outputs).map Value.display = made.map StreamLabel.text := by
    rw [flow.outputs, List.map_map]
    rfl
  rw [hlabels]
  exact List.count_eq_one_of_mem (flow.made_nodup.map fun a b => StreamLabel.text_inj)
    (List.mem_map_of_mem h)

/-- A stream that was made is consumed once, unless it still waits. -/
theorem count_consumed (numbered : Numbered inputs) (flow : Flow good inputs stages made waiting)
    {label : StreamLabel} (h : label ∈ made) :
    ((stages.flatMap Stage.inputs).map Value.display).count label.text =
      if label ∈ waiting.map Prod.fst then 0 else 1 := by
  obtain ⟨feeds, hinputs, ready, hmade⟩ := flow.exists_feeds
  have hlabels : (stages.flatMap Stage.inputs).map Value.display = feeds.map Feed.label := by
    rw [hinputs, List.map_map]
    rfl
  have hone : (((Feed.taken feeds).map Prod.fst) ++ waiting.map Prod.fst).count label = 1 := by
    rw [← hmade.count_eq]
    exact List.count_eq_one_of_mem flow.made_nodup h
  rw [hlabels, Feed.count_label numbered ready]
  rw [List.count_append] at hone
  split
  · next hwaits =>
    have hpos := List.count_pos_iff.mpr hwaits
    omega
  · next hgone =>
    rw [List.count_eq_zero_of_not_mem hgone] at hone
    omega

/-! ## The check -/

/-- What a stage consumes is there behind the stages before it. -/
theorem isThere {graph : RenderGraph} (flow : Flow good graph.inputs stages made waiting)
    {before after : List Stage} {stage : Stage} (h : stages = before ++ stage :: after)
    {label : Value} (hlabel : label ∈ stage.inputs) : graph.IsThere before label := by
  generalize hinputs : graph.inputs = inputs at flow
  induction flow generalizing after with
  | empty => exact absurd h.symm (List.append_ne_nil_of_right_ne_nil _ (List.cons_ne_nil _ _))
  | @add stages made waiting rest later new last feeds flow _ turns ready takes _ _ ih =>
    subst hinputs
    rcases List.eq_nil_or_concat after with rfl | ⟨middle, final, rfl⟩
    · -- the stage is the last one
      obtain ⟨rfl, hlast⟩ := List.append_inj' h rfl
      obtain rfl : last = stage := List.singleton_inj.mp hlast
      rw [turns.consumes] at hlabel
      obtain ⟨feed, hfeed, rfl⟩ := List.mem_map.mp hlabel
      cases hkind : feed.taken? with
      | none =>
        have hfile := RenderGraph.mem_fileStreams (ready feed hfeed) hkind
        exact .inl (RenderGraph.isAmong_fileStreams.mp
          (Value.isAmong_iff.mpr ⟨_, hfile, Value.agrees_refl _⟩))
      | some stream =>
        have htaken : stream ∈ waiting := takes.mem_iff.mpr
          (List.mem_append_left _ (List.mem_filterMap.mpr ⟨feed, hfeed, hkind⟩))
        have hmade := flow.waiting_sublist.2 _ (List.mem_map_of_mem htaken)
        have hproduced : stream.1.value ∈ stages.flatMap Stage.outputs := by
          rw [flow.outputs]
          exact List.mem_map_of_mem hmade
        obtain ⟨earlier, hearlier, houtput⟩ := List.mem_flatMap.mp hproduced
        rw [Feed.of_taken? hkind]
        exact .inr ⟨earlier, hearlier, _, houtput, Value.agrees_refl _⟩
    · rw [List.concat_eq_append, ← List.cons_append, ← List.append_assoc] at h
      exact ih (List.append_inj' h rfl).1

/-- The labels of a graph whose stages flow fit together. -/
theorem fits {graph : RenderGraph} (numbered : Numbered graph.inputs)
    (flow : Flow good graph.inputs graph.stages made waiting) : graph.Fits where
  supplied _ _ _ h _ hlabel := flow.isThere h hlabel
  spent := by
    intro label hlabel
    obtain ⟨stream, hstream, rfl⟩ := flow.exists_made hlabel
    have hcount := (Value.countP_equal_text flow.inputs_are_texts stream.text).trans
      (flow.count_consumed numbered hstream)
    change graph.consumed.countP stream.value.agrees = _ at hcount
    split at hcount <;> omega
  distinct := by
    rw [RenderGraph.produced, flow.outputs, List.pairwise_map]
    refine flow.made_nodup.imp fun {label other} hne => Bool.eq_false_iff.mpr fun hagrees => ?_
    exact hne (StreamLabel.value_inj (Value.agrees_text_iff.mp hagrees))
  new := by
    intro label hlabel
    obtain ⟨stream, _, rfl⟩ := flow.exists_made hlabel
    exact RenderGraph.not_isFile_value numbered stream

/-- A graph whose stages flow passes the check of its labels. -/
theorem checkTopology_eq_ok {graph : RenderGraph} (numbered : Numbered graph.inputs)
    (flow : Flow good graph.inputs graph.stages made waiting) : graph.checkTopology = .ok () := by
  refine graph.checkTopology_eq_ok_iff_runs.mpr (RenderGraph.runs_iff_fits.mpr ⟨?_, ?_⟩)
  · intro label hlabel
    obtain ⟨t, rfl⟩ := flow.outputs_are_texts label hlabel
    rfl
  · exact flow.fits numbered

end Flow

namespace RenderGraph

/-- Every stream that a stage produces is produced once and consumed once, by a
later stage. -/
def Linear (graph : RenderGraph) : Prop :=
  ∀ (before after : List Stage) (stage : Stage) (label : Value),
    graph.stages = before ++ stage :: after → label ∈ stage.outputs →
      (graph.stages.flatMap Stage.outputs).countP label.equal = 1 ∧
      (graph.stages.flatMap Stage.inputs).countP label.equal = 1 ∧
      ∃ later ∈ after, label ∈ later.inputs

/-- Stages that flow until no stream waits are linear. -/
theorem linear_of_flow {graph : RenderGraph} {good : Stage → Prop} {made : List StreamLabel}
    (numbered : Numbered graph.inputs) (flow : Flow good graph.inputs graph.stages made []) :
    graph.Linear := by
  intro before after stage label hstages hlabel
  have hstage : stage ∈ graph.stages := by
    rw [hstages]
    exact List.mem_append_right _ List.mem_cons_self
  obtain ⟨stream, hstream, rfl⟩ := flow.exists_made (List.mem_flatMap.mpr ⟨stage, hstage, hlabel⟩)
  refine ⟨?_, ?_, ?_⟩
  · exact (Value.countP_equal_text flow.outputs_are_texts _).trans (flow.count_produced hstream)
  · exact (Value.countP_equal_text flow.inputs_are_texts _).trans
      (flow.count_consumed numbered hstream)
  · rcases flow.waits_or_consumed_later hstages hlabel with hwaits | hlater
    · exact absurd hwaits List.not_mem_nil
    · exact hlater

end RenderGraph

end Montage
