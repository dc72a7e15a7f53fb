import Mathlib.Data.List.Count
import Montage.Proofs.Graph.Linear
import Montage.Proofs.Graph.Written

/-!
# The links in the filter text of a graph

The filter text of stages that flow shows every label that they produce once as
an output, and once as an input unless it still waits. The labels that a change
of opacity needs in addition are shown once on each side.
-/

namespace Montage

/-- A record of labels on one side has as many of a label as the labels do. -/
theorem Link.count_map {side : LinkSide} (labels : List Value) (t : Text) :
    (labels.map fun label => (⟨side, label.display⟩ : Link)).count ⟨side, t⟩ =
      (labels.map Value.display).count t := by
  have hinjective : Function.Injective (Link.mk side) := fun s u h => (Link.mk.inj h).2
  have hmap : labels.map (fun label => (⟨side, label.display⟩ : Link)) =
      (labels.map Value.display).map (Link.mk side) := by
    rw [List.map_map]
    rfl
  rw [hmap, List.count_map_of_injective _ _ hinjective]

/-- Labels on one side are not shown on the other one. -/
theorem Link.count_map_of_ne {side other : LinkSide} (h : side ≠ other) (labels : List Value)
    (t : Text) : (labels.map fun label => (⟨side, label.display⟩ : Link)).count ⟨other, t⟩ = 0 := by
  refine List.count_eq_zero_of_not_mem ?_
  intro hmem
  obtain ⟨label, _, hsame⟩ := List.mem_map.mp hmem
  exact h (Link.mk.inj hsame).1

namespace Stage

/-- The labels that a stage has on a side. -/
def labelsOn (stage : Stage) : LinkSide → List Value
  | .input => stage.inputs
  | .output => stage.outputs

/-- On each side, the links of a stage are its labels and the one that its change
of opacity needs. -/
theorem count_chainLinks (stage : Stage) (side : LinkSide) (t : Text) :
    stage.chainLinks.count ⟨side, t⟩ =
      ((stage.labelsOn side).map Value.display).count t + stage.alpha?.toList.count t := by
  have hleft : LinkSide.input ≠ .output := by decide
  have hright : LinkSide.output ≠ .input := by decide
  unfold chainLinks
  cases halpha : stage.alpha? with
  | none =>
    cases side with
    | input =>
      simp only [List.count_append, Link.count_map, Link.count_map_of_ne hright]
      rfl
    | output =>
      simp only [List.count_append, Link.count_map, Link.count_map_of_ne hleft]
      simp [labelsOn]
  | some alpha =>
    have hsplit : ∀ link, (stage.inputs.map fun label => (⟨.input, label.display⟩ : Link)).count
        link = ((stage.inputs.map fun label => (⟨.input, label.display⟩ : Link)).take 1).count
          link + ((stage.inputs.map fun label => (⟨.input, label.display⟩ : Link)).drop 1).count
          link := by
      intro link
      rw [← List.count_append, List.take_append_drop]
    cases side with
    | input =>
      have hinputs := hsplit ⟨.input, t⟩
      rw [Link.count_map] at hinputs
      simp only [List.count_append, Link.count_map_of_ne hright, List.count_cons, List.count_nil,
        labelsOn, Option.toList_some]
      simp only [beq_iff_eq, Link.mk.injEq, reduceCtorEq, false_and, true_and, if_false]
      omega
    | output =>
      have hinputs := hsplit ⟨.output, t⟩
      rw [Link.count_map_of_ne hleft] at hinputs
      simp only [List.count_append, Link.count_map, List.count_cons, List.count_nil,
        labelsOn, Option.toList_some]
      simp only [beq_iff_eq, Link.mk.injEq, reduceCtorEq, false_and, true_and, if_false]
      omega

/-- On each side, the links of stages are their labels and those that changes of
opacity need. -/
theorem count_flatMap_chainLinks (stages : List Stage) (side : LinkSide) (t : Text) :
    (stages.flatMap chainLinks).count ⟨side, t⟩ =
      ((stages.flatMap fun stage => stage.labelsOn side).map Value.display).count t +
        (stages.filterMap alpha?).count t := by
  induction stages with
  | nil => rfl
  | cons stage stages ih =>
    have halpha : (stage :: stages).filterMap alpha? =
        stage.alpha?.toList ++ stages.filterMap alpha? := by
      cases h : stage.alpha? with
      | none => rw [List.filterMap_cons_none h, Option.toList_none, List.nil_append]
      | some alpha => rw [List.filterMap_cons_some h, Option.toList_some, List.singleton_append]
    rw [List.flatMap_cons, List.count_append, count_chainLinks, ih, halpha, List.flatMap_cons,
      List.map_append, List.count_append, List.count_append]
    omega

/-- The texts of stages that are written show their links. -/
theorem exists_texts {stages : List Stage} (h : ∀ stage ∈ stages, stage.Written) :
    ∃ texts, stages.mapM Stage.text = .ok texts ∧
      (∀ t ∈ texts, t.isEmpty = false ∧ t.Shows t.links) ∧
      texts.flatMap Text.links = stages.flatMap chainLinks := by
  induction stages with
  | nil => exact ⟨[], rfl, fun t ht => absurd ht List.not_mem_nil, rfl⟩
  | cons stage stages ih =>
    obtain ⟨t, htext, hne, hshows⟩ := h stage List.mem_cons_self
    obtain ⟨texts, htexts, hall, hlinks⟩ := ih fun other ho => h other (List.mem_cons_of_mem _ ho)
    refine ⟨t :: texts, ?_, ?_, ?_⟩
    · rw [List.mapM_cons, htext, Outcome.ok_bind, htexts]
      rfl
    · intro s hs
      rcases List.mem_cons.mp hs with rfl | hs
      · exact ⟨hne, hshows.alone.symm ▸ hshows⟩
      · exact hall s hs
    · rw [List.flatMap_cons, List.flatMap_cons, hshows.alone, hlinks]

end Stage

/-- The filter text of stages that are written, and of the joining of picture and
sound behind them, shows the links of the stages. -/
theorem RenderGraph.exists_filterText {graph : RenderGraph} {front : List Stage}
    {video audio : Text} (hstages : graph.stages = front ++ [.mux video audio])
    (h : ∀ stage ∈ front, stage.Written) :
    ∃ t, graph.filterText = .ok t ∧ t.links = front.flatMap Stage.chainLinks := by
  obtain ⟨texts, htexts, hall, hlinks⟩ := Stage.exists_texts h
  have hmux : (Stage.mux video audio).text = .ok ⟨[]⟩ := rfl
  have hmapM : graph.stages.mapM Stage.text = .ok (texts ++ [Text.mk []]) := by
    rw [hstages, List.mapM_append, htexts, Outcome.ok_bind, List.mapM_cons, hmux]
    rfl
  have hfilter : (texts ++ [Text.mk []]).filter (fun t => !t.isEmpty) = texts := by
    have hempty : Text.isEmpty ⟨[]⟩ = true := rfl
    rw [List.filter_append, List.filter_cons, hempty]
    simp only [Bool.not_true, Bool.false_eq_true, if_false, List.filter_nil, List.append_nil]
    rw [List.filter_eq_self]
    intro t ht
    simp [(hall t ht).1]
  refine ⟨_, ?_, (Text.links_intercalate fun t ht => (hall t ht).2).trans hlinks⟩
  rw [filterText, hmapM, Outcome.ok_bind, hfilter]
  rfl

namespace Flow

variable {good : Stage → Prop} {inputs : List GraphInput} {stages : List Stage}
  {made : List StreamLabel} {waiting : List (StreamLabel × Signal)}

/-- The labels that changes of opacity need are those of different streams. -/
theorem exists_heads (flow : Flow good inputs stages made waiting) :
    ∃ heads : List StreamLabel, heads.Sublist made ∧
      stages.filterMap Stage.alpha? = heads.map StreamLabel.alpha := by
  induction flow with
  | empty => exact ⟨[], .slnil, rfl⟩
  | @add stages made waiting rest later streams stage feeds _ _ turns _ _ _ _ ih =>
    obtain ⟨heads, hsublist, halphas⟩ := ih
    have hstage : ∃ head : List StreamLabel, head.Sublist (streams.map Prod.fst) ∧
        stage.alpha?.toList = head.map StreamLabel.alpha := by
      unfold Stage.alpha?
      split
      · next opacity scaled outputs _ _ houtputs =>
        split
        · exact ⟨[], List.nil_sublist _, rfl⟩
        · rw [turns.produces] at houtputs
          cases streams with
          | nil => cases houtputs
          | cons stream streams =>
            obtain ⟨rfl, _⟩ := List.cons.inj houtputs
            exact ⟨[stream.1], by simp, rfl⟩
      · exact ⟨[], List.nil_sublist _, rfl⟩
    obtain ⟨head, hhead, halpha⟩ := hstage
    refine ⟨heads ++ head, hsublist.append hhead, ?_⟩
    rw [List.filterMap_append, halphas, List.map_append, ← halpha]
    cases h : stage.alpha? with
    | none => simp [h]
    | some alpha => simp [h]

/-- A stream that was made is shown once as an output, and once as an input
unless it still waits. -/
theorem count_made (numbered : Numbered inputs) (flow : Flow good inputs stages made waiting)
    {label : StreamLabel} (h : label ∈ made) :
    (stages.flatMap Stage.chainLinks).count ⟨.output, label.text⟩ = 1 ∧
      (stages.flatMap Stage.chainLinks).count ⟨.input, label.text⟩ =
        if label ∈ waiting.map Prod.fst then 0 else 1 := by
  obtain ⟨heads, _, halphas⟩ := flow.exists_heads
  have hnone : (stages.filterMap Stage.alpha?).count label.text = 0 := by
    refine List.count_eq_zero_of_not_mem ?_
    rw [halphas]
    intro hmem
    obtain ⟨head, _, hsame⟩ := List.mem_map.mp hmem
    exact StreamLabel.text_ne_alpha label head hsame.symm
  constructor
  · rw [Stage.count_flatMap_chainLinks, hnone, Nat.add_zero]
    exact flow.count_produced h
  · rw [Stage.count_flatMap_chainLinks, hnone, Nat.add_zero]
    exact flow.count_consumed numbered h

/-- The label that a change of opacity needs is shown once on each side. -/
theorem count_alpha (numbered : Numbered inputs) (flow : Flow good inputs stages made waiting)
    {alpha : Text} (h : alpha ∈ stages.filterMap Stage.alpha?) (side : LinkSide) :
    (stages.flatMap Stage.chainLinks).count ⟨side, alpha⟩ = 1 := by
  obtain ⟨heads, hsublist, halphas⟩ := flow.exists_heads
  have hone : (stages.filterMap Stage.alpha?).count alpha = 1 := by
    refine List.count_eq_one_of_mem ?_ h
    rw [halphas]
    exact (flow.made_nodup.sublist hsublist).map fun a b => StreamLabel.alpha_inj
  rw [halphas] at h
  obtain ⟨head, _, rfl⟩ := List.mem_map.mp h
  have hnone : ((stages.flatMap fun stage => stage.labelsOn side).map Value.display).count
      head.alpha = 0 := by
    refine List.count_eq_zero_of_not_mem ?_
    intro hmem
    obtain ⟨value, hvalue, hdisplay⟩ := List.mem_map.mp hmem
    cases side with
    | input =>
      obtain ⟨feed, ready, rfl, _⟩ := flow.exists_feed hvalue
      cases hkind : feed.taken? with
      | none => exact (ready.labels hkind).ne_text_append numbered head "_alpha" hdisplay
      | some stream =>
        rw [Feed.of_taken? hkind] at hdisplay
        exact StreamLabel.text_ne_alpha stream.1 head hdisplay
    | output =>
      obtain ⟨label, _, rfl⟩ := flow.exists_made hvalue
      exact StreamLabel.text_ne_alpha label head hdisplay
  rw [Stage.count_flatMap_chainLinks, hnone, hone]

/-- A label that is shown is that of a file, that of a stream, or one that a
change of opacity needs. -/
theorem of_mem_chainLinks {graph : RenderGraph}
    (flow : Flow good graph.inputs stages made waiting) {link : Link}
    (h : link ∈ stages.flatMap Stage.chainLinks) :
    Value.text link.label ∈ graph.fileStreams ∨ (∃ label ∈ made, link.label = label.text) ∨
      link.label ∈ stages.filterMap Stage.alpha? := by
  have hpos := List.count_pos_iff.mpr h
  rw [Stage.count_flatMap_chainLinks stages link.side link.label] at hpos
  by_cases halpha : link.label ∈ stages.filterMap Stage.alpha?
  · exact .inr (.inr halpha)
  rw [List.count_eq_zero_of_not_mem halpha, Nat.add_zero] at hpos
  obtain ⟨value, hvalue, hdisplay⟩ := List.mem_map.mp (List.count_pos_iff.mp hpos)
  cases hside : link.side with
  | input =>
    rw [hside] at hvalue
    obtain ⟨feed, ready, rfl, hmade⟩ := flow.exists_feed hvalue
    rw [← hdisplay]
    cases hkind : feed.taken? with
    | none => exact .inl (RenderGraph.mem_fileStreams ready hkind)
    | some stream =>
      refine .inr (.inl ⟨stream.1, hmade stream hkind, ?_⟩)
      rw [Feed.of_taken? hkind]
      rfl
  | output =>
    rw [hside] at hvalue
    obtain ⟨label, hlabel, rfl⟩ := flow.exists_made hvalue
    exact .inr (.inl ⟨label, hlabel, hdisplay.symm⟩)

end Flow

end Montage
