import Mathlib.Data.List.Forall2
import Montage.Proofs.Graph.Steps

/-!
# What steps gather

A builder asks for a file by its kind and its path. A file that is there is given
again; any other gets the next number. After any steps the files are therefore
numbered in their order and told apart by kind and path, and each of them is read
by a stage. The stages are those that the steps come down to, one group for each
step.
-/

namespace Montage

namespace GraphInput

/-- A stage reads a stream of the file. -/
def IsReadBy (input : GraphInput) (stage : Stage) : Prop :=
  .text input.video ∈ stage.inputs ∨ .text input.audio ∈ stage.inputs

end GraphInput

/-- The kind of a file that is read for a task is told by a text. -/
theorem Task.exists_kind (task : Task) : ∃ t, task.kind = .text t := by
  cases task <;> exact ⟨_, rfl⟩

/-- Some stage of a task reads the file. -/
theorem Task.exists_isReadBy (task : Task) (source : GraphInput) :
    ∃ stage ∈ task.stages source, source.IsReadBy stage := by
  cases task with
  | trim clip label => exact ⟨_, List.mem_singleton_self _, .inl (List.mem_singleton_self _)⟩
  | listen clip label muted =>
    exact ⟨_, List.mem_singleton_self _, .inr (List.mem_singleton_self _)⟩
  | lay layer frame opacity video clamped =>
    exact ⟨_, List.mem_cons_self, .inl List.mem_cons_self⟩

namespace Builder

variable {builder after : Builder}

/-- The files of a builder are in order: they are numbered and told apart, and each
is read by a stage. -/
structure Gathers (builder : Builder) : Prop where
  /-- The files are numbered in their order. -/
  numbered : Numbered builder.inputs
  /-- No two files are of the same kind and have the same path. -/
  apart : builder.inputs.Pairwise fun a b => ¬ a.IsFor b.path b.kind
  /-- Every file is read. -/
  read : ∀ input ∈ builder.inputs, ∃ stage ∈ builder.stages, input.IsReadBy stage

/-- A builder that holds nothing is in order. -/
theorem gathers_empty : empty.Gathers where
  numbered number input h := by cases h
  apart := .nil
  read input h := by cases h

/-- More stages keep the order. -/
theorem Gathers.addStages (gathers : builder.Gathers) (more : List Stage) :
    Gathers { builder with stages := builder.stages ++ more } where
  numbered := gathers.numbered
  apart := gathers.apart
  read input hinput := by
    obtain ⟨stage, hstage, hread⟩ := gathers.read input hinput
    exact ⟨stage, List.mem_append_left _ hstage, hread⟩

/-- A step keeps the order. -/
theorem Gathers.perform (gathers : builder.Gathers) (step : Step) :
    (builder.perform step).Gathers := by
  cases step with
  | tell note => exact ⟨gathers.numbered, gathers.apart, gathers.read⟩
  | add stage => exact gathers.addStages [stage]
  | read task =>
    cases hinput : builder.addInput task.path task.kind with
    | mk source after =>
      rw [Builder.perform_read hinput]
      rcases addInput_cases task.exists_kind hinput with ⟨rfl, _, _⟩ | ⟨hsource, rfl, hnone⟩
      · exact gathers.addStages _
      · refine ⟨?_, ?_, ?_⟩
        · rw [hsource]
          exact gathers.numbered.snoc task.path task.kind
        · refine List.pairwise_append.mpr ⟨gathers.apart, List.pairwise_singleton _ _, ?_⟩
          intro other hother added hadded
          rw [List.mem_singleton.mp hadded, hsource]
          exact hnone other hother
        · intro input hinput
          rcases List.mem_append.mp hinput with hinput | hinput
          · exact (gathers.addStages _).read input hinput
          · obtain ⟨stage, hstage, hread⟩ := task.exists_isReadBy source
            rw [List.mem_singleton.mp hinput]
            exact ⟨stage, List.mem_append_right _ hstage, hread⟩

/-- So do any steps. -/
theorem Gathers.run (gathers : builder.Gathers) (steps : List Step) :
    (builder.run steps).Gathers := by
  induction steps generalizing builder with
  | nil => exact gathers
  | cons step steps ih => exact ih (gathers.perform step)

end Builder

/-! ## The stages of steps -/

/-- The stages that a step comes down to when files are read. -/
def Step.DoneAs (inputs : List GraphInput) : Step → List Stage → Prop
  | .read task, group =>
    ∃ source ∈ inputs, source.IsFor task.path task.kind ∧ group = task.stages source
  | .add stage, group => group = [stage]
  | .tell _, group => group = []

/-- It comes down to them when more files are read, too. -/
theorem Step.DoneAs.mono {inputs more : List GraphInput} (h : inputs ⊆ more) (step : Step)
    (group : List Stage) (done : step.DoneAs inputs group) : step.DoneAs more group := by
  cases step with
  | read task =>
    obtain ⟨source, hsource, hdone⟩ := done
    exact ⟨source, h hsource, hdone⟩
  | add stage => exact done
  | tell note => exact done

namespace Builder

variable {builder : Builder}

/-- A step adds its stages and keeps the files. -/
theorem exists_perform (builder : Builder) (step : Step) :
    ∃ group, (builder.perform step).stages = builder.stages ++ group ∧
      step.DoneAs (builder.perform step).inputs group ∧
      builder.inputs ⊆ (builder.perform step).inputs := by
  cases step with
  | tell note => exact ⟨[], (List.append_nil _).symm, rfl, List.Subset.refl _⟩
  | add stage => exact ⟨[stage], rfl, rfl, List.Subset.refl _⟩
  | read task =>
    cases hinput : builder.addInput task.path task.kind with
    | mk source after =>
      rw [Builder.perform_read hinput]
      rcases addInput_cases task.exists_kind hinput with ⟨rfl, hmem, hfor⟩ | ⟨hsource, rfl, _⟩
      · exact ⟨_, rfl, ⟨source, hmem, hfor, rfl⟩, List.Subset.refl _⟩
      · refine ⟨_, rfl, ⟨source, ?_, ?_, rfl⟩, List.subset_append_left _ _⟩
        · exact List.mem_append_right _ (List.mem_singleton_self _)
        · rw [hsource]
          exact ⟨rfl, rfl⟩

/-- Steps add their stages in their order. -/
theorem exists_run (builder : Builder) (steps : List Step) :
    ∃ groups, (builder.run steps).stages = builder.stages ++ groups.flatten ∧
      List.Forall₂ (Step.DoneAs (builder.run steps).inputs) steps groups ∧
      builder.inputs ⊆ (builder.run steps).inputs := by
  induction steps generalizing builder with
  | nil => exact ⟨[], (List.append_nil _).symm, .nil, List.Subset.refl _⟩
  | cons step steps ih =>
    obtain ⟨group, hstages, hdone, hsub⟩ := builder.exists_perform step
    obtain ⟨groups, hrest, hall, hmore⟩ := ih (builder.perform step)
    refine ⟨group :: groups, ?_, .cons (hdone.mono hmore) hall, List.Subset.trans hsub hmore⟩
    change ((builder.perform step).run steps).stages = _
    rw [hrest, hstages, List.flatten_cons, List.append_assoc]

/-- Every file that steps read was there before or is asked for by a task. -/
theorem of_mem_run {steps : List Step} {input : GraphInput}
    (h : input ∈ (builder.run steps).inputs) :
    input ∈ builder.inputs ∨ ∃ task, .read task ∈ steps ∧ input.path = task.path := by
  induction steps generalizing builder with
  | nil => exact .inl h
  | cons step steps ih =>
    rcases ih h with hmem | ⟨task, htask, hpath⟩
    · cases step with
      | tell note => exact .inl hmem
      | add stage => exact .inl hmem
      | read task =>
        cases hinput : builder.addInput task.path task.kind with
        | mk source after =>
          rw [Builder.perform_read hinput] at hmem
          rcases addInput_cases task.exists_kind hinput with ⟨rfl, _, _⟩ | ⟨hsource, rfl, _⟩
          · exact .inl hmem
          · rcases List.mem_append.mp hmem with hmem | hmem
            · exact .inl hmem
            · rw [List.mem_singleton.mp hmem, hsource]
              exact .inr ⟨task, List.mem_cons_self, rfl⟩
    · exact .inr ⟨task, List.mem_cons_of_mem _ htask, hpath⟩

end Builder

/-! ## Selected stages -/

section Selected

variable {inputs : List GraphInput} {steps : List Step} {groups : List (List Stage)}
  {selects : Stage → Bool}

/-- If what is selected from the stages of a task depends on what the task stands
for, and nothing is selected from other stages, then the selected stages of steps
come in groups for what their tasks stand for, in their order. -/
theorem exists_selected {γ : Type} {meaning? : Task → Option γ} {Q : γ → List Stage → Prop}
    (done : List.Forall₂ (Step.DoneAs inputs) steps groups)
    (meant : ∀ (task : Task) (source : GraphInput) (meaning : γ), .read task ∈ steps →
      source ∈ inputs → source.IsFor task.path task.kind → meaning? task = some meaning →
        Q meaning ((task.stages source).filter selects))
    (others : ∀ (task : Task) (source : GraphInput), meaning? task = none →
      (task.stages source).filter selects = [])
    (added : (Account.ofSteps steps).stages.filter selects = []) :
    ∃ selected, groups.flatten.filter selects = selected.flatten ∧
      List.Forall₂ Q ((steps.filterMap Step.task?).filterMap meaning?) selected := by
  induction done with
  | nil => exact ⟨[], rfl, .nil⟩
  | @cons step group steps groups hdone _ ih =>
    have ih := ih fun task source meaning htask => meant task source meaning
      (List.mem_cons_of_mem _ htask)
    cases step with
    | tell note =>
      obtain ⟨selected, hselected, hall⟩ := ih added
      cases hdone
      exact ⟨selected, hselected, hall⟩
    | add stage =>
      obtain ⟨hstage, hrest⟩ := List.append_eq_nil_iff.mp (List.filter_append [stage] _ ▸ added)
      obtain ⟨selected, hselected, hall⟩ := ih hrest
      cases hdone
      rw [List.flatten_cons, List.filter_append, hstage]
      exact ⟨selected, hselected, hall⟩
    | read task =>
      obtain ⟨selected, hselected, hall⟩ := ih added
      obtain ⟨source, hsource, hfor, rfl⟩ := hdone
      rw [List.flatten_cons, List.filter_append, hselected]
      have htask : (Step.read task :: steps).filterMap Step.task? =
          task :: steps.filterMap Step.task? := rfl
      rw [htask]
      cases hmeaning : meaning? task with
      | none =>
        rw [others task source hmeaning, List.filterMap_cons_none hmeaning]
        exact ⟨selected, rfl, hall⟩
      | some meaning =>
        rw [List.filterMap_cons_some hmeaning]
        exact ⟨_ :: selected, rfl, .cons
          (meant task source meaning List.mem_cons_self hsource hfor hmeaning) hall⟩

/-- If nothing is selected from the stages of tasks, the selected stages are those
that read no files. -/
theorem filter_of_done (done : List.Forall₂ (Step.DoneAs inputs) steps groups)
    (tasks : ∀ task, .read task ∈ steps → ∀ source, (task.stages source).filter selects = []) :
    groups.flatten.filter selects = (Account.ofSteps steps).stages.filter selects := by
  induction done with
  | nil => rfl
  | @cons step group steps groups hdone _ ih =>
    have hrest := ih fun task htask => tasks task (List.mem_cons_of_mem _ htask)
    rw [List.flatten_cons, List.filter_append, hrest]
    cases step with
    | tell note =>
      cases hdone
      rfl
    | add stage =>
      cases hdone
      exact (List.filter_append [stage] _).symm
    | read task =>
      obtain ⟨source, _, _, rfl⟩ := hdone
      rw [tasks task List.mem_cons_self source]
      rfl

/-- A stage of steps is one of a task or reads no file. -/
theorem of_mem_done (done : List.Forall₂ (Step.DoneAs inputs) steps groups) {stage : Stage}
    (h : stage ∈ groups.flatten) :
    stage ∈ (Account.ofSteps steps).stages ∨ ∃ (task : Task) (source : GraphInput),
      stage ∈ task.stages source := by
  induction done with
  | nil => cases h
  | @cons step group steps groups hdone _ ih =>
    rcases List.mem_append.mp h with hhere | hlater
    · cases step with
      | tell note =>
        cases hdone
        cases hhere
      | add added =>
        cases hdone
        rw [List.mem_singleton.mp hhere]
        exact .inl List.mem_cons_self
      | read task =>
        obtain ⟨source, _, _, rfl⟩ := hdone
        exact .inr ⟨task, source, hhere⟩
    · refine (ih hlater).imp_left fun hadded => ?_
      cases step with
      | add added => exact List.mem_cons_of_mem _ hadded
      | tell note => exact hadded
      | read task => exact hadded

end Selected

namespace RenderGraph.Follows

variable {graph : RenderGraph} {main shown : List Clip} {front back : List Step}

/-- The files of the graph are numbered and told apart, and each of them is read. -/
theorem gathered (follows : graph.Follows main shown front back) :
    Numbered graph.inputs ∧
      (graph.inputs.Pairwise fun a b => ¬ a.IsFor b.path b.kind) ∧
      ∀ input ∈ graph.inputs, ∃ stage ∈ graph.stages, input.IsReadBy stage := by
  have hgathers := Builder.gathers_empty.run (front ++ back)
  rw [follows.inputs, follows.stages]
  exact ⟨hgathers.numbered, hgathers.apart, hgathers.read⟩

/-- The stages of the graph come in groups: those for the main track and the
others. -/
theorem exists_groups (follows : graph.Follows main shown front back) :
    ∃ first second, graph.stages = first.flatten ++ second.flatten ∧
      List.Forall₂ (Step.DoneAs graph.inputs) front first ∧
      List.Forall₂ (Step.DoneAs graph.inputs) back second := by
  obtain ⟨first, hfirst, hfront, _⟩ := Builder.empty.exists_run front
  obtain ⟨second, hsecond, hback, hsub⟩ := (Builder.empty.run front).exists_run back
  have hinputs := follows.inputs
  have hstages := follows.stages
  rw [Builder.run_append] at hinputs hstages
  rw [hsecond, hfirst] at hstages
  rw [← hinputs] at hback hsub
  exact ⟨first, second, hstages, hfront.imp fun step group done => done.mono hsub, hback⟩

/-- If only stages that lay pictures over others or scale them are selected, the
selected stages are those of the overlays of the main track whose values count and
those of the overlay track. -/
theorem exists_layers (follows : graph.Follows main shown front back) {selects : Stage → Bool}
    {Q : Layer → List Stage → Prop}
    (meant : ∀ (task : Task) (source : GraphInput) (layer : Layer), .read task ∈ front →
      source ∈ graph.inputs → source.IsFor task.path task.kind → task.layer? = some layer →
        Q layer ((task.stages source).filter selects))
    (unmeant : ∀ (task : Task) (source : GraphInput), task.layer? = none →
      (task.stages source).filter selects = [])
    (others : ∀ stage : Stage, stage.kind = .concat ∨ stage.kind = .scalePad ∨ stage.kind = .mux →
      selects stage = false) :
    ∃ groups inset, graph.stages.filter selects = groups.flatten ++ inset.filter selects ∧
      List.Forall₂ Q (Layer.ofClips main 0) groups ∧ Builder.Insets shown inset := by
  obtain ⟨first, second, hstages, hfront, hback⟩ := follows.exists_groups
  obtain ⟨joins, hjoins, hfirst⟩ := follows.first
  obtain ⟨joined, inset, video, hjoined, hinset, hsecond⟩ := follows.second
  have hjoining : ∀ stages, Builder.Joining stages → stages.filter selects = [] :=
    fun stages h => List.filter_eq_nil_iff.mpr fun stage hstage => by
      simp [others stage (.inl (h stage hstage))]
  have hadded : (Account.ofSteps front).stages.filter selects = [] := by
    rw [hfirst]
    exact hjoining joins hjoins
  obtain ⟨groups, hgroups, hall⟩ := exists_selected hfront meant unmeant hadded
  have hlayers : (front.filterMap Step.task?).filterMap Task.layer? = Layer.ofClips main 0 :=
    congrArg Account.layers hfirst
  have hnone : ∀ task, .read task ∈ back → ∀ source,
      (task.stages source).filter selects = [] := by
    intro task htask source
    refine unmeant task source
      (List.filterMap_eq_nil_iff.mp (congrArg Account.layers hsecond) _ ?_)
    exact List.mem_filterMap.mpr ⟨_, htask, rfl⟩
  have hend : [Stage.scalePad video Stage.outputVideo graph.width graph.height,
      Stage.mux graph.videoOutput graph.audioOutput].filter selects = [] := by
    simp [others (Stage.scalePad ..) (.inr (.inl rfl)), others (Stage.mux ..) (.inr (.inr rfl))]
  have hrest : second.flatten.filter selects = inset.filter selects := by
    rw [filter_of_done hback hnone, hsecond, List.filter_append, List.filter_append,
      hjoining joined hjoined, hend, List.nil_append, List.append_nil]
  rw [hlayers] at hall
  refine ⟨groups, inset, ?_, hall, hinset⟩
  rw [hstages, List.filter_append, hgroups, hrest]

end RenderGraph.Follows

end Montage
