import Montage.Proofs.Graph.Compiled
import Montage.Proofs.Graph.Gathered
import Montage.Proofs.Project.Accepted

/-!
# The inputs of a graph

A graph reads the files of its clips and the images laid over them, and nothing
else.
-/

namespace Montage

/-- All files that are read for a clip have a property. -/
def Clip.Reads (Q : Value → Prop) (clip : Clip) : Prop :=
  Q clip.source.path ∧ ∀ overlay ∈ clip.overlays, Q overlay.image

/-- An overlay that is laid over a clip of the main track is one of the clip's. -/
theorem Layer.exists_clip {clips : List Clip} {first : Nat} {layer : Layer}
    (h : layer ∈ Layer.ofClips clips first) : ∃ clip ∈ clips, layer.overlay ∈ clip.overlays := by
  obtain ⟨⟨clip, index⟩, hclip, hlayer⟩ := List.mem_flatMap.mp h
  obtain ⟨⟨overlay, number⟩, hoverlay, rfl⟩ := List.mem_map.mp hlayer
  exact ⟨clip, List.fst_mem_of_mem_zipIdx hclip,
    List.fst_mem_of_mem_zipIdx (List.mem_filter.mp hoverlay).1⟩

/-- The files of steps have a property if those of the clips and images in their
account do. -/
theorem Step.path_of_account {Q : Value → Prop} {steps : List Step} {trimmed heard : List Clip}
    {layers : List Layer} {stages : List Stage}
    (account : Account.ofSteps steps = ⟨trimmed, heard, layers, stages⟩)
    (htrimmed : ∀ clip ∈ trimmed, Q clip.source.path)
    (hheard : ∀ clip ∈ heard, Q clip.source.path)
    (hlayers : ∀ layer ∈ layers, Q layer.overlay.image) {task : Task}
    (h : Step.read task ∈ steps) : Q task.path := by
  simp only [Account.ofSteps, Account.mk.injEq] at account
  obtain ⟨rfl, rfl, rfl, _⟩ := account
  have htask : task ∈ steps.filterMap Step.task? := List.mem_filterMap.mpr ⟨_, h, rfl⟩
  cases task with
  | trim clip label => exact htrimmed clip (List.mem_filterMap.mpr ⟨_, htask, rfl⟩)
  | listen clip label muted => exact hheard clip (List.mem_filterMap.mpr ⟨_, htask, rfl⟩)
  | lay layer frame opacity video clamped =>
    exact hlayers layer (List.mem_filterMap.mpr ⟨_, htask, rfl⟩)

namespace RenderGraph

namespace Follows

variable {Q : Value → Prop} {graph : RenderGraph} {main shown : List Clip}
  {front back : List Step}

/-- The files of the tasks for a graph are those of its clips and the images of those
of the main track. -/
theorem path_of_task (follows : graph.Follows main shown front back)
    (hmain : ∀ clip ∈ main, clip.Reads Q) (hshown : ∀ clip ∈ shown, Q clip.source.path)
    {task : Task} (h : .read task ∈ front ++ back) : Q task.path := by
  obtain ⟨_, _, hfront⟩ := follows.first
  obtain ⟨_, _, _, _, _, hback⟩ := follows.second
  rcases List.mem_append.mp h with htask | htask
  · refine Step.path_of_account hfront (fun clip hclip => (hmain clip hclip).1)
      (fun clip hclip => (hmain clip hclip).1) (fun layer hlayer => ?_) htask
    obtain ⟨clip, hclip, hoverlay⟩ := Layer.exists_clip hlayer
    exact (hmain clip hclip).2 _ hoverlay
  · exact Step.path_of_account hback hshown (by simp) (by simp) htask

/-- A graph reads these files. -/
theorem reads (follows : graph.Follows main shown front back)
    (hmain : ∀ clip ∈ main, clip.Reads Q) (hshown : ∀ clip ∈ shown, Q clip.source.path) :
    ∀ input ∈ graph.inputs, Q input.path := by
  intro input hinput
  rw [follows.inputs] at hinput
  rcases Builder.of_mem_run hinput with hempty | ⟨task, htask, hpath⟩
  · cases hempty
  · rw [hpath]
    exact follows.path_of_task hmain hshown htask

end Follows

/-- A graph reads the files of its clips. -/
theorem reads_of_construct {Q : Value → Prop} {main overlay : List Clip}
    {options : ExportOptions} {width height : Value} {graph : RenderGraph}
    (h : (construct main overlay options width height).1 = .ok graph)
    (reads : ∀ clip ∈ main ++ overlay, clip.Reads Q) : ∀ input ∈ graph.inputs, Q input.path := by
  obtain ⟨front, back, follows⟩ := exists_follows h
  refine follows.reads (fun clip hclip => reads clip (List.mem_append_left _ hclip)) ?_
  intro clip hclip
  exact (reads clip (List.mem_append_right _ (ExportOptions.mem_of_shown hclip))).1

end RenderGraph

/-- A graph that was compiled reads the files of the clips that are shown. -/
theorem Compile.reads_of_run {Q : Value → Prop} {outside : Outside} {footage : Footage}
    {options : ExportOptions} {trace after : Trace} {graph : RenderGraph}
    (h : (run outside footage options).run.run trace = (.ok graph, after))
    (reads : ∀ clip ∈ footage.shown, clip.Reads Q) : ∀ input ∈ graph.inputs, Q input.path := by
  obtain ⟨main, overlay, _, _, htracks, _, _, hbuilt⟩ := of_run_eq_ok h
  have hshown := Footage.mem_shown_of_tracks htracks
  exact RenderGraph.reads_of_construct (RenderGraph.construct_of_build hbuilt)
    fun clip hclip => reads clip (hshown clip hclip)

end Montage
