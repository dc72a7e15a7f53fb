import Montage.Proofs.Graph.Faults
import Montage.Proofs.Graph.Questions
import Montage.Proofs.Graph.Sources

/-!
# The size of the output

The size of an output is a fixed one or comes from the first source. What the probe
of that source measures must be positive before its fractions are cut off, so the
whole numbers that are left are not negative, and one of them is zero only if a
measured number is between zero and one.
-/

namespace Montage

open Outcome

namespace Number

/-- The number is positive, and the integer is what is left of it without its
fraction. -/
structure HasWholePart (n : Number) (k : Int) : Prop where
  /-- The number is positive. -/
  positive : (int 0).lt n = true
  /-- The integer is not above the number. -/
  atMost : (int k).le n = true
  /-- The next integer is. -/
  before : n.lt (int (k + 1)) = true

variable {n : Number} {k : Int}

/-- A count lies between its quotient and the next one. -/
theorem natCast_div_bounds (count : Nat) {one : Nat} (h : 0 < one) :
    ((count / one : Nat) : Int) * one ≤ count ∧
      (count : Int) < (((count / one : Nat) : Int) + 1) * one := by
  have hone : (0 : Int) < one := by exact_mod_cast h
  exact ⟨Int.ediv_mul_le count hone.ne', Int.lt_ediv_add_one_mul_self count hone⟩

/-- A positive number within the line has the whole part that is cut out of it. -/
theorem hasWholePart_of_toWhole {units : Int} (place : n.place? = some (.inner units))
    (positive : 0 < units) (h : (Value.number n).toWhole = .ok k) : n.HasWholePart k := by
  have hone : (0 : Int) < Grid.unitsPerOne := by exact_mod_cast Grid.unitsPerOne_pos
  have hcut : k * Grid.unitsPerOne ≤ units ∧ units < (k + 1) * Grid.unitsPerOne := by
    cases n with
    | int m =>
      cases h
      cases place
      exact ⟨le_refl _, Int.mul_lt_mul_of_pos_right (Int.lt_succ k) hone⟩
    | real x =>
      cases x with
      | nan origin => cases place
      | infinity negative => cases negative <;> cases place
      | finite negative count grid =>
        cases place
        cases h
        cases negative with
        | true => exact absurd positive (by simp [Binary64.signed])
        | false => exact natCast_div_bounds count Grid.unitsPerOne_pos
  refine ⟨?_, ?_, ?_⟩
  · rw [lt_of_places place?_int_zero place]
    exact decide_eq_true positive
  · rw [le_of_places rfl place]
    exact decide_eq_true hcut.1
  · rw [lt_of_places place rfl]
    exact decide_eq_true hcut.2

/-- The whole part of a positive number is not negative. -/
theorem HasWholePart.nonneg (h : n.HasWholePart k) : 0 ≤ k := by
  have hzero := lt_trans h.positive h.before
  rw [lt_int, decide_eq_true_eq] at hzero
  omega

/-- The whole part of a number below one is zero. -/
theorem HasWholePart.eq_zero (h : n.HasWholePart k) (small : n.lt (int 1) = true) : k = 0 := by
  have hone : (int k).lt (int 1) = true := by
    have hle := h.atMost
    rw [le, Bool.or_eq_true] at hle
    rcases hle with hlt | hequal
    · exact lt_trans hlt small
    · obtain ⟨p, hk, hn⟩ := equal_iff.mp hequal
      obtain ⟨q, r, hq, hr, hlt⟩ := lt_iff.mp small
      cases hn.symm.trans hq
      exact lt_iff.mpr ⟨p, r, hk, hr, hlt⟩
  have hnonneg := h.nonneg
  rw [lt_int, decide_eq_true_eq] at hone
  omega

end Number

namespace RenderGraph

variable {graph : RenderGraph} {main shown overlay : List Clip} {front back : List Step}

/-- The graph has the size of its output, and its only stage that pads the picture is
told the same integers. -/
structure HasSize (graph : RenderGraph) (width height : Int) : Prop where
  /-- The width of the graph. -/
  width_eq : graph.width = .int width
  /-- The height of the graph. -/
  height_eq : graph.height = .int height
  /-- The stage that pads the picture. -/
  padded : ∃ video, graph.stagesOf (.text "scale_pad") =
    [.scalePad video Stage.outputVideo (.int width) (.int height)]

/-- The only stage that pads the picture is told the size of the graph. -/
theorem Follows.stagesOf_scalePad (follows : graph.Follows main shown front back) :
    ∃ video, graph.stagesOf (.text "scale_pad") =
      [.scalePad video Stage.outputVideo graph.width graph.height] := by
  obtain ⟨first, second, hstages, hfront, hback⟩ := follows.exists_groups
  obtain ⟨joins, hjoins, hfirst⟩ := follows.first
  obtain ⟨joined, inset, video, hjoined, hinset, hsecond⟩ := follows.second
  have htasks (task : Task) (source : GraphInput) : ((task.stages source).filter
      fun stage => stage.kind.name.equal (.text "scale_pad")) = [] := by
    cases task <;> rfl
  have hconcat : StageKind.concat.name.equal (.text "scale_pad") = false := rfl
  have hscale : StageKind.overlayScale.name.equal (.text "scale_pad") = false := rfl
  have hlay : StageKind.overlay.name.equal (.text "scale_pad") = false := rfl
  refine ⟨video, ?_⟩
  rw [stagesOf, hstages, ← List.flatten_append,
    filter_of_done (List.rel_append hfront hback) fun task _ => htasks task,
    Account.ofSteps_append, hfirst, hsecond]
  simp only [Account.append, List.filter_append, hjoins.filter_named hconcat,
    hjoined.filter_named hconcat, hinset.filter_named hscale hlay, List.nil_append]
  rfl

/-- A graph has the size that it is constructed for. -/
theorem hasSize_of_construct {options : ExportOptions} {width height : Int}
    (h : (construct main overlay options (.int width) (.int height)).1 = .ok graph) :
    graph.HasSize width height := by
  have hsize : graph.width = .int width ∧ graph.height = .int height := by
    unfold construct at h
    obtain ⟨_, _, h⟩ := bind_eq_ok.mp (mapError_eq_ok.mp h)
    obtain ⟨_, _, h⟩ := bind_eq_ok.mp h
    obtain ⟨_, _, h⟩ := bind_eq_ok.mp h
    rw [← pure_eq_ok.mp h]
    exact ⟨rfl, rfl⟩
  obtain ⟨_, _, follows⟩ := exists_follows h
  obtain ⟨video, hpadded⟩ := follows.stagesOf_scalePad
  rw [hsize.1, hsize.2] at hpadded
  exact ⟨hsize.1, hsize.2, video, hpadded⟩

end RenderGraph

namespace Compile

variable {outside : Outside} {footage : Footage} {options : ExportOptions}
  {main overlay : List Clip} {trace after : Trace} {graph : RenderGraph}

/-- A finite number that is not at most zero stands behind zero. -/
theorem exists_units_of_usable {value : Value} (finite : value.isFinite = .ok true)
    (positive : value.le (.int 0) = .ok false) :
    ∃ n units, value = .number n ∧ n.place? = some (.inner units) ∧ 0 < units := by
  obtain ⟨n, units, rfl, hplace⟩ := Value.isFinite_eq_true finite
  refine ⟨n, units, rfl, hplace, ?_⟩
  have hle : n.le (.int 0) = false := Except.ok.inj positive
  rw [Number.le_of_places hplace Number.place?_int_zero, decide_eq_false_iff_not] at hle
  omega

/-- Dimensions that can be used are the whole parts of positive numbers. -/
theorem wholeParts_of_usable {width height : Value} {size : Value × Value}
    (h : usableDimensions width height = .ok size) :
    ∃ (m n : Number) (j k : Int), width = .number m ∧ height = .number n ∧
      size = (.int j, .int k) ∧ m.HasWholePart j ∧ n.HasWholePart k := by
  simp only [usableDimensions, bind_eq_ok, demand_bind_eq_ok] at h
  obtain ⟨_, hwidth, rfl, _, hheight, rfl, flat, hflat, thin, hthin, h⟩ := h
  split at h
  · exact absurd h reject_ne_ok
  · next hsome =>
    obtain ⟨rfl, rfl⟩ : flat = false ∧ thin = false := by simpa using hsome
    obtain ⟨m, _, rfl, hm, hposm⟩ := exists_units_of_usable hwidth hflat
    obtain ⟨n, _, rfl, hn, hposn⟩ := exists_units_of_usable hheight hthin
    obtain ⟨j, hj, h⟩ := bind_eq_ok.mp h
    obtain ⟨k, hk, h⟩ := bind_eq_ok.mp h
    exact ⟨m, n, j, k, rfl, rfl, (pure_eq_ok.mp h).symm,
      Number.hasWholePart_of_toWhole hm hposm hj, Number.hasWholePart_of_toWhole hn hposn hk⟩

/-- Where the size of an output comes from. -/
inductive Sizes (outside : Outside) (footage : Footage) (resolution : Value) : Int → Int → Prop
  /-- It is one of the fixed sizes. -/
  | fixed (name : Text) (width height : Int) (named : resolution = .text name)
      (listed : (name, width, height) ∈ Resolution.fixedSizes) :
      Sizes outside footage resolution width height
  /-- It is what the probe of the first source has measured, without fractions. -/
  | probed (first : Clip) (rest overlay : List Clip) (measured : Value) (m n : Number)
      (width height : Int) (named : resolution = .text Resolution.ofSource)
      (tracks : footage.tracks = .ok (first :: rest, overlay))
      (probe : (outside.probe first.source).1 = .ok measured)
      (pair : measured.pair = .ok (.number m, .number n)) (across : m.HasWholePart width)
      (down : n.HasWholePart height) : Sizes outside footage resolution width height

/-- The first source is measured to be more than nothing and less than one point wide
or high. -/
inductive Vanishing (outside : Outside) (footage : Footage) (resolution : Value) : Prop
  /-- One of the measured numbers is between zero and one. -/
  | probed (first : Clip) (rest overlay : List Clip) (measured : Value) (m n : Number)
      (named : resolution = .text Resolution.ofSource)
      (tracks : footage.tracks = .ok (first :: rest, overlay))
      (probe : (outside.probe first.source).1 = .ok measured)
      (pair : measured.pair = .ok (.number m, .number n))
      (small : m.HasWholePart 0 ∨ n.HasWholePart 0) : Vanishing outside footage resolution

/-- An output has a point at least unless its source vanishes. -/
theorem Sizes.one_le_or {resolution : Value} {width height : Int}
    (h : Sizes outside footage resolution width height) :
    0 ≤ width ∧ 0 ≤ height ∧
      (1 ≤ width ∧ 1 ≤ height ∨ Vanishing outside footage resolution) := by
  cases h with
  | fixed name width height named listed =>
    have hfixed : ∀ entry ∈ Resolution.fixedSizes, 1 ≤ entry.2.1 ∧ 1 ≤ entry.2.2 := by decide
    obtain ⟨hwidth, hheight⟩ : 1 ≤ width ∧ 1 ≤ height := hfixed _ listed
    exact ⟨by omega, by omega, .inl ⟨hwidth, hheight⟩⟩
  | probed first rest overlay measured m n width height named tracks probe pair across down =>
    refine ⟨across.nonneg, down.nonneg, ?_⟩
    have hvanishing := Vanishing.probed first rest overlay measured m n named tracks probe pair
    rcases Int.lt_or_eq_of_le across.nonneg with hwidth | rfl
    · rcases Int.lt_or_eq_of_le down.nonneg with hheight | rfl
      · exact .inl ⟨hwidth, hheight⟩
      · exact .inr (hvanishing (.inr down))
    · exact .inr (hvanishing (.inl across))

/-- The output dimensions are integers and come from a fixed size or from the probe. -/
theorem sizes_of_dimensions {width height : Value}
    (tracks : footage.tracks = .ok (main, overlay))
    (h : (dimensions outside main options.resolution).run.run trace =
      (.ok (width, height), after)) :
    ∃ j k : Int, width = .int j ∧ height = .int k ∧
      Sizes outside footage options.resolution j k := by
  obtain ⟨size, _, hsize, h⟩ := Work.run_bind_eq_ok.mp h
  rw [Compiling.run_ofOutcome, Prod.mk.injEq] at hsize
  cases size with
  | some size =>
    cases h
    obtain ⟨name, hname, hlisted⟩ := Resolution.exists_of_dimensions? hsize.1
    exact ⟨size.1, size.2, rfl, rfl, .fixed name _ _ hname hlisted⟩
  | none =>
    have hsource := Resolution.dimensions?_eq_none.mp hsize.1
    cases main with
    | nil => cases h
    | cons first rest =>
      obtain ⟨_, _, _, h⟩ := Work.run_bind_eq_ok.mp h
      obtain ⟨_, _, _, h⟩ := Work.run_bind_eq_ok.mp h
      obtain ⟨⟨w, l⟩, _, hpair, h⟩ := Work.run_bind_eq_ok.mp h
      rw [Compiling.run_ofOutcome, Prod.mk.injEq] at hpair h
      obtain ⟨measured, hmeasured, hpair⟩ := bind_eq_ok.mp hpair.1
      obtain ⟨m, n, j, k, rfl, rfl, heq, hj, hk⟩ := wholeParts_of_usable h.1
      obtain ⟨rfl, rfl⟩ := (Prod.mk.injEq ..).mp heq
      exact ⟨j, k, rfl, rfl, .probed first rest overlay measured m n j k hsource tracks
        (mapError_eq_ok.mp hmeasured) hpair hj hk⟩

/-- Every graph that is compiled has the size that its options ask for. -/
theorem hasSize_of_run_eq_ok
    (h : (run outside footage options).run.run trace = (.ok graph, after)) :
    ∃ width height, graph.HasSize width height ∧
      Sizes outside footage options.resolution width height := by
  obtain ⟨⟨main, overlay⟩, _, htracks, h⟩ := Work.run_bind_eq_ok.mp h
  obtain ⟨_, _, _, h⟩ := Work.run_bind_eq_ok.mp h
  obtain ⟨⟨width, height⟩, _, hsize, h⟩ := Work.run_bind_eq_ok.mp h
  rw [Compiling.run_ofOutcome, Prod.mk.injEq] at htracks
  obtain ⟨j, k, rfl, rfl, hsizes⟩ := sizes_of_dimensions htracks.1 hsize
  obtain ⟨_, _, _, h⟩ := Work.run_bind_eq_ok.mp h
  have hbuilt : (RenderGraph.build main overlay options (.int j) (.int k)).1 = .ok graph :=
    congrArg Prod.fst h
  exact ⟨j, k, RenderGraph.hasSize_of_construct (RenderGraph.construct_of_build hbuilt), hsizes⟩

/-- A graph that is compiled and the stage that pads its picture have the same integers
for their size, either a fixed size or what the first source measures without fractions.
They are not negative, and both are at least one unless that source is measured to be
less than one point wide or high. A compilation without a graph turns the footage down,
or what is to blame for its fault is told. -/
theorem hasSize_of_run (outside : Outside) (footage : Footage) (options : ExportOptions)
    (trace : Trace) :
    Work.Ends (run outside footage options) trace fun outcome _ =>
      (∃ graph width height, outcome = .ok graph ∧ graph.HasSize width height ∧
        Sizes outside footage options.resolution width height ∧ 0 ≤ width ∧ 0 ≤ height ∧
        (1 ≤ width ∧ 1 ≤ height ∨ Vanishing outside footage options.resolution)) ∨
      ∃ fault, outcome = .error fault ∧
        (fault.IsVerdict ∨ Escape outside footage options fault) := by
  have hfails := fails_run outside footage options trace
  unfold Work.Ends at hfails
  cases hrun : (run outside footage options).run.run trace with
  | mk outcome after =>
    rw [hrun] at hfails
    refine Work.ends_of_run hrun ?_
    cases outcome with
    | error fault => exact .inr ⟨fault, rfl, hfails.2 fault rfl⟩
    | ok graph =>
      obtain ⟨width, height, hsize, hsizes⟩ := hasSize_of_run_eq_ok hrun
      exact .inl ⟨graph, width, height, rfl, hsize, hsizes, hsizes.one_le_or⟩

/-- A world in which every source is measured alike. -/
def measuring (width height : Number) : Outside :=
  ⟨fun _ => .ok true, fun _ => (.ok (.list [.number width, .number height]), [])⟩

/-- A source that is measured to be half a point wide is not turned down, and the output
has no width. One that is measured to be wider than any double can tell ends the
compilation in a fault that turns nothing down. -/
theorem hasSize_of_sliver :
    (∃ graph after height, (run (measuring (.real 0.5) (.int 100)) film
        (.ofResolution (.text Resolution.ofSource))).run.run Trace.empty = (.ok graph, after) ∧
      graph.HasSize 0 height) ∧
    ∃ after, (run (measuring (.int (10 ^ 400)) (.int 1)) film
        (.ofResolution (.text Resolution.ofSource))).run.run Trace.empty =
      (.error .tooLarge, after) := by
  constructor
  · obtain ⟨graph, after, hrun⟩ : ∃ graph after, (run (measuring (.real 0.5) (.int 100)) film
        (.ofResolution (.text Resolution.ofSource))).run.run Trace.empty = (.ok graph, after) :=
      Work.exists_of_isOk (by decide +kernel)
    obtain ⟨width, height, hsize, hsizes⟩ := hasSize_of_run_eq_ok hrun
    cases hsizes with
    | fixed name _ _ named listed =>
      have hother : ∀ entry ∈ Resolution.fixedSizes, entry.1 ≠ Resolution.ofSource := by
        decide +kernel
      exact absurd (Value.text.inj named).symm (hother _ listed)
    | probed first rest overlay measured m n _ _ named tracks probe pair across down =>
      cases probe
      cases pair
      have hsmall : (Number.real 0.5).lt (.int 1) = true := by decide +kernel
      rw [across.eq_zero hsmall] at hsize
      exact ⟨graph, after, height, hrun, hsize⟩
  · have hfails : ((run (measuring (.int (10 ^ 400)) (.int 1)) film
        (.ofResolution (.text Resolution.ofSource))).run.run Trace.empty).1 = .error .tooLarge :=
      eq_tooLarge_of_failsAs (by decide +kernel)
    generalize (run (measuring (.int (10 ^ 400)) (.int 1)) film
      (.ofResolution (.text Resolution.ofSource))).run.run Trace.empty = done at hfails ⊢
    obtain ⟨outcome, after⟩ := done
    cases hfails
    exact ⟨after, rfl⟩

end Compile

end Montage
