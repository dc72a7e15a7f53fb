import Montage.Export.Run
import Montage.Proofs.Graph.Compiled
import Montage.Proofs.Graph.Unplaced
import Montage.Proofs.Project.RoundTrip
import Montage.Proofs.Session.Run
import Montage.Session.Export

/-!
# The two routes into the compiler

Clips can be compiled as they are or as the timeline that they make up. Both
routes put them in the same order when every start time is a finite number that
a double is near; an integer beyond the doubles ends the first route, and a start
time that the layout has made infinite is ordered like a zero there.
-/

namespace Montage

open Outcome

/-- The value is an integer or a finite double. -/
def Value.IsFiniteNumber (value : Value) : Prop :=
  (∃ n : Int, value = .int n) ∨ ∃ x : Binary64, value = .real x ∧ x.isFinite = true

/-- A finite number is found to be one unless it is too large for a double. -/
theorem Value.IsFiniteNumber.isFinite_cases {value : Value} (h : value.IsFiniteNumber) :
    value.isFinite = .ok true ∨ value.isFinite = .error .tooLarge := by
  rcases h with ⟨n, rfl⟩ | ⟨x, rfl, hx⟩
  · by_cases hn : (Binary64.ofInt n).isFinite = true
    · exact .inl (by rw [int, isFinite, Number.isFinite?, if_pos hn, orFault])
    · exact .inr (by rw [int, isFinite, Number.isFinite?, if_neg hn, orFault])
  · exact .inl (by rw [real, isFinite, Number.isFinite?, hx, orFault])

/-- What equals an integer can name something. -/
theorem Value.checkKey_of_equal_int {value : Value} {n : Int} (h : value.equal (.int n) = true) :
    value.checkKey = .ok () := by
  obtain ⟨m, hm, _⟩ := exists_number_of_equal h rfl
  cases value with
  | list items => cases hm
  | record fields => cases hm
  | _ => rfl

/-! ## Grouping -/

/-- Grouping clips is choosing those of each track, and all of them have one. -/
theorem Timeline.group_eq_ok {loose : List Clip} {groups : Timeline.Grouped}
    (h : Timeline.group .ok loose = .ok groups) :
    groups = ⟨Footage.clipsOn .main loose, Footage.clipsOn .overlay loose⟩ ∧
      ∀ clip ∈ loose, ∃ track : Track, clip.track.equal track.toValue = true := by
  induction loose generalizing groups with
  | nil =>
    cases h
    exact ⟨rfl, by simp⟩
  | cons clip clips ih =>
    simp only [group, ok_bind, bind_eq_ok, pure_eq_ok] at h
    obtain ⟨track, htrack, rest, hrest, rfl⟩ := h
    obtain ⟨rfl, hall⟩ := ih hrest
    have hequal : clip.track.equal track.toValue = true := Track.ofValue_eq_ok.mp htrack
    have hon (other : Track) : clip.track.equal other.toValue = decide (other = track) := by
      by_cases he : clip.track.equal other.toValue = true
      · rw [he, Track.eq_of_equal he hequal, decide_eq_true rfl]
      · have hne : other ≠ track := fun heq => he (heq ▸ hequal)
        rw [Bool.not_eq_true] at he
        rw [he, decide_eq_false hne]
    refine ⟨?_, ?_⟩
    · cases track <;> simp [Grouped.push, Footage.clipsOn, hon]
    · intro other hother
      rcases List.mem_cons.mp hother with rfl | hother
      · exact ⟨track, hequal⟩
      · exact hall other hother

/-- Clips that are grouped are on their tracks. -/
theorem Footage.mem_clipsOn {track : Track} {loose : List Clip} {clip : Clip} :
    clip ∈ clipsOn track loose ↔ clip ∈ loose ∧ clip.track.equal track.toValue = true :=
  List.mem_filter

namespace Footage

/-! ## Order -/

/-- A clip that starts at a finite number is ordered by it. -/
theorem orderKey_of_finite {clip : Clip} (h : clip.startTime.isFinite = .ok true) :
    orderKey clip = .ok clip.startTime := by
  rw [orderKey, h]
  rfl

/-- A clip that does not is ordered by zero. -/
theorem orderKey_of_not_finite {clip : Clip} (h : clip.startTime.isFinite = .ok false) :
    orderKey clip = .ok (.real 0) := by
  rw [orderKey, h]
  rfl

/-- Clips that start at finite numbers are put in the order of their start
times. -/
theorem inOrder_of_finite {clips : List Clip}
    (h : ∀ clip ∈ clips, clip.startTime.isFinite = .ok true) :
    inOrder clips = sortOn Clip.startTime clips := by
  have hentries : (clips.mapM fun clip => do return (⟨← orderKey clip, clip⟩ : Keyed Clip)) =
      .ok (clips.map Keyed.ofClip) := by
    induction clips with
    | nil => rfl
    | cons clip clips ih =>
      rw [List.mapM_cons, orderKey_of_finite (h clip List.mem_cons_self),
        ih fun other hother => h other (List.mem_cons_of_mem clip hother)]
      rfl
  rw [inOrder, hentries, ok_bind]
  rfl

/-- Clips cannot be put in order if a start time is too large for a double. -/
theorem inOrder_of_tooLarge {clips : List Clip}
    (h : ∀ clip ∈ clips, clip.startTime.IsFiniteNumber)
    (large : ∃ clip ∈ clips, clip.startTime.isFinite = .error .tooLarge) :
    inOrder clips = .error .tooLarge := by
  have hentries : (clips.mapM fun clip => do return (⟨← orderKey clip, clip⟩ : Keyed Clip)) =
      .error .tooLarge := by
    induction clips with
    | nil =>
      obtain ⟨_, hnone, _⟩ := large
      cases hnone
    | cons clip clips ih =>
      rw [List.mapM_cons]
      rcases (h clip List.mem_cons_self).isFinite_cases with hfinite | hlarge
      · have hrest : ∃ other ∈ clips, other.startTime.isFinite = .error .tooLarge := by
          obtain ⟨other, hother, hlarge⟩ := large
          rcases List.mem_cons.mp hother with rfl | hother
          · rw [hfinite] at hlarge
            cases hlarge
          · exact ⟨other, hother, hlarge⟩
        rw [orderKey_of_finite hfinite,
          ih (fun other hother => h other (List.mem_cons_of_mem clip hother)) hrest]
        rfl
      · rw [show orderKey clip = .error .tooLarge by rw [orderKey, hlarge]; rfl]
        rfl
  rw [inOrder, hentries]
  rfl

/-- The tracks of loose clips that have one are put in order one after the
other. -/
theorem tracks_clips_eq {loose : List Clip}
    (h : ∀ clip ∈ loose, ∃ track : Track, clip.track.equal track.toValue = true) :
    tracks (.clips loose) = do
      return (← inOrder (clipsOn .main loose), ← inOrder (clipsOn .overlay loose)) := by
  have hkeys : (forIn loose PUnit.unit fun clip _ => do
      clip.track.checkKey
      pure (ForInStep.yield PUnit.unit) : Outcome PUnit) = .ok ⟨⟩ := by
    induction loose with
    | nil => rfl
    | cons clip clips ih =>
      obtain ⟨track, htrack⟩ := h clip List.mem_cons_self
      rw [List.forIn_cons, Value.checkKey_of_equal_int htrack]
      exact ih fun other hother => h other (List.mem_cons_of_mem clip hother)
  have hnone : (loose.find? fun clip => !hasTrack clip) = none := by
    refine List.find?_eq_none.mpr fun clip hclip => ?_
    obtain ⟨track, htrack⟩ := h clip hclip
    simp [hasTrack, Track.ofValue_eq_ok.mpr htrack, Except.isOk, Except.toBool]
  rw [tracks, hkeys, ok_bind, hnone]

/-- The order of loose clips that start at finite numbers is that of the timeline
they make up. -/
theorem exists_tracks_of_ofClips {loose : List Clip} {timeline : Timeline}
    (accepted : Timeline.ofClips loose = .ok timeline)
    (finite : ∀ clip ∈ loose, clip.startTime.isFinite = .ok true) :
    ∃ main overlay, tracks (.clips loose) = .ok (main, overlay) ∧
      main.map Clip.unplaced = timeline.main.map Clip.unplaced ∧
      overlay.map Clip.unplaced = timeline.overlay.map Clip.unplaced := by
  obtain ⟨groups, hgroups, h⟩ := bind_eq_ok.mp accepted
  obtain ⟨rfl, hon⟩ := Timeline.group_eq_ok hgroups
  simp only [Timeline.ofGrouped, bind_eq_ok, pure_eq_ok] at h
  obtain ⟨main, hmain, laid, hlaid, overlay, hoverlay, laid', hlaid', _, _, rfl⟩ := h
  have horder (track : Track) :
      inOrder (clipsOn track loose) = sortOn Clip.startTime (clipsOn track loose) :=
    inOrder_of_finite fun clip hclip => finite clip (mem_clipsOn.mp hclip).1
  refine ⟨main, overlay, ?_, (layoutFrom_unplaced hlaid).symm, (layoutFrom_unplaced hlaid').symm⟩
  rw [tracks_clips_eq hon, horder, horder, hmain, hoverlay]
  rfl

/-- Loose clips that make up a timeline cannot be put in order if a start time is
too large for a double. -/
theorem tracks_of_tooLarge {loose : List Clip} {timeline : Timeline}
    (accepted : Timeline.ofClips loose = .ok timeline)
    (numbers : ∀ clip ∈ loose, clip.startTime.IsFiniteNumber)
    (large : ∃ clip ∈ loose, clip.startTime.isFinite = .error .tooLarge) :
    tracks (.clips loose) = .error .tooLarge := by
  obtain ⟨groups, hgroups, h⟩ := bind_eq_ok.mp accepted
  obtain ⟨rfl, hon⟩ := Timeline.group_eq_ok hgroups
  simp only [Timeline.ofGrouped, bind_eq_ok, pure_eq_ok] at h
  obtain ⟨main, hmain, _⟩ := h
  have hnumbers (track : Track) : ∀ clip ∈ clipsOn track loose, clip.startTime.IsFiniteNumber :=
    fun clip hclip => numbers clip (mem_clipsOn.mp hclip).1
  rw [tracks_clips_eq hon]
  by_cases hlarge : ∃ clip ∈ clipsOn .main loose, clip.startTime.isFinite = .error .tooLarge
  · rw [inOrder_of_tooLarge (hnumbers .main) hlarge]
    rfl
  · have hfinite : ∀ clip ∈ clipsOn .main loose, clip.startTime.isFinite = .ok true := by
      intro clip hclip
      rcases (hnumbers .main clip hclip).isFinite_cases with h | h
      · exact h
      · exact absurd ⟨clip, hclip, h⟩ hlarge
    have hoverlay : ∃ clip ∈ clipsOn .overlay loose,
        clip.startTime.isFinite = .error .tooLarge := by
      obtain ⟨clip, hclip, h⟩ := large
      obtain ⟨track, htrack⟩ := hon clip hclip
      cases track with
      | main => exact absurd ⟨clip, mem_clipsOn.mpr ⟨hclip, htrack⟩, h⟩ hlarge
      | overlay => exact ⟨clip, mem_clipsOn.mpr ⟨hclip, htrack⟩, h⟩
    rw [inOrder_of_finite hfinite, hmain, inOrder_of_tooLarge (hnumbers .overlay) hoverlay]
    rfl

end Footage

/-! ## Compilations -/

/-- The compiler of a session answers what the compilation of its timeline comes
to. -/
theorem Session.run_compile (options : ExportOptions) (workspace : Workspace) :
    (Session.compile (some options)).run.run workspace =
      (((Compile.run (workspace.services.studio workspace.machine).outside
          (.timeline workspace.session.timeline) options).run.run workspace.trace).1,
        workspace.withTrace ((Compile.run (workspace.services.studio workspace.machine).outside
          (.timeline workspace.session.timeline) options).run.run workspace.trace).2) := rfl

/-- A request whose clips are compiled to a graph leads to its execution. -/
theorem Export.run_perform_of_ok {studio : Studio} {request : Request} {run : Run}
    {graph : RenderGraph} {trace : Trace}
    (h : (Compile.run studio.outside (.clips request.clips) request.options).run.run run.trace =
      (.ok graph, trace)) (consumer : Consumer) :
    (perform consumer studio request).run.run run =
      (execute consumer studio graph request.outputPath).run.run { run with trace } := by
  have hcompiled : (compiling (Compile.run studio.outside (.clips request.clips)
      request.options)).run.run run = (.ok (.ok graph), { run with trace }) := by
    have hrun : (compiling (Compile.run studio.outside (.clips request.clips)
        request.options)).run.run run =
      (.ok ((Compile.run studio.outside (.clips request.clips)
          request.options).run.run run.trace).1,
        { run with trace := ((Compile.run studio.outside (.clips request.clips)
          request.options).run.run run.trace).2 }) := rfl
    rw [hrun, h]
  rw [perform, Work.run_bind_of_ok hcompiled]

namespace Compile

variable {loose : List Clip} {timeline : Timeline}

/-- Clips that start at finite numbers are compiled like the timeline that they
make up. -/
theorem run_clips_eq (accepted : Timeline.ofClips loose = .ok timeline)
    (finite : ∀ clip ∈ loose, clip.startTime.isFinite = .ok true) (outside : Outside)
    (options : ExportOptions) :
    run outside (.clips loose) options = run outside (.timeline timeline) options := by
  obtain ⟨main, overlay, htracks, hmain, hoverlay⟩ :=
    Footage.exists_tracks_of_ofClips accepted finite
  rw [run_of_tracks_eq_ok outside htracks, run_of_tracks_eq_ok outside rfl,
    ofTracks_congr outside hmain hoverlay]

/-- The clips of a timeline that was made up of clips make it up. -/
theorem ofClips_clips_of_ofClips (accepted : Timeline.ofClips loose = .ok timeline) :
    Timeline.ofClips timeline.clips = .ok timeline := by
  obtain ⟨groups, _, h⟩ := bind_eq_ok.mp accepted
  obtain ⟨settled, checked⟩ := Timeline.settled_checked_of_ofGrouped h
  exact Timeline.ofClips_clips checked settled

/-- Clips with finite numbers as start times, in whatever order, are compiled
like the timeline that they make up: to the same graph or the same fault, with
the same calls to the world outside. Only if an integer among the start times is
too large for a double is there no such agreement, and compiling the clips then
ends in a fault at once. An export of the clips, or of the timeline's own ones,
executes the graph that a session with this timeline compiles, as long as the
exported clips start at finite numbers that are not too large. -/
theorem routes_agree (accepted : Timeline.ofClips loose = .ok timeline)
    (numbers : ∀ clip ∈ loose, clip.startTime.IsFiniteNumber) :
    ((∀ clip ∈ loose, clip.startTime.isFinite = .ok true) ∧
        (∀ outside options,
          run outside (.clips loose) options = run outside (.timeline timeline) options) ∨
      (∃ clip ∈ loose, clip.startTime.isFinite = .error .tooLarge) ∧
        ∀ outside options trace,
          (run outside (.clips loose) options).run.run trace = (.error .tooLarge, trace)) ∧
    ∀ {workspace after : Workspace} {options : ExportOptions} {graph : RenderGraph},
      workspace.session.timeline = timeline →
      (Session.compile (some options)).run.run workspace = (.ok graph, after) →
      ∀ clips, clips = loose ∨ clips = timeline.clips →
        (∀ clip ∈ clips, clip.startTime.isFinite = .ok true) →
        ∀ (consumer : Export.Consumer) (path : Text) (run : Export.Run),
          run.trace = workspace.trace →
          (Export.perform consumer (workspace.services.studio workspace.machine)
              ⟨clips, path, options⟩).run.run run =
            (Export.execute consumer (workspace.services.studio workspace.machine) graph
              path).run.run { run with trace := after.trace } := by
  refine ⟨?_, ?_⟩
  · by_cases large : ∃ clip ∈ loose, clip.startTime.isFinite = .error .tooLarge
    · exact .inr ⟨large, fun outside options => run_of_tracks_eq_error outside
        (Footage.tracks_of_tooLarge accepted numbers large) options⟩
    · have finite : ∀ clip ∈ loose, clip.startTime.isFinite = .ok true := by
        intro clip hclip
        rcases (numbers clip hclip).isFinite_cases with h | h
        · exact h
        · exact absurd ⟨clip, hclip, h⟩ large
      exact .inl ⟨finite, run_clips_eq accepted finite⟩
  · intro workspace after options graph htimeline hcompiled clips hclips finite consumer path run
      htrace
    have hmade : Timeline.ofClips clips = .ok timeline := by
      rcases hclips with rfl | rfl
      · exact accepted
      · exact ofClips_clips_of_ofClips accepted
    rw [Session.run_compile, htimeline, ← run_clips_eq hmade finite, Prod.mk.injEq] at hcompiled
    obtain ⟨hgraph, rfl⟩ := hcompiled
    refine Export.run_perform_of_ok (Prod.ext ?_ ?_) consumer
    · rw [htrace, hgraph]
    · rw [htrace]
      rfl

/-- Clips of the main track are grouped together. -/
theorem group_of_main {main : List Clip} (on : ∀ clip ∈ main, clip.track = Track.main.toValue) :
    Timeline.group .ok main = .ok ⟨main, []⟩ := by
  induction main with
  | nil => rfl
  | cons clip main ih =>
    have hrest := ih fun other hother => on other (List.mem_cons_of_mem clip hother)
    have htrack : clip.track.equal Track.main.toValue = true := by
      rw [on clip List.mem_cons_self]
      decide +kernel
    exact Timeline.group_cons rfl htrack hrest

/-- Clips of the main track make up the timeline that they come to when they are
sorted and laid out. -/
theorem ofClips_of_main {main sorted laid : List Clip}
    (on : ∀ clip ∈ main, clip.track = Track.main.toValue)
    (hsort : sortOn Clip.startTime main = .ok sorted) (hlaid : layout sorted = .ok laid)
    (checked : (Timeline.mk laid []).checkInvariants = .ok ()) :
    Timeline.ofClips main = .ok ⟨laid, []⟩ := by
  have hnone : sortOn Clip.startTime [] = .ok [] :=
    sortOn_startTime_eq (by simp [Keyed.sort])
  rw [Timeline.ofClips, group_of_main on, ok_bind, Timeline.ofGrouped]
  have hempty : layout [] = .ok [] := rfl
  simp only [hsort, hlaid, hnone, hempty, ok_bind, checked, pure_eq_ok]

/-- Clips of the main track are compiled in their order. -/
theorem tracks_of_main {main sorted : List Clip}
    (on : ∀ clip ∈ main, clip.track = Track.main.toValue)
    (ordered : Footage.inOrder main = .ok sorted) :
    Footage.tracks (.clips main) = .ok (sorted, []) := by
  obtain ⟨hgroups, hon⟩ := Timeline.group_eq_ok (group_of_main on)
  have hmain : Footage.clipsOn .main main = main := (congrArg Timeline.Grouped.main hgroups).symm
  have hoverlay : Footage.clipsOn .overlay main = [] :=
    (congrArg Timeline.Grouped.overlay hgroups).symm
  have hnone : Footage.inOrder [] = .ok [] := by
    rw [Footage.inOrder_of_finite (by simp)]
    exact sortOn_startTime_eq (by simp [Keyed.sort])
  rw [Footage.tracks_clips_eq hon, hmain, hoverlay, ordered, hnone]
  rfl

/-- A single clip of the main track that starts at a finite number is the main track. -/
theorem tracks_singleton {clip : Clip} (on : clip.track = Track.main.toValue)
    (finite : clip.startTime.isFinite = .ok true) :
    Footage.tracks (.clips [clip]) = .ok ([clip], []) := by
  obtain ⟨n, z, hstart, hplace⟩ := Value.isFinite_eq_true finite
  have hplaced : ([clip].map Keyed.ofClip).all (·.place?.isSome) = true := by
    simp [Keyed.place?, Keyed.ofClip, hstart, Value.number?, hplace]
  refine tracks_of_main (List.forall_mem_singleton.mpr on) ?_
  rw [Footage.inOrder_of_finite (List.forall_mem_singleton.mpr finite)]
  refine sortOn_startTime_eq ?_
  rw [Keyed.sort, if_pos hplaced]
  simp

/-- Two clips in the wrong order, with a gap between them. -/
def scattered : List Clip :=
  [{ Edit.latter with startTime := .int 9 }, Edit.former]

/-- The clips behind each other in the right order. -/
def gathered : List Clip :=
  [Edit.former.startingAt 0, { Edit.latter with startTime := .int 9 }.startingAt (.ofNat 3)]

/-- The clips in the wrong order make up those in the right one. -/
theorem ofClips_scattered : Timeline.ofClips scattered = .ok ⟨gathered, []⟩ := by
  have hon : ∀ clip ∈ scattered, clip.track = Track.main.toValue := by
    simp [scattered, Edit.former, Edit.latter, Clip.plain, Track.toValue, Track.number]
  have hplaces : (scattered.map Keyed.ofClip).all (fun entry => entry.place?.isSome) = true := by
    decide +kernel
  have hback : (Keyed.ofClip { Edit.latter with startTime := .int 9 }).atMost
      (Keyed.ofClip Edit.former) = false := by decide +kernel
  have hsort : sortOn Clip.startTime scattered = .ok scattered.reverse := by
    exact sortOn_startTime_eq (Keyed.sort_of_not_atMost hplaces hback)
  have hlaid : layout scattered.reverse = .ok gathered := by
    refine layoutFrom_cons_eq_ok.mpr ⟨.ofNat 3, _, ?_, layoutFrom_cons_eq_ok.mpr
      ⟨.ofNat 2, _, ?_, rfl, rfl⟩, ?_⟩
    · exact Outcome.eq_ok_of_toOption (by decide +kernel)
    · exact Outcome.eq_ok_of_toOption (by decide +kernel)
    · have hthird : (0 : Binary64).add (.ofNat 3) = .ofNat 3 := by decide +kernel
      rw [hthird, gathered]
  exact ofClips_of_main hon hsort hlaid (Outcome.eq_ok_of_isOk (by decide +kernel))

/-- Two clips in the wrong order are compiled like their timeline, and exporting
them executes the graph that a session with the timeline compiles. -/
theorem routes_agree_of_scattered : ∃ graph after,
    (∀ outside options, run outside (.clips scattered) options =
      run outside (.timeline ⟨gathered, []⟩) options) ∧
    (Session.compile (some .default)).run.run
        (Session.workspaceOf (Session.sessionOn ⟨gathered, []⟩)) = (.ok graph, after) ∧
    ∀ studio, studio = (Session.workspaceOf
        (Session.sessionOn ⟨gathered, []⟩)).services.studio Session.bareMachine →
      (Export.perform .listening studio ⟨scattered, "film.mp4", .default⟩).run.run
          (.start (.ofEngine .null none) Trace.empty) =
        (Export.execute .listening studio graph "film.mp4").run.run
          { Export.Run.start (.ofEngine .null none) Trace.empty with trace := after.trace } := by
  have hnumbers : ∀ clip ∈ scattered, clip.startTime.IsFiniteNumber := by
    intro clip hclip
    simp only [scattered, List.mem_cons, List.not_mem_nil, or_false] at hclip
    rcases hclip with rfl | rfl
    · exact .inl ⟨9, rfl⟩
    · exact .inr ⟨0, rfl, by decide +kernel⟩
  have hfinite : ∀ clip ∈ scattered, clip.startTime.isFinite = .ok true := by
    intro clip hclip
    simp only [scattered, List.mem_cons, List.not_mem_nil, or_false] at hclip
    rcases hclip with rfl | rfl
    · exact Outcome.eq_ok_of_toOption (by decide +kernel)
    · exact Outcome.eq_ok_of_toOption (by decide +kernel)
  obtain ⟨graph, after, hcompiled⟩ : ∃ graph after, (Session.compile (some .default)).run.run
      (Session.workspaceOf (Session.sessionOn ⟨gathered, []⟩)) = (.ok graph, after) :=
    Work.exists_of_isOk (by decide +kernel)
  obtain ⟨hroutes, hexport⟩ := routes_agree ofClips_scattered hnumbers
  refine ⟨graph, after, ?_, hcompiled, ?_⟩
  · rcases hroutes with ⟨_, hagree⟩ | ⟨⟨clip, hclip, hlarge⟩, _⟩
    · exact hagree
    · rw [hfinite clip hclip] at hlarge
      cases hlarge
  · rintro _ rfl
    exact hexport rfl hcompiled scattered (.inl rfl) hfinite .listening "film.mp4" _ rfl

/-- A clip that starts at an integer beyond the doubles. -/
def remote : Clip := { Edit.former with startTime := .int (10 ^ 400) }

/-- A clip with the whole of a source on the main track. -/
def entire (name : Text) (duration start : Value) : Clip :=
  { Clip.plain (.text name) ⟨.text name, duration, .null, .null⟩ (.int 0) duration (.int 0) with
    startTime := start }

/-- A clip that starts elsewhere is moved. -/
theorem startingAt_entire {start : Value} {now : Binary64} (h : start.equal (.real now) = false)
    (name : Text) (duration : Value) :
    (entire name duration start).startingAt now = entire name duration (.real now) := by
  have hnot : ¬ (entire name duration start).startTime.equal (.real now) = true := by
    rw [entire, h]
    exact Bool.false_ne_true
  rw [Clip.startingAt, if_neg hnot, entire, entire]

/-- Nearly the longest duration that a double can hold. -/
def age : Binary64 := .ofNat (10 ^ 308)

/-- Three clips of which the first two are together longer than any double. -/
def heaped : List Clip :=
  [entire "a" (.real age) (.int 0), entire "b" (.real age) (.int 1), entire "c" (.int 5) (.int 2)]

/-- The clips behind each other; the last one starts at infinity. -/
def unfolded : List Clip :=
  [entire "a" (.real age) (.int 0), entire "b" (.real age) (.real age),
    entire "c" (.int 5) (.real (.infinity false))]

/-- The clips in the order in which they are exported. -/
def exported : List Clip :=
  [entire "a" (.real age) (.int 0), entire "c" (.int 5) (.real (.infinity false)),
    entire "b" (.real age) (.real age)]

/-- The clips that are longer than any double make up a timeline. -/
theorem ofClips_heaped : Timeline.ofClips heaped = .ok ⟨unfolded, []⟩ := by
  have hon : ∀ clip ∈ heaped, clip.track = Track.main.toValue := by
    simp [heaped, entire, Clip.plain, Track.toValue, Track.number]
  have hplaces : (heaped.map Keyed.ofClip).all (fun entry => entry.place?.isSome) = true := by
    decide +kernel
  have hordered : (heaped.map Keyed.ofClip).Pairwise fun c d => c.atMost d = true := by
    decide +kernel
  have hsort : sortOn Clip.startTime heaped = .ok heaped := by
    refine sortOn_startTime_eq ?_
    rw [Keyed.sort, if_pos hplaces, List.mergeSort_of_pairwise hordered]
  have hlaid : layout heaped = .ok unfolded := by
    refine layoutFrom_cons_eq_ok.mpr ⟨age, _, ?_, layoutFrom_cons_eq_ok.mpr
      ⟨age, _, ?_, layoutFrom_cons_eq_ok.mpr ⟨.ofNat 5, _, ?_, rfl, rfl⟩, rfl⟩, ?_⟩
    · exact Outcome.eq_ok_of_toOption (by decide +kernel)
    · exact Outcome.eq_ok_of_toOption (by decide +kernel)
    · exact Outcome.eq_ok_of_toOption (by decide +kernel)
    · have honce : (0 : Binary64).add age = age := by decide +kernel
      have htwice : age.add age = .infinity false := by decide +kernel
      have hfirst : (entire "a" (.real age) (.int 0)).startingAt 0 =
          entire "a" (.real age) (.int 0) := Clip.startingAt_of_equal (by decide +kernel)
      rw [honce, htwice, hfirst, startingAt_entire (by decide +kernel),
        startingAt_entire (by decide +kernel), unfolded]
  exact ofClips_of_main hon hsort hlaid (Outcome.eq_ok_of_isOk (by decide +kernel))

/-- The clip that starts at infinity is exported as if it started at zero, so
before the second one. -/
theorem tracks_unfolded : Footage.tracks (.clips unfolded) = .ok (exported, []) := by
  have hon : ∀ clip ∈ unfolded, clip.track = Track.main.toValue := by
    simp [unfolded, entire, Clip.plain, Track.toValue, Track.number]
  have hfirst : Footage.orderKey (entire "a" (.real age) (.int 0)) = .ok (.int 0) :=
    Footage.orderKey_of_finite (Outcome.eq_ok_of_toOption (by decide +kernel))
  have hsecond : Footage.orderKey (entire "b" (.real age) (.real age)) = .ok (.real age) :=
    Footage.orderKey_of_finite (Outcome.eq_ok_of_toOption (by decide +kernel))
  have hthird : Footage.orderKey (entire "c" (.int 5) (.real (.infinity false))) = .ok (.real 0) :=
    Footage.orderKey_of_not_finite (Outcome.eq_ok_of_toOption (by decide +kernel))
  have hentries : (unfolded.mapM fun clip => do
      return (⟨← Footage.orderKey clip, clip⟩ : Keyed Clip)) =
        .ok [⟨.int 0, entire "a" (.real age) (.int 0)⟩,
          ⟨.real age, entire "b" (.real age) (.real age)⟩,
          ⟨.real 0, entire "c" (.int 5) (.real (.infinity false))⟩] := by
    simp only [unfolded, List.mapM_cons, List.mapM_nil, hfirst, hsecond, hthird]
    rfl
  refine tracks_of_main hon ?_
  rw [Footage.inOrder, hentries, ok_bind, Keyed.sort_of_last_between (by decide +kernel)
    (by decide +kernel) (by decide +kernel) (by decide +kernel)]
  rfl

/-- A track whose compilation can be seen to return a graph with some inputs does. -/
theorem exists_of_inputs (main : List Clip) (names : List Text)
    (h : ((ofTracks everywhere main [] .default).run.run Trace.empty).1.toOption.map
      (fun graph => graph.inputs.map (·.path.display)) = some names) :
    ∃ graph after, (ofTracks everywhere main [] .default).run.run Trace.empty =
      (.ok graph, after) ∧ graph.inputs.map (·.path.display) = names := by
  cases hrun : (ofTracks everywhere main [] .default).run.run Trace.empty with
  | mk outcome after =>
  rw [hrun] at h
  cases outcome with
  | error fault => cases h
  | ok graph => exact ⟨graph, after, rfl, Option.some.inj h⟩

/-- Two lists of clips that make up timelines. That of a clip which starts at an
integer beyond the doubles is not compiled, though its timeline is. The other one
has a timeline whose clips are exported in another order than the one in which a
session compiles them. -/
theorem routes_differ :
    (∃ timeline graph after, Timeline.ofClips [remote] = .ok timeline ∧
      (∀ clip ∈ [remote], clip.startTime.IsFiniteNumber) ∧
      (run everywhere (.clips [remote]) .default).run.run Trace.empty =
        (.error .tooLarge, Trace.empty) ∧
      (run everywhere (.timeline timeline) .default).run.run Trace.empty = (.ok graph, after)) ∧
    Timeline.ofClips heaped = .ok ⟨unfolded, []⟩ ∧
      (∀ clip ∈ heaped, clip.startTime.IsFiniteNumber) ∧
      ∃ graph exportGraph after exportAfter,
        (run everywhere (.timeline ⟨unfolded, []⟩) .default).run.run Trace.empty =
          (.ok graph, after) ∧
        (run everywhere (.clips unfolded) .default).run.run Trace.empty =
          (.ok exportGraph, exportAfter) ∧
        graph.inputs.map (·.path.display) = ["a", "b", "c"] ∧
        exportGraph.inputs.map (·.path.display) = ["a", "c", "b"] := by
  constructor
  · obtain ⟨timeline, accepted⟩ : ∃ timeline, Timeline.ofClips [remote] = .ok timeline :=
      Outcome.exists_of_isOk (by decide +kernel)
    have hcompiles : ((Timeline.ofClips [remote]).toOption.any fun timeline =>
        ((run everywhere (.timeline timeline) .default).run.run Trace.empty).1.isOk) = true := by
      decide +kernel
    rw [accepted] at hcompiles
    obtain ⟨graph, after, hcompiled⟩ := Work.exists_of_isOk hcompiles
    have hnumbers : ∀ clip ∈ [remote], clip.startTime.IsFiniteNumber := by
      intro clip hclip
      rw [List.mem_singleton.mp hclip]
      exact .inl ⟨_, rfl⟩
    have hlarge : remote.startTime.isFinite = .error .tooLarge := by
      rcases (hnumbers remote List.mem_cons_self).isFinite_cases with hfinite | hlarge
      · have hnot : remote.startTime.isFinite.isOk = false := by decide +kernel
        rw [hfinite] at hnot
        cases hnot
      · exact hlarge
    exact ⟨timeline, graph, after, accepted, hnumbers, run_of_tracks_eq_error everywhere
      (Footage.tracks_of_tooLarge accepted hnumbers ⟨remote, List.mem_cons_self, hlarge⟩) .default
      Trace.empty, hcompiled⟩
  · have hnumbers : ∀ clip ∈ heaped, clip.startTime.IsFiniteNumber := by
      intro clip hclip
      simp only [heaped, List.mem_cons, List.not_mem_nil, or_false] at hclip
      rcases hclip with rfl | rfl | rfl
      · exact .inl ⟨0, rfl⟩
      · exact .inl ⟨1, rfl⟩
      · exact .inl ⟨2, rfl⟩
    obtain ⟨graph, after, hgraph, hinputs⟩ :=
      exists_of_inputs unfolded ["a", "b", "c"] (by decide +kernel)
    obtain ⟨exportGraph, exportAfter, hexport, hexported⟩ :=
      exists_of_inputs exported ["a", "c", "b"] (by decide +kernel)
    refine ⟨ofClips_heaped, hnumbers, graph, exportGraph, after, exportAfter, ?_, ?_, hinputs,
      hexported⟩
    · rw [run_of_tracks_eq_ok everywhere rfl, hgraph]
    · rw [run_of_tracks_eq_ok everywhere tracks_unfolded, hexport]

end Compile

end Montage
