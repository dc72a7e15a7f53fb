import Montage.Proofs.Graph.Fitting
import Montage.Proofs.Graph.Routes
import Montage.Proofs.Project.Accepted
import Montage.Proofs.Sorting.Stable

/-!
# What a compilation asks

A compilation looks for the sources of the clips in the order in which they are shown,
the main track before the overlay track, and stops at the first clip that does not
pass. The source of the first clip is probed once, after all clips have passed, and
only if the output has the size of that source.
-/

namespace Montage

open Outcome

namespace Footage

/-! ## The order of the clips -/

/-- The first clip is not ordered after the second one. -/
def NotAfter (first second : Clip) : Prop :=
  ∃ a b, orderKey first = .ok a ∧ orderKey second = .ok b ∧ b.lt a = .ok false

/-- The clips in the order of the times that they are ordered by. Clips that are
ordered alike stay as they were given. -/
structure Ordered (given ordered : List Clip) : Prop where
  /-- No clip is lost or doubled. -/
  perm : ordered.Perm given
  /-- No clip comes after one that is ordered after it. -/
  rises : ordered.Pairwise NotAfter
  /-- Clips that were in order stay in it. -/
  stable : ∀ first second, [first, second].Sublist given → NotAfter first second →
    [first, second].Sublist ordered

/-- A clip can be put on a track and in its order. -/
def Arrangeable (clip : Clip) : Prop :=
  (∃ track : Track, clip.track.equal track.toValue = true) ∧ ∃ key, orderKey clip = .ok key

/-- The clips of both tracks in their order: those of a timeline as they are, and loose
ones by their start times. -/
inductive Arranged : Footage → List Clip → List Clip → Prop
  /-- A timeline is in order. -/
  | timeline (whole : Timeline) : Arranged (.timeline whole) whole.main whole.overlay
  /-- Loose clips are put in order if each of them can be. -/
  | clips (loose main overlay : List Clip) (arrangeable : ∀ clip ∈ loose, Arrangeable clip)
      (onMain : Ordered (clipsOn .main loose) main)
      (onOverlay : Ordered (clipsOn .overlay loose) overlay) :
      Arranged (.clips loose) main overlay

/-- Some loose clip can not be put on a track or in its order. -/
inductive Unarrangeable : Footage → Prop
  /-- One clip is enough. -/
  | clips (loose : List Clip) (clip : Clip) (given : clip ∈ loose) (bad : ¬ Arrangeable clip) :
      Unarrangeable (.clips loose)

/-- A clip with the time that it is ordered by, if there is one. -/
def keyed (clip : Clip) : Keyed Clip := ⟨(orderKey clip).toOption.getD .null, clip⟩

variable {clips sorted : List Clip} {clip first second : Clip} {key : Value}

/-- The entry of a clip has the clip's key. -/
theorem keyed_of_orderKey (h : orderKey clip = .ok key) : keyed clip = ⟨key, clip⟩ := by
  rw [keyed, h]
  rfl

/-- The entry of a clip with a key has the place of that key. -/
theorem place?_keyed (h : orderKey clip = .ok key) :
    ∃ n p, key = .number n ∧ n.place? = some p ∧ (keyed clip).place? = some p := by
  obtain ⟨n, p, rfl, hplace⟩ := exists_place_of_orderKey h
  exact ⟨n, p, rfl, hplace, by rw [keyed_of_orderKey h]; exact hplace⟩

/-- Clips are ordered like their entries. -/
theorem notAfter_iff {a b : Value} (hfirst : orderKey first = .ok a)
    (hsecond : orderKey second = .ok b) :
    NotAfter first second ↔ (keyed second).rank.lt (keyed first).rank = false := by
  obtain ⟨m, p, rfl, hm, hp⟩ := place?_keyed hfirst
  obtain ⟨n, q, rfl, hn, hq⟩ := place?_keyed hsecond
  have hlt : (Value.number n).lt (.number m) = .ok (q.lt p) := by
    change Except.ok (n.lt m) = _
    rw [Number.lt, hn, hm]
  rw [Keyed.rank_of_place hp, Keyed.rank_of_place hq]
  constructor
  · rintro ⟨_, _, ha, hb, h⟩
    cases hfirst.symm.trans ha
    cases hsecond.symm.trans hb
    exact Except.ok.inj (hlt.symm.trans h)
  · intro h
    exact ⟨_, _, hfirst, hsecond, by rw [hlt, h]⟩

/-- The entries that are put in order are there when every clip has its key. -/
theorem entries_eq_ok {entries : List (Keyed Clip)} :
    (clips.mapM fun clip => do return (⟨← orderKey clip, clip⟩ : Keyed Clip)) = .ok entries ↔
      (∀ clip ∈ clips, ∃ key, orderKey clip = .ok key) ∧ entries = clips.map keyed := by
  induction clips generalizing entries with
  | nil =>
    rw [List.mapM_nil, pure_eq_ok]
    simp [eq_comm]
  | cons clip clips ih =>
    simp only [List.mapM_cons, bind_eq_ok, pure_eq_ok, ih, List.forall_mem_cons, List.map_cons]
    constructor
    · rintro ⟨_, ⟨key, hkey, rfl⟩, rest, ⟨hkeys, rfl⟩, rfl⟩
      exact ⟨⟨⟨key, hkey⟩, hkeys⟩, by rw [keyed_of_orderKey hkey]⟩
    · rintro ⟨⟨⟨key, hkey⟩, hkeys⟩, rfl⟩
      exact ⟨_, ⟨key, hkey, rfl⟩, _, ⟨hkeys, rfl⟩, by rw [keyed_of_orderKey hkey]⟩

/-- The entries of clips with keys stand on the number line. -/
theorem placed_of_keys (keys : ∀ clip ∈ clips, ∃ key, orderKey clip = .ok key) :
    Keyed.Placed (clips.map keyed) := by
  intro entry hentry
  obtain ⟨clip, hclip, rfl⟩ := List.mem_map.mp hentry
  obtain ⟨key, hkey⟩ := keys clip hclip
  obtain ⟨_, p, _, _, hplace⟩ := place?_keyed hkey
  rw [hplace, Option.isSome_some]

/-- Clips that have been put in order all have their keys. -/
theorem keys_of_inOrder (h : inOrder clips = .ok sorted) :
    ∀ clip ∈ clips, ∃ key, orderKey clip = .ok key := by
  obtain ⟨_, hentries, _⟩ := bind_eq_ok.mp h
  exact (entries_eq_ok.mp hentries).1

/-- Clips that all have their keys are put in order. -/
theorem exists_inOrder (keys : ∀ clip ∈ clips, ∃ key, orderKey clip = .ok key) :
    ∃ sorted, inOrder clips = .ok sorted := by
  refine ⟨((clips.map keyed).mergeSort Keyed.upTo).map Keyed.item, ?_⟩
  rw [inOrder, entries_eq_ok.mpr ⟨keys, rfl⟩, ok_bind, Keyed.sort_of_placed (placed_of_keys keys)]
  rfl

/-- Clips that have been put in order are in the order of their keys. -/
theorem ordered_of_inOrder (h : inOrder clips = .ok sorted) : Ordered clips sorted := by
  have hperm := perm_of_inOrder h
  obtain ⟨_, hentries, h⟩ := bind_eq_ok.mp h
  obtain ⟨hkeys, rfl⟩ := entries_eq_ok.mp hentries
  obtain ⟨ranked, hranked, h⟩ := bind_eq_ok.mp h
  cases h
  have hplaced := placed_of_keys hkeys
  have hkeyed : ∀ entry ∈ ranked, ∃ clip ∈ clips, keyed clip = entry := fun entry hentry =>
    List.mem_map.mp ((Keyed.perm_of_sort hranked).subset hentry)
  refine ⟨hperm, List.pairwise_map.mpr ?_, fun first second hbefore hfirst => ?_⟩
  · refine (Keyed.rises_of_sort hplaced hranked).imp_of_mem fun ha hb hle => ?_
    obtain ⟨a, hagiven, rfl⟩ := hkeyed _ ha
    obtain ⟨b, hbgiven, rfl⟩ := hkeyed _ hb
    obtain ⟨_, hfirst⟩ := hkeys a hagiven
    obtain ⟨_, hsecond⟩ := hkeys b hbgiven
    exact (notAfter_iff hfirst hsecond).mpr hle
  · obtain ⟨_, _, ha, hb, _⟩ := id hfirst
    have hentries : [keyed first, keyed second].Sublist (clips.map keyed) := hbefore.map keyed
    exact (Keyed.sublist_of_sort hplaced hranked hentries
      ((notAfter_iff ha hb).mp hfirst)).map Keyed.item

/-- Footage on its tracks is in their order. -/
theorem arranged_of_tracks {footage : Footage} {main overlay : List Clip}
    (h : footage.tracks = .ok (main, overlay)) : footage.Arranged main overlay := by
  cases footage with
  | timeline whole =>
    cases h
    exact .timeline whole
  | clips loose =>
    obtain ⟨_, _, h⟩ := bind_eq_ok.mp h
    split at h
    · cases h
    · next hnone =>
      obtain ⟨_, hmain, h⟩ := bind_eq_ok.mp h
      obtain ⟨_, hoverlay, h⟩ := bind_eq_ok.mp h
      cases h
      refine .clips loose main overlay (fun clip hclip => ?_) (ordered_of_inOrder hmain)
        (ordered_of_inOrder hoverlay)
      have hsome : hasTrack clip = true := by
        simpa using List.find?_eq_none.mp hnone clip hclip
      obtain ⟨track, htrack⟩ := exists_of_isOk hsome
      have hon := Track.ofValue_eq_ok.mp htrack
      refine ⟨⟨track, hon⟩, ?_⟩
      cases track with
      | main => exact keys_of_inOrder hmain clip (mem_clipsOn.mpr ⟨hclip, hon⟩)
      | overlay => exact keys_of_inOrder hoverlay clip (mem_clipsOn.mpr ⟨hclip, hon⟩)

/-- Footage whose tracks are not known has a clip that can not be put on them. -/
theorem unarrangeable_of_tracks {footage : Footage} {fault : Fault}
    (h : footage.tracks = .error fault) : footage.Unarrangeable := by
  cases footage with
  | timeline whole => cases h
  | clips loose =>
    by_contra hnone
    have hall : ∀ clip ∈ loose, Arrangeable clip := fun clip hclip => by
      by_contra hbad
      exact hnone (.clips loose clip hclip hbad)
    have hordered (track : Track) : ∃ sorted, inOrder (clipsOn track loose) = .ok sorted :=
      exists_inOrder fun clip hclip => (hall clip (mem_clipsOn.mp hclip).1).2
    obtain ⟨main, hmain⟩ := hordered .main
    obtain ⟨overlay, hoverlay⟩ := hordered .overlay
    rw [tracks_clips_eq fun clip hclip => (hall clip hclip).1, hmain, hoverlay] at h
    cases h

end Footage

namespace Resolution

variable {name : Value}

/-- The size of an output is left open only by the name for that of the source. -/
theorem dimensions?_eq_none : dimensions? name = .ok none ↔ name = .text ofSource := by
  rw [← Value.equal_text_iff, dimensions?]
  split
  · next h => simp [h]
  · next h =>
    refine ⟨fun hnone => ?_, fun hsource => absurd hsource h⟩
    obtain ⟨_, _, hnone⟩ := bind_eq_ok.mp hnone
    split at hnone <;> cases hnone

/-- A size that is known is one of the fixed sizes. -/
theorem exists_of_dimensions? {size : Int × Int} (h : dimensions? name = .ok (some size)) :
    ∃ t, name = .text t ∧ (t, size) ∈ fixedSizes := by
  rw [dimensions?] at h
  split at h
  · cases h
  · obtain ⟨_, _, h⟩ := bind_eq_ok.mp h
    split at h
    · next t found hfound =>
      cases h
      have hnamed : name.equal (.text t) = true :=
        List.find?_some (p := fun entry : Text × Int × Int => name.equal (.text entry.1)) hfound
      exact ⟨t, Value.equal_text_iff.mp hnamed, List.mem_of_find?_eq_some hfound⟩
    · cases h

end Resolution

namespace Compile

/-! ## Questions -/

/-- The source of the clip is there, and the clip is valid. -/
def Passes (outside : Outside) (clip : Clip) : Prop :=
  outside.sourceExists clip.source = .ok true ∧ clip.validate = .ok ()

/-- Some clips are looked over in their order until one does not pass. -/
structure LooksOver (outside : Outside) (clips seen : List Clip) : Prop where
  /-- The clips that are seen are the first ones. -/
  inOrder : seen <+: clips
  /-- Nothing is seen after a clip that does not pass. -/
  stops : ∀ clip ∈ seen.dropLast, Passes outside clip
  /-- As long as the clips pass, the next one is seen. -/
  continues : (∀ clip ∈ seen, Passes outside clip) → seen = clips

variable {outside : Outside} {clips seen main overlay : List Clip} {clip first : Clip}

/-- Without clips nothing is seen. -/
theorem LooksOver.nil : LooksOver outside [] [] :=
  ⟨List.prefix_rfl, by simp, fun _ => rfl⟩

/-- A clip that does not pass is the last one that is seen. -/
theorem LooksOver.stop (fails : ¬ Passes outside clip) : LooksOver outside (clip :: clips) [clip] :=
  ⟨List.prefix_append [clip] clips, by simp, fun h => absurd (h clip List.mem_cons_self) fails⟩

/-- After a clip that passes the others are looked over. -/
theorem LooksOver.cons (passes : Passes outside clip) (h : LooksOver outside clips seen) :
    LooksOver outside (clip :: clips) (clip :: seen) := by
  refine ⟨List.prefix_cons_inj clip |>.mpr h.inOrder, fun other hother => ?_, fun hall => ?_⟩
  · cases seen with
    | nil => cases hother
    | cons next rest =>
      rw [List.dropLast_cons_of_ne_nil (List.cons_ne_nil next rest)] at hother
      rcases List.mem_cons.mp hother with rfl | hother
      · exact passes
      · exact h.stops other hother
  · rw [h.continues fun other hother => hall other (List.mem_cons_of_mem clip hother)]

/-- Validation looks the clips over, and returns when all of them pass. -/
theorem ends_validateEach (outside : Outside) (clips : List Clip) (trace : Trace) :
    Work.Ends (validateEach outside clips) trace fun outcome after =>
      ∃ seen, LooksOver outside clips seen ∧
        after.calls = trace.calls ++ seen.map (.look ·.source) ∧
        (outcome = .ok () ↔ ∀ clip ∈ clips, Passes outside clip) := by
  induction clips generalizing trace with
  | nil => exact Work.ends_of_run rfl ⟨[], .nil, (List.append_nil _).symm, by simp⟩
  | cons clip clips ih =>
    -- A clip that does not pass ends the work in a fault.
    have hstop {fault : Fault} (fails : ¬ Passes outside clip) : ∃ seen,
        LooksOver outside (clip :: clips) seen ∧
        (trace.record (.look clip.source)).calls = trace.calls ++ seen.map (.look ·.source) ∧
        ((.error fault : Except Fault Unit) = .ok () ↔
          ∀ other ∈ clip :: clips, Passes outside other) := by
      refine ⟨[clip], .stop fails, rfl, ⟨nofun, fun h => ?_⟩⟩
      exact absurd (h clip List.mem_cons_self) fails
    refine Work.ends_bind_of_ok (t := trace.record (.look clip.source)) rfl ?_
    cases hfound : outside.sourceExists clip.source with
    | error fault =>
      refine Work.ends_bind_of_error (Compiling.run_ofOutcome _ _) (hstop fun passes => ?_)
      cases hfound.symm.trans passes.1
    | ok found =>
      refine Work.ends_bind_of_ok (Compiling.run_ofOutcome _ _) ?_
      cases found with
      | false =>
        refine Work.ends_of_run rfl (hstop fun passes => ?_)
        cases hfound.symm.trans passes.1
      | true =>
        cases hvalid : clip.validate with
        | error fault =>
          refine Work.ends_bind_of_error (Compiling.run_ofOutcome _ _) (hstop fun passes => ?_)
          cases hvalid.symm.trans passes.2
        | ok _ =>
          refine Work.ends_bind_of_ok (Compiling.run_ofOutcome _ _) ((ih _).mono ?_)
          rintro outcome after ⟨seen, hseen, hcalls, hall⟩
          refine ⟨clip :: seen, .cons ⟨hfound, hvalid⟩ hseen, ?_, ?_⟩
          · rw [hcalls, Trace.record, List.append_assoc, List.map_cons, List.singleton_append]
          · rw [hall, List.forall_mem_cons, and_iff_right ⟨hfound, hvalid⟩]

/-- Probing a source is one question. -/
theorem calls_of_probeDimensions (source : Source) (trace : Trace) :
    Work.Ends (probeDimensions outside source) trace fun _ after =>
      after.calls = trace.calls ++ [.probe source] := by
  refine Work.ends_bind_of_ok (t := trace.record (.probe source)) rfl ?_
  refine Work.ends_bind_of_ok (t := (trace.record (.probe source)).leave _) rfl ?_
  generalize hasked : (trace.record (.probe source)).leave _ = asked
  have hcalls : asked.calls = trace.calls ++ [.probe source] := by rw [← hasked]; rfl
  have hpair : ∀ outcome : Outcome (Value × Value), Work.Ends (Compiling.ofOutcome outcome) asked
      fun _ after => after.calls = trace.calls ++ [.probe source] := fun outcome =>
    Work.ends_of_run (Compiling.run_ofOutcome outcome asked) hcalls
  refine (hpair _).bind (fun size between h => ?_) fun _ _ h => h
  exact Work.ends_of_run (Compiling.run_ofOutcome _ between) h

/-- The source of the first clip is probed if the output has its size, and otherwise
nothing is asked. -/
theorem calls_of_dimensions (first : Clip) (rest : List Clip) (resolution : Value)
    (trace : Trace) :
    Work.Ends (dimensions outside (first :: rest) resolution) trace fun _ after =>
      resolution = .text Resolution.ofSource ∧
          after.calls = trace.calls ++ [.probe first.source] ∨
        resolution ≠ .text Resolution.ofSource ∧ after.calls = trace.calls := by
  cases hsize : Resolution.dimensions? resolution with
  | error fault =>
    have hother : resolution ≠ .text Resolution.ofSource := fun h => by
      rw [Resolution.dimensions?_eq_none.mpr h] at hsize
      cases hsize
    exact Work.ends_bind_of_error (t := trace) (by rw [hsize]; rfl) (.inr ⟨hother, rfl⟩)
  | ok size =>
    refine Work.ends_bind_of_ok (t := trace) (a := size) (by rw [hsize]; rfl) ?_
    cases size with
    | none =>
      have hsource := Resolution.dimensions?_eq_none.mp hsize
      exact (calls_of_probeDimensions first.source trace).mono fun _ _ h => .inl ⟨hsource, h⟩
    | some size =>
      have hother : resolution ≠ .text Resolution.ofSource := fun h => by
        rw [Resolution.dimensions?_eq_none.mpr h] at hsize
        cases hsize
      exact Work.ends_of_run rfl (.inr ⟨hother, rfl⟩)

/-- Building a graph asks nothing. -/
theorem calls_of_buildNoted (main overlay : List Clip) (options : ExportOptions)
    (width height : Value) (trace : Trace) :
    Work.Ends (buildNoted main overlay options width height) trace fun _ after =>
      after.calls = trace.calls :=
  Work.ends_bind_of_ok (t := trace.leave _) rfl
    (Work.ends_of_run (Compiling.run_ofOutcome _ _) rfl)

/-- What a compilation of tracks asks: it looks the clips over, unless there are none on
the main track, and may then probe the first source. -/
inductive Questions (outside : Outside) (resolution : Value) :
    List Clip → List Clip → List OutsideCall → Prop
  /-- Without clips on the main track nothing is asked. -/
  | none (overlay : List Clip) : Questions outside resolution [] overlay []
  /-- All clips are looked over, up to the first one that does not pass. -/
  | looks (first : Clip) (rest overlay seen : List Clip)
      (looksOver : LooksOver outside (first :: rest ++ overlay) seen)
      (unprobed : ¬ ((∀ clip ∈ first :: rest ++ overlay, Passes outside clip) ∧
        resolution = .text Resolution.ofSource)) :
      Questions outside resolution (first :: rest) overlay (seen.map (.look ·.source))
  /-- When all clips have passed, the first source is probed for its size. -/
  | probes (first : Clip) (rest overlay : List Clip)
      (passed : ∀ clip ∈ first :: rest ++ overlay, Passes outside clip)
      (ofSource : resolution = .text Resolution.ofSource) :
      Questions outside resolution (first :: rest) overlay
        ((first :: rest ++ overlay).map (.look ·.source) ++ [.probe first.source])

/-- A compilation asks for the sources of the clips, the main track before the overlay
track and each in the order in which it is shown. It stops at the first clip whose
source is missing or which is not valid. The source of the first clip is probed exactly
when all clips have passed and the output has the size of that source; nothing else is
asked, and nothing at all if a clip has no track or no time to be ordered by. -/
theorem questions_of_run (outside : Outside) (footage : Footage) (options : ExportOptions)
    (trace : Trace) :
    Work.Ends (run outside footage options) trace fun outcome after =>
      (footage.Unarrangeable ∧ (∃ fault, outcome = .error fault) ∧ after.calls = trace.calls) ∨
      ∃ main overlay questions, footage.Arranged main overlay ∧
        Questions outside options.resolution main overlay questions ∧
        after.calls = trace.calls ++ questions := by
  cases htracks : footage.tracks with
  | error fault =>
    refine Work.ends_of_run (run_of_tracks_eq_error outside htracks options trace) (.inl ?_)
    exact ⟨Footage.unarrangeable_of_tracks htracks, ⟨fault, rfl⟩, rfl⟩
  | ok tracks =>
    obtain ⟨main, overlay⟩ := tracks
    suffices hasked : Work.Ends (run outside footage options) trace fun _ after =>
        ∃ questions, Questions outside options.resolution main overlay questions ∧
          after.calls = trace.calls ++ questions from
      hasked.mono fun _ _ ⟨questions, hquestions, hcalls⟩ =>
        .inr ⟨main, overlay, questions, Footage.arranged_of_tracks htracks, hquestions, hcalls⟩
    refine Work.ends_bind_of_ok (t := trace) (a := (main, overlay)) (by rw [htracks]; rfl) ?_
    cases main with
    | nil => exact Work.ends_bind_of_error rfl ⟨[], .none overlay, (List.append_nil _).symm⟩
    | cons first rest =>
      refine (ends_validateEach outside (first :: rest ++ overlay) trace).bind ?_ ?_
      · rintro _ between ⟨seen, hseen, hcalls, hall⟩
        have hpassed := hall.mp rfl
        have hwhole := hseen.continues fun clip hclip => hpassed clip (hseen.inOrder.subset hclip)
        subst hwhole
        have hasked (after : Trace)
            (h : options.resolution = .text Resolution.ofSource ∧
                after.calls = between.calls ++ [.probe first.source] ∨
              options.resolution ≠ .text Resolution.ofSource ∧ after.calls = between.calls) :
            ∃ questions, Questions outside options.resolution (first :: rest) overlay questions ∧
              after.calls = trace.calls ++ questions := by
          rcases h with ⟨hsource, hprobed⟩ | ⟨hfixed, hunprobed⟩
          · refine ⟨_, .probes first rest overlay hpassed hsource, ?_⟩
            rw [hprobed, hcalls, List.append_assoc]
          · refine ⟨_, .looks first rest overlay _ hseen fun h => hfixed h.2, ?_⟩
            rw [hunprobed, hcalls]
        refine (calls_of_dimensions first rest options.resolution between).bind ?_ ?_
        · exact fun size sized h => (calls_of_buildNoted _ _ options _ _ sized).mono
            fun _ after hafter => hasked after (by rwa [hafter])
        · exact fun _ after h => hasked after h
      · rintro fault after ⟨seen, hseen, hcalls, hall⟩
        refine ⟨_, .looks first rest overlay seen hseen fun h => ?_, hcalls⟩
        cases hall.mpr h.1

end Compile

end Montage
