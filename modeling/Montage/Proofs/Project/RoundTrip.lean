import Montage.Project.Document
import Montage.Proofs.Edit.Run
import Montage.Proofs.Timeline.Sorted

/-!
# Reading a project undoes writing it

Every part of a clip is read back as it was written: what a document leaves out
is what reading takes in its absence. The clips of both tracks are written one
after the other, so grouping them by track gives the tracks again; these are in
order and laid out, so neither sorting nor layout changes them.
-/

namespace Montage

/-! ## Parts of clips -/

/-- A source is read back as it was written, with or without dimensions. -/
theorem Source.ofValue_toValue (source : Source) : Source.ofValue source.toValue = .ok source := by
  obtain ⟨path, duration, width, height⟩ := source
  cases width <;> cases height <;> rfl

/-- An overlay is read back as it was written. -/
theorem Overlay.ofValue_toValue (overlay : Overlay) :
    Overlay.ofValue overlay.toValue = .ok overlay := rfl

namespace Clip

/-- Overlays are read back as they were written. -/
theorem overlaysOfValue_list (overlays : List Overlay) :
    overlaysOfValue (.list (overlays.map Overlay.toValue)) = .ok overlays := by
  have hread : (overlays.map Overlay.toValue).mapM Overlay.ofValue = .ok overlays := by
    induction overlays with
    | nil => rfl
    | cons overlay overlays ih =>
      rw [List.map_cons, List.mapM_cons, Overlay.ofValue_toValue, Outcome.ok_bind, ih,
        Outcome.ok_bind, Outcome.pure_eq_ok]
  cases overlays with
  | nil => rfl
  | cons overlay overlays => exact hread

/-- What stands for a filter in a clip that is read. -/
def HasFilter (clip : Clip) : Prop := clip.filter = .null ∨ clip.filter.truthy = true

/-- A clip is read back as it was written, if its filter is one. -/
theorem ofValue_toValue {clip : Clip} (h : clip.HasFilter) :
    Clip.ofValue clip.toValue = .ok clip := by
  have hfilter : (if clip.filter.truthy then clip.filter else .null) = clip.filter := by
    rcases h with hnull | htruthy
    · rw [hnull]
      rfl
    · rw [if_pos htruthy]
  have hsteps : Clip.ofValue clip.toValue =
      (Source.ofValue clip.source.toValue >>= fun source =>
        overlaysOfValue (.list (clip.overlays.map Overlay.toValue)) >>= fun overlays =>
          .ok { clip with
            source := source
            filter := if clip.filter.truthy then clip.filter else .null
            overlays := overlays }) := rfl
  rw [hsteps, Source.ofValue_toValue, Outcome.ok_bind, overlaysOfValue_list, Outcome.ok_bind,
    hfilter]

/-- A valid clip has a filter or none. -/
theorem hasFilter_of_validate {clip : Clip} (h : clip.validate = .ok ()) : clip.HasFilter := by
  obtain ⟨_, _, _, _, _, _, _, hnull | hknown⟩ := validate_eq_ok.mp h
  · left
    cases hf : clip.filter with
    | null => rfl
    | _ => simp [hf, Value.isNull] at hnull
  · right
    obtain ⟨name, hname, hequal⟩ := List.any_eq_true.mp hknown
    rw [Value.eq_text_of_equal hequal]
    have hnames : ∀ name ∈ videoFilters, (Value.text name).truthy = true := by decide
    exact hnames name hname

end Clip

/-! ## Timelines -/

namespace Timeline

variable {timeline : Timeline}

/-- A clip that is read joins the others of its track. -/
theorem group_cons {α : Type} {read : α → Outcome Clip} {item : α} {items : List α} {clip : Clip}
    {track : Track} {groups : Grouped} (hread : read item = .ok clip)
    (htrack : clip.track.equal track.toValue = true) (hrest : group read items = .ok groups) :
    group read (item :: items) = .ok (groups.push clip track) := by
  rw [group, hread, Outcome.ok_bind, Track.ofValue_eq_ok.mpr htrack, Outcome.ok_bind, hrest,
    Outcome.ok_bind, Outcome.pure_eq_ok]

/-- Clips of both tracks that were written one after the other are grouped as
they were, if they are read as they were written. -/
theorem group_map {α : Type} {read : α → Outcome Clip} {write : Clip → α}
    (on : ∀ track, ∀ clip ∈ timeline.on track, clip.track.equal track.toValue = true)
    (reads : ∀ clip ∈ timeline.clips, read (write clip) = .ok clip) :
    group read (timeline.clips.map write) = .ok ⟨timeline.main, timeline.overlay⟩ := by
  obtain ⟨main, overlay⟩ := timeline
  induction main with
  | nil =>
    induction overlay with
    | nil => rfl
    | cons clip clips ih =>
      have hrest := ih
        (fun track other hother => on track other (by
          cases track with
          | main => exact hother
          | overlay => exact List.mem_cons_of_mem _ hother))
        (fun other hother => reads other (List.mem_cons_of_mem _ hother))
      exact group_cons (reads clip List.mem_cons_self) (on .overlay clip List.mem_cons_self) hrest
  | cons clip clips ih =>
    have hrest := ih
      (fun track other hother => on track other (by
        cases track with
        | main => exact List.mem_cons_of_mem _ hother
        | overlay => exact hother))
      (fun other hother => reads other (List.mem_cons_of_mem _ hother))
    exact group_cons (reads clip List.mem_cons_self) (on .main clip List.mem_cons_self) hrest

/-- A timeline that was read is settled and passes the check. -/
theorem settled_checked_of_ofGrouped {groups : Grouped} (h : ofGrouped groups = .ok timeline) :
    timeline.Settled ∧ timeline.checkInvariants = .ok () := by
  simp only [ofGrouped, Outcome.bind_eq_ok, Outcome.pure_eq_ok] at h
  obtain ⟨sorted, _, main, hmain, sorted', _, overlay, hoverlay, _, checked, rfl⟩ := h
  refine ⟨?_, checked⟩
  rintro (_ | _)
  · exact layoutFrom_idem hmain
  · exact layoutFrom_idem hoverlay

/-- A document of a timeline holds clips that make it up. -/
theorem exists_grouped_of_ofValue {saved : Value} (h : ofValue saved = .ok timeline) :
    ∃ groups, ofGrouped groups = .ok timeline := by
  simp only [ofValue, ofClipValues, Outcome.bind_eq_ok] at h
  obtain ⟨_, _, _, _, groups, _, hgroups⟩ := h
  exact ⟨groups, hgroups⟩

/-- A checked and settled timeline is made of its grouped clips. -/
theorem ofGrouped_eq (checked : timeline.checkInvariants = .ok ()) (settled : timeline.Settled) :
    ofGrouped ⟨timeline.main, timeline.overlay⟩ = .ok timeline := by
  have hsort : ∀ track, sortOn Clip.startTime (timeline.on track) = .ok (timeline.on track) :=
    fun track => (settled.laidOut (hasMoments_of_checked checked) track).sortOn_eq
      fun clip hclip => (forall_on_of_checked checked track clip hclip).2.1
  have hmain : sortOn Clip.startTime timeline.main = .ok timeline.main := hsort .main
  have hoverlay : sortOn Clip.startTime timeline.overlay = .ok timeline.overlay := hsort .overlay
  have hmain' : layout timeline.main = .ok timeline.main := settled .main
  have hoverlay' : layout timeline.overlay = .ok timeline.overlay := settled .overlay
  simp only [ofGrouped, hmain, hoverlay, hmain', hoverlay', Outcome.ok_bind, checked,
    Outcome.pure_eq_ok]

/-- The clips of a checked and settled timeline are read back as that
timeline. -/
theorem ofClipValues_toValue (checked : timeline.checkInvariants = .ok ())
    (settled : timeline.Settled) :
    ofClipValues (timeline.clips.map Clip.toValue) = .ok timeline := by
  rw [ofClipValues, group_map (orderly_of_checked checked).tracks, Outcome.ok_bind,
    ofGrouped_eq checked settled]
  exact fun clip hclip =>
    Clip.ofValue_toValue (Clip.hasFilter_of_validate (validate_of_checked checked clip hclip))

/-- A document that holds nothing but the clips of a checked and settled timeline is read as
that timeline. -/
theorem ofValue_clips (checked : timeline.checkInvariants = .ok ()) (settled : timeline.Settled) :
    ofValue (.record [("timelineClips", timeline.toValue)]) = .ok timeline :=
  ofClipValues_toValue checked settled

/-- The clips of a checked and settled timeline make it up. -/
theorem ofClips_clips (checked : timeline.checkInvariants = .ok ())
    (settled : timeline.Settled) : ofClips timeline.clips = .ok timeline := by
  have hgroups : group .ok (timeline.clips.map id) = .ok ⟨timeline.main, timeline.overlay⟩ :=
    group_map (orderly_of_checked checked).tracks fun clip _ => rfl
  rw [List.map_id] at hgroups
  rw [ofClips, hgroups, Outcome.ok_bind, ofGrouped_eq checked settled]

end Timeline

/-! ## Projects -/

namespace Project

/-- A document that is accepted holds clips that make up the timeline. -/
theorem exists_grouped_of_ofValue {saved : Value} {project : Project} {notes : List Note}
    (h : ofValue saved = (.ok project, notes)) :
    ∃ groups, Timeline.ofGrouped groups = .ok project.timeline := by
  unfold ofValue at h
  split at h
  · next version _ =>
    have hread : ofVersion saved version = .ok project := congrArg Prod.fst h
    simp only [ofVersion, Outcome.bind_eq_ok, Outcome.pure_eq_ok] at hread
    obtain ⟨timeline, hvalid, _, _, rfl⟩ := hread
    have htimeline : Timeline.ofValue saved = .ok timeline := by
      unfold asInvalid at hvalid
      split at hvalid
      · next other hother => rw [hother, hvalid]
      · split at hvalid <;> cases hvalid
    exact Timeline.exists_grouped_of_ofValue htimeline
  · cases congrArg Prod.fst h

/-- Entries of a library are read back as they were written. -/
theorem entriesOf_list (library : List Value) : entriesOf (.list library) = .ok library := by
  cases library <;> rfl

/-- A record that begins with the fields of a project is read as this project,
whatever else it holds. -/
theorem ofValue_fieldsOf_append {timeline : Timeline}
    (checked : timeline.checkInvariants = .ok ()) (settled : timeline.Settled)
    (library : List Value) (others : List (Text × Value)) :
    ofValue (.record (fieldsOf timeline library ++ others)) =
      (.ok ⟨timeline, library, .text projectVersion⟩, []) := by
  have hversion : versionOf (.record (fieldsOf timeline library ++ others)) =
      .ok (.text projectVersion) := rfl
  have htimeline : Timeline.ofValue (.record (fieldsOf timeline library ++ others)) =
      .ok timeline := Timeline.ofClipValues_toValue checked settled
  have hlibrary : libraryOf (.record (fieldsOf timeline library ++ others)) = .ok library :=
    entriesOf_list library
  have hnotes : versionNotes (.text projectVersion) = [] := rfl
  have hread : ofVersion (.record (fieldsOf timeline library ++ others)) (.text projectVersion) =
      .ok ⟨timeline, library, .text projectVersion⟩ := by
    rw [ofVersion, htimeline, asInvalid, Outcome.ok_bind, hlibrary, Outcome.ok_bind,
      Outcome.pure_eq_ok]
  simp only [ofValue, hversion, hread, hnotes]

/-- Reading a project undoes writing it. Every checked timeline that layout
leaves as it is comes back from its document with the library, also from that of
a project file, which holds the time as well. This is what a document that is
accepted holds, so writing and reading it again changes nothing more; and edits
with fresh names lead to timelines that layout leaves as they are. -/
theorem ofValue_document :
    (∀ {timeline : Timeline}, timeline.checkInvariants = .ok () → timeline.Settled →
      ∀ (library : List Value) (savedAt : Value),
        ofValue (document timeline library) =
            (.ok ⟨timeline, library, .text projectVersion⟩, []) ∧
          ofValue (.record (Value.put (fieldsOf timeline library) "saved_at" savedAt)) =
            (.ok ⟨timeline, library, .text projectVersion⟩, [])) ∧
      (∀ {saved : Value} {project : Project} {notes : List Note},
        ofValue saved = (.ok project, notes) →
          project.timeline.checkInvariants = .ok () ∧ project.timeline.Settled ∧
            ofValue (document project.timeline project.library) =
              (.ok { project with version := .text projectVersion }, [])) ∧
      ∀ {timeline result : Timeline}, timeline.checkInvariants = .ok () → timeline.Settled →
        Edit.Run Edit.Fresh timeline result → result.Settled := by
  have hplain : ∀ {timeline : Timeline}, timeline.checkInvariants = .ok () → timeline.Settled →
      ∀ library, ofValue (document timeline library) =
        (.ok ⟨timeline, library, .text projectVersion⟩, []) :=
    fun checked settled library => ofValue_fieldsOf_append checked settled library []
  refine ⟨?_, ?_, ?_⟩
  · intro timeline checked settled library savedAt
    exact ⟨hplain checked settled library,
      ofValue_fieldsOf_append checked settled library [("saved_at", savedAt)]⟩
  · intro saved project notes h
    obtain ⟨groups, hgroups⟩ := exists_grouped_of_ofValue h
    obtain ⟨settled, checked⟩ := Timeline.settled_checked_of_ofGrouped hgroups
    exact ⟨checked, settled, hplain checked settled project.library⟩
  · intro timeline result checked settled run
    exact (run.orderly_settled (Timeline.orderly_of_checked checked) settled).2

/-- Saving and loading keeps a pair of clips. -/
theorem ofValue_document_pair :
    ofValue (document Edit.pair [.text "a.mp4"]) =
      (.ok ⟨Edit.pair, [.text "a.mp4"], .text projectVersion⟩, []) :=
  (ofValue_document.1 Edit.pair_checked Edit.pair_wellFormed.settled [.text "a.mp4"] .null).1

end Project

end Montage
