import Montage.Proofs.Edit.Valid
import Montage.Proofs.Graph.Compiled
import Montage.Proofs.Project.Loading

/-!
# Projects with valid clips

A project whose clips are valid is never turned down for one of them: neither when
its document is read nor when the clips are looked over before an export. What
edits of moderate size lead to is such a project. A cut far into a source of more
than five hundred years is not: there a half of a clip can be too short.
-/

namespace Montage

open Outcome

/-- Whether something is turned down because the window or the filter of a clip is
not valid. -/
def Rejection.isInvalidClip : Rejection → Bool
  | .trimNotNumeric _ => true
  | .emptyWindow _ => true
  | .beforeSource _ _ => true
  | .noSourceDuration _ => true
  | .afterSource _ _ _ => true
  | .windowTooShort _ => true
  | .clipFilterUnknown _ _ => true
  | _ => false

/-- The fault does not say that a clip is not valid. -/
def Fault.SparesClips : Fault → Prop
  | .rejected why => why.isInvalidClip = false
  | _ => True

/-- What is turned down for another reason spares clips. -/
theorem Fault.sparesClips_rejected {why : Rejection} (h : why.isInvalidClip = false) :
    Fault.SparesClips (.rejected why) := h

/-! ## Reading a document -/

namespace Timeline

variable {timeline : Timeline}

/-- Checking a track of valid clips turns none of them down. -/
theorem sparesClips_checkTrack (track : Track) (seen : List Value) (start : Value)
    {clips : List Clip} (valid : ∀ clip ∈ clips, clip.validate = .ok ()) :
    Faults Fault.SparesClips (checkTrack track seen start clips) := by
  induction clips generalizing seen start with
  | nil => exact faults_ok seen
  | cons clip clips ih =>
    refine (Value.faults_checkKey fun _ => trivial).bind fun _ _ => ?_
    refine (faults_rejectIf (Fault.sparesClips_rejected rfl) _).bind fun _ _ => ?_
    refine (faults_rejectIf (Fault.sparesClips_rejected rfl) _).bind fun _ _ => ?_
    rw [valid clip List.mem_cons_self, ok_bind]
    refine (faults_rejectIf (Fault.sparesClips_rejected rfl) _).bind fun _ _ => ?_
    refine (Value.faults_hasRepeats fun _ => trivial).bind fun _ _ => ?_
    refine (faults_rejectIf (Fault.sparesClips_rejected rfl) _).bind fun _ _ => ?_
    refine Faults.bind ?_ fun _ _ => ih _ _ fun other hother =>
      valid other (List.mem_cons_of_mem clip hother)
    exact (Clip.faults_duration trivial fun _ => trivial).bind fun _ _ =>
      Value.faults_add (fun _ => trivial) (fun _ _ => .inr trivial) (.inr trivial)

/-- Grouped clips that are valid are made into a timeline, or none of them is turned
down. -/
theorem sparesClips_ofGrouped {groups : Grouped}
    (valid : ∀ clip ∈ groups.clips, clip.validate = .ok ()) :
    Faults Fault.SparesClips (ofGrouped groups) := by
  have hlaid {clips sorted laid : List Clip} (hclips : ∀ clip ∈ clips, clip ∈ groups.clips)
      (hsorted : sortOn Clip.startTime clips = .ok sorted) (hlaid : layout sorted = .ok laid) :
      ∀ clip ∈ laid, clip.validate = .ok () := by
    refine Clip.forall_of_unplaced (P := fun clip => clip.validate = .ok ()) (fun _ => Iff.rfl)
      (layoutFrom_unplaced hlaid) ?_
    exact fun clip hclip => valid clip (hclips clip ((perm_of_sortOn hsorted).subset hclip))
  refine (faults_sortOn trivial _ _).bind fun sorted hsorted => ?_
  refine (faults_layoutFrom trivial (fun _ => trivial) 0).bind fun main hmain => ?_
  refine (faults_sortOn trivial _ _).bind fun sorted' hsorted' => ?_
  refine (faults_layoutFrom trivial (fun _ => trivial) 0).bind fun overlay hoverlay => ?_
  refine Faults.bind (Faults.bind ?_ fun seen _ => Faults.bind ?_ fun _ _ => faults_pure _)
    fun _ _ => faults_pure _
  · exact sparesClips_checkTrack _ _ _ (hlaid (fun _ => List.mem_append_left _) hsorted hmain)
  · exact sparesClips_checkTrack _ _ _
      (hlaid (fun _ => List.mem_append_right _) hsorted' hoverlay)

/-- Clips that are valid and have been written are read, or none of them is turned
down. -/
theorem Valid.sparesClips_ofClipValues (valid : timeline.Valid) :
    Faults Fault.SparesClips (ofClipValues (timeline.clips.map Clip.toValue)) := by
  have hread : ∀ item ∈ timeline.clips.map Clip.toValue, ∃ clip ∈ timeline.clips,
      Clip.ofValue item = .ok clip := by
    intro item hitem
    obtain ⟨clip, hclip, rfl⟩ := List.mem_map.mp hitem
    exact ⟨clip, hclip, Clip.ofValue_toValue (Clip.hasFilter_of_validate (valid clip hclip))⟩
  refine Faults.bind ?_ fun groups hgroups => sparesClips_ofGrouped fun clip hclip => ?_
  · refine Timeline.faults_group (fun _ => rfl) fun item hitem => ?_
    obtain ⟨clip, _, hclip⟩ := hread item hitem
    rw [hclip]
    exact faults_ok clip
  · obtain ⟨item, hitem, hclip⟩ := exists_read_of_group hgroups clip hclip
    obtain ⟨other, hother, hread⟩ := hread item hitem
    cases hclip.symm.trans hread
    exact valid clip hother

end Timeline

/-- A document of valid clips is read, or none of them is turned down, whatever else
the document holds. -/
theorem Project.sparesClips_ofValue {timeline : Timeline} (valid : timeline.Valid)
    (library : List Value) (others : List (Text × Value)) :
    Faults Fault.SparesClips (ofValue (.record (fieldsOf timeline library ++ others))).1 := by
  have hversion : versionOf (.record (fieldsOf timeline library ++ others)) =
      .ok (.text projectVersion) := rfl
  have hlibrary : libraryOf (.record (fieldsOf timeline library ++ others)) = .ok library :=
    entriesOf_list library
  have htimeline : Timeline.ofValue (.record (fieldsOf timeline library ++ others)) =
      Timeline.ofClipValues (timeline.clips.map Clip.toValue) := rfl
  simp only [ofValue, hversion, ofVersion, hlibrary, htimeline]
  refine Faults.bind ?_ fun _ _ => faults_pure _
  have hspared := valid.sparesClips_ofClipValues
  cases hread : Timeline.ofClipValues (timeline.clips.map Clip.toValue) with
  | ok read => exact faults_ok read
  | error fault =>
    have hfault := hspared fault hread
    cases fault with
    | missingField name => exact faults_error trivial
    | illTyped => exact faults_error trivial
    | _ => exact faults_error hfault

/-- A file with such a document is loaded, or no clip is turned down. -/
theorem Project.sparesClips_load {timeline : Timeline} (valid : timeline.Valid)
    {library : List Value} {others : List (Text × Value)} {disk : Disk} {path text : Text}
    (there : disk.find? path = some (.file text))
    (read : Json.read text = .ok (.record (fieldsOf timeline library ++ others))) :
    Faults Fault.SparesClips (load disk (.text path)).result.1 := by
  have hdocument : documentOfText text = .ok (.record (fieldsOf timeline library ++ others)) := by
    rw [documentOfText, Json.readOr, read]
    rfl
  rw [load_result there, hdocument]
  exact sparesClips_ofValue valid library others

/-! ## Looking over the clips before an export -/

namespace Footage

/-- The clips that are shown. -/
def shown : Footage → List Clip
  | .timeline whole => whole.clips
  | .clips loose => loose

/-- The entries that are put in order hold the clips. -/
theorem items_of_entries {clips : List Clip} {entries : List (Keyed Clip)}
    (h : (clips.mapM fun clip => do return (⟨← orderKey clip, clip⟩ : Keyed Clip)) = .ok entries) :
    entries.map Keyed.item = clips := by
  induction clips generalizing entries with
  | nil =>
    cases h
    rfl
  | cons clip clips ih =>
    simp only [List.mapM_cons, bind_eq_ok, pure_eq_ok] at h
    obtain ⟨_, ⟨key, _, rfl⟩, rest, hrest, rfl⟩ := h
    rw [List.map_cons, ih hrest]

/-- What a clip is ordered by stands on the number line. -/
theorem exists_place_of_orderKey {clip : Clip} {key : Value} (h : orderKey clip = .ok key) :
    ∃ n p, key = .number n ∧ n.place? = some p := by
  obtain ⟨finite, hfinite, hkey⟩ := bind_eq_ok.mp h
  cases finite with
  | true =>
    cases hkey
    obtain ⟨n, units, hn, hplace⟩ := Value.isFinite_eq_true hfinite
    exact ⟨n, _, hn, hplace⟩
  | false =>
    cases hkey
    exact ⟨_, _, rfl, Number.place?_real_zero⟩

/-- Clips that are put in order are those that were given. -/
theorem perm_of_inOrder {clips sorted : List Clip} (h : inOrder clips = .ok sorted) :
    sorted.Perm clips := by
  obtain ⟨entries, hentries, h⟩ := bind_eq_ok.mp h
  obtain ⟨keyed, hkeyed, h⟩ := bind_eq_ok.mp h
  cases h
  have hperm := (Keyed.perm_of_sort hkeyed).map Keyed.item
  rwa [items_of_entries hentries] at hperm

/-- The clips on the tracks are among those that are shown. -/
theorem mem_shown_of_tracks {footage : Footage} {main overlay : List Clip}
    (h : footage.tracks = .ok (main, overlay)) :
    ∀ clip ∈ main ++ overlay, clip ∈ footage.shown := by
  cases footage with
  | timeline whole =>
    cases h
    exact fun _ => id
  | clips loose =>
    obtain ⟨_, _, h⟩ := bind_eq_ok.mp h
    split at h
    · cases h
    · obtain ⟨_, hmain, h⟩ := bind_eq_ok.mp h
      obtain ⟨_, hoverlay, h⟩ := bind_eq_ok.mp h
      cases h
      intro clip hclip
      rcases List.mem_append.mp hclip with hclip | hclip
      · exact List.mem_of_mem_filter ((perm_of_inOrder hmain).subset hclip)
      · exact List.mem_of_mem_filter ((perm_of_inOrder hoverlay).subset hclip)

variable {P : Fault → Prop}

/-- Clips are put in order unless a start time is too large to be judged. -/
theorem faults_inOrder {clips : List Clip}
    (large : ∀ clip ∈ clips, clip.startTime.IsHuge → P .tooLarge) : Faults P (inOrder clips) := by
  have hplaced : ∀ clip ∈ clips, Returns (fun entry : Keyed Clip => entry.place?.isSome = true)
      (do return (⟨← orderKey clip, clip⟩ : Keyed Clip)) := by
    intro clip _
    refine Returns.bind (fun _ => exists_place_of_orderKey) ?_
    rintro key ⟨n, p, rfl, hplace⟩
    exact returns_pure (Option.isSome_iff_exists.mpr ⟨p, hplace⟩)
  refine (faults_mapM fun clip hclip => ?_).bind fun entries hentries => ?_
  · refine Faults.bind ?_ fun key _ => faults_pure _
    exact (Value.faults_isFinite (large clip hclip)).bind fun _ _ =>
      faults_ite (fun _ => faults_pure _) fun _ => faults_pure _
  · have hall : (entries.all fun entry => entry.place?.isSome) = true :=
      List.all_eq_true.mpr (returns_mapM hplaced entries hentries)
    rw [Keyed.sort, if_pos hall]
    exact faults_ok _

/-- Footage is put on its tracks unless a track is unknown or cannot name anything,
or a start time is too large to be judged. -/
theorem faults_tracks {footage : Footage} (unknown : ∀ track, P (.rejected (.unknownTrack track)))
    (kind : ∀ clip ∈ footage.shown, clip.track.isKey = false → P .illTyped)
    (large : ∀ clip ∈ footage.shown, clip.startTime.IsHuge → P .tooLarge) :
    Faults P footage.tracks := by
  cases footage with
  | timeline whole => exact faults_ok _
  | clips loose =>
    have horder (track : Track) : Faults P (inOrder (clipsOn track loose)) :=
      faults_inOrder fun clip hclip => large clip (List.mem_of_mem_filter hclip)
    refine Faults.bind ?_ fun _ _ => ?_
    · clear horder large
      induction loose with
      | nil => exact faults_ok _
      | cons clip clips ih =>
        rw [List.forIn_cons]
        refine Faults.bind ?_ fun step hstep => ?_
        · refine Faults.bind ?_ fun _ _ => faults_pure _
          refine faults_ite (fun _ => faults_ok _) fun hkey => faults_error ?_
          exact kind clip List.mem_cons_self (Bool.eq_false_iff.mpr hkey)
        · obtain ⟨_, _, h⟩ := bind_eq_ok.mp hstep
          cases h
          exact ih fun other hother => kind other (List.mem_cons_of_mem clip hother)
    · split
      · exact faults_error (unknown _)
      · exact (horder _).bind fun _ _ => (horder _).bind fun _ _ => faults_pure _

/-- Footage is put on its tracks, or none of its clips is turned down. -/
theorem sparesClips_tracks (footage : Footage) : Faults Fault.SparesClips footage.tracks :=
  faults_tracks (fun _ => rfl) (fun _ _ _ => trivial) fun _ _ _ => trivial

end Footage

namespace Compile

variable {outside : Outside}

/-- The fault says that there is nothing to show or that the source of a clip is
missing, or it comes from looking for the source. -/
def IsLookupFault (outside : Outside) (clips : List Clip) (fault : Fault) : Prop :=
  fault = .rejected .nothingToExport ∨ ∃ clip ∈ clips,
    fault = .rejected (.sourceMissing clip.id clip.source.path) ∨
      outside.sourceExists clip.source = .error fault

/-- A fault over some clips is one over more clips. -/
theorem IsLookupFault.subset {clips others : List Clip} {fault : Fault}
    (h : IsLookupFault outside clips fault) (hsub : ∀ clip ∈ clips, clip ∈ others) :
    IsLookupFault outside others fault := by
  rcases h with hnone | ⟨clip, hclip, hfault⟩
  · exact .inl hnone
  · exact .inr ⟨clip, hsub clip hclip, hfault⟩

/-- Looking over valid clips fails only over their sources. -/
theorem isLookupFault_of_validateEach {clips : List Clip}
    (valid : ∀ clip ∈ clips, clip.validate = .ok ()) (trace : Trace) :
    Faults (IsLookupFault outside clips) ((validateEach outside clips).run.run trace).1 := by
  induction clips generalizing trace with
  | nil => exact faults_ok ()
  | cons clip clips ih =>
    have hrecord : (Compiling.record (.look clip.source)).run.run trace =
        (.ok (), trace.record (.look clip.source)) := rfl
    rw [validateEach, Work.run_bind_of_ok hrecord]
    cases hfound : outside.sourceExists clip.source with
    | error fault =>
      rw [Work.run_bind_of_error (Compiling.run_ofOutcome _ _)]
      exact faults_error (.inr ⟨clip, List.mem_cons_self, .inr hfound⟩)
    | ok found =>
      rw [Work.run_bind_of_ok (Compiling.run_ofOutcome _ _)]
      cases found with
      | false => exact faults_error (.inr ⟨clip, List.mem_cons_self, .inl rfl⟩)
      | true =>
        rw [if_pos rfl, valid clip List.mem_cons_self,
          Work.run_bind_of_ok (Compiling.run_ofOutcome _ _)]
        refine (ih (fun other hother => valid other (List.mem_cons_of_mem clip hother)) _).mono ?_
        exact fun _ h => h.subset fun _ => List.mem_cons_of_mem clip

/-- Looking over the tracks of valid footage fails only over sources or because there
is nothing to show. -/
theorem isLookupFault_of_validate {footage : Footage} {main overlay : List Clip}
    (valid : ∀ clip ∈ footage.shown, clip.validate = .ok ())
    (h : footage.tracks = .ok (main, overlay)) (trace : Trace) :
    Faults (IsLookupFault outside footage.shown)
      ((validate outside main overlay).run.run trace).1 := by
  have hmem := Footage.mem_shown_of_tracks h
  unfold validate
  split
  · exact faults_error (.inl rfl)
  · refine (isLookupFault_of_validateEach (fun clip hclip => valid clip (hmem clip hclip))
      trace).mono ?_
    exact fun _ h => h.subset hmem

end Compile

/-! ## Edited projects -/

/-- No clip of the timeline is turned down: not when a document of it is read, not
when a file with such a document is loaded, and not before an export of its clips in
any form. -/
structure Timeline.IsSpared (timeline : Timeline) : Prop where
  /-- Reading a document. -/
  read : ∀ (library : List Value) (others : List (Text × Value)), Faults Fault.SparesClips
    (Project.ofValue (.record (Project.fieldsOf timeline library ++ others))).1
  /-- Loading a file. -/
  loaded : ∀ (library : List Value) (others : List (Text × Value)) (disk : Disk)
    (path text : Text), disk.find? path = some (.file text) →
    Json.read text = .ok (.record (Project.fieldsOf timeline library ++ others)) →
    Faults Fault.SparesClips (Project.load disk (.text path)).result.1
  /-- Looking over the clips. -/
  shown : ∀ footage : Footage, footage.shown = timeline.clips →
    Faults Fault.SparesClips footage.tracks ∧
      ∀ (outside : Outside) (main overlay : List Clip) (trace : Trace),
        footage.tracks = .ok (main, overlay) → Faults
          (Compile.IsLookupFault outside timeline.clips)
          ((Compile.validate outside main overlay).run.run trace).1

/-- If all clips of a timeline are valid, none of them is turned down. -/
theorem Timeline.Valid.isSpared {timeline : Timeline} (valid : timeline.Valid) :
    timeline.IsSpared where
  read := Project.sparesClips_ofValue valid
  loaded _ _ _ _ _ there read := Project.sparesClips_load valid there read
  shown footage hshown := by
    refine ⟨footage.sparesClips_tracks, fun outside main overlay trace htracks => ?_⟩
    rw [← hshown]
    refine Compile.isLookupFault_of_validate ?_ htracks trace
    rwa [hshown]

namespace Edit

/-- An edit of a checked timeline leaves all clips valid exactly if it is sound: what
is inserted or trimmed ends within its source, and both halves of what is split are
long enough. Edits of moderate size are sound as long as no source lasts longer than
about 68 years, along every run of such edits. No clip of a timeline that runs of
sound edits lead to is turned down by a project that is read or loaded, or before an
export. -/
theorem valid_of_run {start : Timeline} (checked : start.checkInvariants = .ok ()) :
    (∀ (edit : Edit) (result : Timeline), edit.apply start = .ok result →
      (result.Valid ↔ edit.Sound start) ∧
        (start.Moderate → edit.Moderate → result.Valid ∧ result.IsSpared)) ∧
    (start.Moderate → ∀ timeline,
      Run (fun edit timeline => edit.Fresh timeline ∧ edit.Moderate) start timeline →
        timeline.Valid ∧ timeline.IsSpared) ∧
    ∀ timeline,
      Run (fun edit timeline => edit.Fresh timeline ∧ edit.Sound timeline) start timeline →
        timeline.Valid ∧ timeline.IsSpared := by
  have orderly := Timeline.orderly_of_checked checked
  have valid := Timeline.valid_of_checked checked
  refine ⟨?_, ?_, ?_⟩
  · intro edit result h
    refine ⟨valid_iff_sound orderly valid h, fun moderate small => ?_⟩
    obtain ⟨hvalid, _⟩ := valid_moderate_of_apply orderly valid moderate small h
    exact ⟨hvalid, hvalid.isSpared⟩
  · intro moderate timeline run
    obtain ⟨_, hvalid, _⟩ := run.orderly_valid_moderate orderly valid moderate
    exact ⟨hvalid, hvalid.isSpared⟩
  · intro timeline run
    obtain ⟨_, hvalid⟩ := run.orderly_valid orderly valid
    exact ⟨hvalid, hvalid.isSpared⟩

/-- After the first clip of a pair is split and its second half trimmed, all clips are
valid and none of them is turned down. -/
theorem valid_of_split_pair : ∃ halves result,
    (Edit.split (.text "a") (.int 1) (.text "c") (.text "d")).apply pair = .ok halves ∧
    (Edit.trim (.text "d") .null (.int 3)).apply halves = .ok result ∧
    result.Valid ∧ result.IsSpared := by
  have moderate : pair.Moderate := by decide +kernel
  obtain ⟨halves, hhalves⟩ : ∃ halves,
      (Edit.split (.text "a") (.int 1) (.text "c") (.text "d")).apply pair = .ok halves :=
    Outcome.exists_of_isOk (by decide +kernel)
  have happlied : ((Edit.split (.text "a") (.int 1) (.text "c") (.text "d")).apply pair >>=
      (Edit.trim (.text "d") .null (.int 3)).apply).isOk = true := by decide +kernel
  rw [hhalves, ok_bind] at happlied
  obtain ⟨result, hresult⟩ := Outcome.exists_of_isOk happlied
  have hfresh : (Edit.split (.text "a") (.int 1) (.text "c") (.text "d")).Fresh pair := by
    decide +kernel
  have hfresh' : (Edit.trim (.text "d") .null (.int 3)).Fresh halves := by
    simp [Fresh, newIds]
  have run : Run (fun edit timeline => edit.Fresh timeline ∧ edit.Moderate) pair result :=
    (Run.start.step ⟨hfresh, trivial⟩ hhalves).step ⟨hfresh', trivial⟩ hresult
  obtain ⟨_, hruns, _⟩ := valid_of_run pair_checked
  exact ⟨halves, result, hhalves, hresult, hruns moderate result run⟩

/-- One second of a source that lasts longer than five hundred years. -/
def distantClip : Clip :=
  .plain (.text "a") ⟨.text "a.mp4", .real (.ofNat (2 ^ 34 + 1)), .null, .null⟩
    (.real (.ofNat (2 ^ 34))) (.real (.ofNat (2 ^ 34 + 1))) (.int 0)

/-- The second on the main track. -/
def distant : Timeline := ⟨[distantClip], []⟩

/-- A cut as near to its beginning as cuts may be. -/
def distantSplit : Edit :=
  .split (.text "a") (.real minClipDuration) (.text "b") (.text "c")

/-- Whether an operation turns a clip down. -/
def turnsClipDown {α : Type} : Outcome α → Bool
  | .error (.rejected why) => why.isInvalidClip
  | _ => false

/-- A source whose length is an integer that is no double. -/
def oddSource : Source := ⟨.text "a.mp4", .int (2 ^ 53 + 1), .null, .null⟩

/-- The insertion of the whole source. -/
def oddInsert : Edit := .insert (.int 0) oddSource (.int (2 ^ 53 + 1)) .null (.text "a")

/-- A timeline with a clip that is turned down is not valid. -/
theorem not_valid_of_any {timeline : Timeline}
    (h : timeline.clips.any (fun clip => turnsClipDown clip.validate) = true) :
    ¬ timeline.Valid := by
  obtain ⟨clip, hclip, hdown⟩ := List.any_eq_true.mp h
  intro valid
  rw [valid clip hclip] at hdown
  cases hdown

/-- Doubles are too far apart that late in a source: a cut leaves a half that is too
short to be valid, and the project is turned down for it before an export. The double
nearest to the length of a source may lie before its end: a clip of the whole source
ends behind it then, and its project cannot be read. -/
theorem not_valid_of_distantSplit :
    (distant.checkInvariants = .ok () ∧ distantSplit.Fresh distant ∧
      ∃ result, distantSplit.apply distant = .ok result ∧ ¬ result.Valid ∧
        turnsClipDown ((Compile.validate Compile.everywhere result.main
          result.overlay).run.run Trace.empty).1 = true) ∧
    (Timeline.checkInvariants ⟨[], []⟩ = .ok () ∧ oddInsert.Fresh ⟨[], []⟩ ∧
      ∃ result, oddInsert.apply ⟨[], []⟩ = .ok result ∧ ¬ result.Valid ∧
        turnsClipDown (Project.ofValue (Project.document result [])).1 = true) := by
  refine ⟨⟨Outcome.eq_ok_of_isOk (by decide +kernel), by decide +kernel, ?_⟩,
    rfl, by decide +kernel, ?_⟩
  · have hsplit : (distantSplit.apply distant).toOption.any (fun result =>
        result.clips.any (fun clip => turnsClipDown clip.validate) &&
          turnsClipDown ((Compile.validate Compile.everywhere result.main
            result.overlay).run.run Trace.empty).1) = true := by decide +kernel
    obtain ⟨result, h, hseen⟩ := Outcome.exists_of_any hsplit
    rw [Bool.and_eq_true] at hseen
    exact ⟨result, h, not_valid_of_any hseen.1, hseen.2⟩
  · have hinsert : (oddInsert.apply ⟨[], []⟩).toOption.any (fun result =>
        result.clips.any (fun clip => turnsClipDown clip.validate) &&
          turnsClipDown (Project.ofValue (Project.document result [])).1) = true := by
      decide +kernel
    obtain ⟨result, h, hseen⟩ := Outcome.exists_of_any hinsert
    rw [Bool.and_eq_true] at hseen
    exact ⟨result, h, not_valid_of_any hseen.1, hseen.2⟩

end Edit

end Montage
