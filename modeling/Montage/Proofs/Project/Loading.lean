import Montage.Project.File
import Montage.Proofs.Timeline.Faults
import Montage.Proofs.Work

/-!
# Loading a project file

Whatever a file holds, loading it gives a project that passes the check or turns
it down, but for four kinds of contents: a document that is nested too deep, a
position or size that is neither empty nor a record, a trim point or a source
duration that is an integer beyond the doubles, and a library without entries
to go through.
-/

namespace Montage

open Outcome

/-- Whether a fault says that something is not acceptable: it was turned down, is
not valid or cannot be read. -/
def Fault.isRefusal : Fault → Bool
  | .rejected _ => true
  | .invalid _ => true
  | .unreadable _ => true
  | _ => false

namespace Project

/-- The text of a file is a document with the clip document on its timeline. -/
def HoldsClip (text : Text) (item : Value) : Prop :=
  ∃ document clips items, Json.read text = .ok document ∧
    document.HasPart "timelineClips" clips ∧ clips.elements = .ok items ∧ item ∈ items

/-- The other faults that loading a text can end in, each with what the text
holds then. -/
inductive Escapes (text : Text) : Fault → Prop
  /-- The document is nested too deep. -/
  | nested {innermost : Container} (read : Json.read text = .error (.tooDeep innermost)) :
      Escapes text (.tooDeep innermost)
  /-- A position or a size is neither empty nor a record. -/
  | misplaced {item : Value} (holds : HoldsClip text item)
      (misplaced : Clip.IsMisplacedIn item) : Escapes text .noMembers
  /-- A trim point or a source duration is an integer of huge magnitude. -/
  | oversized {item : Value} {clip : Clip} (holds : HoldsClip text item)
      (read : Clip.ofValue item = .ok clip) (oversized : clip.IsOversized) :
      Escapes text .tooLarge
  /-- The library is neither empty nor something to go through. -/
  | library {document library : Value} (read : Json.read text = .ok document)
      (part : document.HasPart "libraryClips" library)
      (unlisted : library.elements = .error .illTyped) : Escapes text .illTyped

/-- Loading a text ends in faults that turn it down or escape. -/
def LoadingFault (text : Text) (fault : Fault) : Prop := fault.isRefusal = true ∨ Escapes text fault

variable {text : Text} {fields : List (Text × Value)}

/-- A document is found in the text of a file or the text is turned down, unless
it is nested too deep. -/
theorem faults_documentOfText (text : Text) : Faults (LoadingFault text) (documentOfText text) := by
  refine Faults.bind ?_ fun document _ => ?_
  · unfold Json.readOr
    cases hread : Json.read text with
    | ok document => exact faults_ok document
    | error failure =>
      refine faults_error ?_
      cases failure with
      | malformed => exact .inl rfl
      | numeralTooLong digits => exact .inl rfl
      | tooDeep innermost => exact .inr (.nested hread)
  · split
    · exact faults_ok _
    · exact faults_error (.inl rfl)

/-- The document that is found in a text is a record. -/
theorem exists_record_of_documentOfText {document : Value}
    (h : documentOfText text = .ok document) :
    ∃ fields, document = .record fields ∧ Json.read text = .ok (.record fields) := by
  obtain ⟨found, hfound, h⟩ := bind_eq_ok.mp h
  split at h
  · next fields =>
    cases h
    refine ⟨fields, rfl, ?_⟩
    unfold Json.readOr at hfound
    cases hread : Json.read text with
    | error failure =>
      rw [hread] at hfound
      cases hfound
    | ok document =>
      rw [hread] at hfound
      cases hfound
      rfl
  · cases h

/-- The clips that a timeline is read from stand in the document. -/
theorem holdsClip_of_lookup (hread : Json.read text = .ok (.record fields)) {clips item : Value}
    {items : List Value}
    (hclips : (Value.record fields).lookup "timelineClips" (.list []) = .ok clips)
    (hitems : clips.elements = .ok items) (hitem : item ∈ items) : HoldsClip text item := by
  cases hfind : Value.find? fields "timelineClips" with
  | some found =>
    simp only [Value.lookup, hfind, Option.getD_some, Except.ok.injEq] at hclips
    exact ⟨_, clips, items, hread, ⟨fields, rfl, hclips ▸ hfind⟩, hitems, hitem⟩
  | none =>
    simp only [Value.lookup, hfind, Option.getD_none, Except.ok.injEq] at hclips
    subst hclips
    cases hitems
    cases hitem

/-- A timeline is read from a document or the document is turned down, unless a
clip is misplaced or oversized. -/
theorem faults_asInvalid_ofValue (hread : Json.read text = .ok (.record fields)) :
    Faults (LoadingFault text) (asInvalid (Timeline.ofValue (.record fields))) := by
  have hplain : ∀ fault : Fault, fault.IsPlain →
      Faults (LoadingFault text) (asInvalid (.error fault : Outcome Timeline)) := by
    intro fault h
    cases fault with
    | rejected why => exact faults_error (.inl rfl)
    | missingField name => exact faults_error (.inl rfl)
    | illTyped => exact faults_error (.inl rfl)
    | _ => exact absurd h id
  cases hvalue : Timeline.ofValue (.record fields) with
  | ok timeline => exact faults_ok timeline
  | error fault =>
    obtain ⟨clips, hclips⟩ : ∃ clips,
        (Value.record fields).lookup "timelineClips" (.list []) = .ok clips := ⟨_, rfl⟩
    rw [Timeline.ofValue, hclips, ok_bind] at hvalue
    cases hitems : clips.elements with
    | error earlier =>
      rw [hitems] at hvalue
      cases hvalue
      exact hplain fault (clips.faults_elements fault hitems)
    | ok items =>
      rw [hitems, ok_bind] at hvalue
      rcases Timeline.faults_ofClipValues items fault hvalue with
        h | ⟨rfl, item, hitem, h⟩ | ⟨rfl, item, hitem, clip, hclip, h⟩
      · exact hplain fault h
      · exact faults_error (.inr (.misplaced (holdsClip_of_lookup hread hclips hitems hitem) h))
      · exact faults_error
          (.inr (.oversized (holdsClip_of_lookup hread hclips hitems hitem) hclip h))

/-- The library of a document is read unless it cannot be gone through. -/
theorem faults_libraryOf (hread : Json.read text = .ok (.record fields)) :
    Faults (LoadingFault text) (libraryOf (.record fields)) := by
  refine Faults.bind (Value.faults_lookup_of_record ⟨fields, rfl⟩ _ _) fun library hlibrary => ?_
  refine faults_ite (fun truthy => ?_) fun _ => faults_ok _
  intro fault hfault
  have hunlisted : library.elements = .error .illTyped := by
    cases library <;> first | rfl | cases hfault
  cases hunlisted.symm.trans hfault
  exact .inr (.library hread (Value.hasPart_of_lookup hlibrary truthy) hunlisted)

/-- A project is read from a document or the document is turned down, unless a
fault escapes. -/
theorem faults_ofValue (hread : Json.read text = .ok (.record fields)) :
    Faults (LoadingFault text) (ofValue (.record fields)).1 := by
  unfold ofValue
  split
  · refine (faults_asInvalid_ofValue hread).bind fun _ _ => ?_
    exact (faults_libraryOf hread).bind fun _ _ => faults_pure _
  · next fault hversion =>
    refine faults_error (.inl ?_)
    have hmentions : (Value.record fields).mentions "timelineClips" =
        .ok (fields.any fun field => field.1 = "timelineClips") := rfl
    rw [versionOf, hmentions, ok_bind] at hversion
    split at hversion
    · cases hversion
    · cases hversion
      rfl

/-- Loading a file comes to reading the document in its text. -/
theorem load_result {disk : Disk} {path : Text} (there : disk.find? path = some (.file text)) :
    (load disk (.text path)).result =
      match documentOfText text with
      | .ok document => ofValue document
      | .error fault => (.error fault, []) := by
  have hholds : disk.holds (.text path) = .ok true := by
    rw [Disk.holds, Disk.reaches, there]
    rfl
  have htext : textAt disk (.text path) = .ok text := by
    rw [textAt, there]
  have hrun : (load disk (.text path)).run.run [] =
      (Noting.ofOutcome (documentOfText text) >>= ofDocument).run.run [] := by
    rw [load, hholds, htext]
    rfl
  rw [Noting.result, hrun]
  cases documentOfText text with
  | error fault => rfl
  | ok document => rfl

/-- Whatever the text of a file is, loading it gives a project whose timeline
passes the check or ends in a fault that turns the text down, unless the fault is
one of those that escape. -/
theorem checked_or_refused_of_load {disk : Disk} {path text : Text}
    (there : disk.find? path = some (.file text)) :
    Returns (fun project => project.timeline.checkInvariants = .ok ())
        (load disk (.text path)).result.1 ∧
      Faults (fun fault => fault.isRefusal = true ∨ Escapes text fault)
        (load disk (.text path)).result.1 := by
  rw [load_result there]
  have hdocument := faults_documentOfText text
  cases hfound : documentOfText text with
  | error fault =>
    refine ⟨fun project h => ?_, faults_error (hdocument fault hfound)⟩
    cases h
  | ok document =>
    obtain ⟨fields, rfl, hread⟩ := exists_record_of_documentOfText hfound
    refine ⟨fun project h => ?_, faults_ofValue hread⟩
    obtain ⟨groups, hgroups⟩ := exists_grouped_of_ofValue (Prod.ext h rfl)
    exact (Timeline.settled_checked_of_ofGrouped hgroups).2

/-- A disk with a single file named "p". -/
def diskWith (text : Text) : Disk := ⟨[([[0x70]], .file text)]⟩

/-- The file is found by its name. -/
theorem find?_diskWith (text : Text) : (diskWith text).find? "p" = some (.file text) := rfl

/-- The text of a project file with one clip, given its in time and more fields. -/
def clipText (inTime more : Text) : Text :=
  "\x7b\"timelineClips\": [\x7b\"id\": \"a\", \"startTime\": 7, \"outTime\": 2.5, \"inTime\": " ++
    inTime ++ more ++ ", \"sourceRef\": \x7b\"path\": \"a.mp4\", \"duration\": 4\x7d\x7d]\x7d"

/-- The text of a project file with one clip. -/
def oneClip : Text := clipText "1" ""

/-- The project in the file with one clip is loaded, and its timeline passes the
check. -/
theorem checked_of_load_oneClip : ∃ project,
    (load (diskWith oneClip) (.text "p")).result.1 = .ok project ∧
    project.timeline.clips.length = 1 ∧ project.timeline.checkInvariants = .ok () := by
  obtain ⟨hreturns, -⟩ := checked_or_refused_of_load (find?_diskWith oneClip)
  have hseen : ((load (diskWith oneClip) (.text "p")).result.1.toOption.any fun project =>
      project.timeline.clips.length = 1) = true := by decide +kernel
  obtain ⟨project, hresult, hone⟩ := Outcome.exists_of_any hseen
  exact ⟨project, hresult, of_decide_eq_true hone, hreturns project hresult⟩

/-- The text of a project file whose library is a number. -/
def bareLibrary : Text := "\x7b\"timelineClips\": [], \"libraryClips\": 5\x7d"

/-- The text of a project file with a clip whose position is a number. -/
def barePosition : Text := clipText "1" ", \"position\": 3"

/-- The text of a project file with a clip that begins at an integer of 401 digits. -/
def hugeInTime : Text := clipText ("1" ++ ⟨List.replicate 400 (.char '0')⟩) ""

/-- The text of a file with nothing but opening brackets. -/
def openBrackets : Text := ⟨List.replicate 5000 (.char '[')⟩

/-- Whether an outcome is a fault that is no refusal. -/
def isEscape {α : Type} : Outcome α → Bool
  | .error fault => !fault.isRefusal
  | .ok _ => false

/-- All four kinds of faults escape: a number has no entries to go through and no
members, an integer can be beyond the doubles, and brackets can be too many. -/
theorem isEscape_of_contents :
    isEscape (load (diskWith bareLibrary) (.text "p")).result.1 = true ∧
      isEscape (load (diskWith barePosition) (.text "p")).result.1 = true ∧
      isEscape (load (diskWith hugeInTime) (.text "p")).result.1 = true ∧
      isEscape (load (diskWith openBrackets) (.text "p")).result.1 = true := by
  decide +kernel

end Project

end Montage
