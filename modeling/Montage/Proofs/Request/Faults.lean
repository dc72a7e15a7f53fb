import Montage.Proofs.Request.Placement
import Montage.Request.Apply

/-!
# Faults of requests

A request that fails is turned down, or a part of it is missing or of an
unsuitable kind. Three other faults get past that: arguments that are pairs and
yet not pairs, a described overlay that is no record, and a number that is too
large for a double.
-/

namespace Montage

open Outcome

/-- All numbers to be drawn from the supply are finite doubles. -/
def Supply.Rolls (supply : Supply) : Prop := supply.draws.Rolls

namespace Drawing

variable {α : Type} {P : Fault → Prop}

/-- An outcome draws nothing. -/
theorem keeps_ofOutcome {x : Outcome α} (faults : Faults P x) :
    Work.Keeps Supply.Rolls P (fun a => x = .ok a) (ofOutcome x) :=
  fun _ rolls => Work.ends_of_run rfl ⟨rolls, faults, fun _ h => h⟩

/-- Names do not run out. -/
theorem keeps_newClipId : Work.Keeps Supply.Rolls P (fun _ => True) newClipId :=
  Work.keeps_of_ok fun _ rolls => ⟨_, _, rfl, rolls, trivial⟩

/-- Names of overlays do not run out, either. -/
theorem keeps_newOverlayId : Work.Keeps Supply.Rolls P (fun _ => True) newOverlayId :=
  Work.keeps_of_ok fun _ rolls => ⟨_, _, rfl, rolls, trivial⟩

/-- A note draws nothing. -/
theorem keeps_note (severity : Severity) (text : Text) :
    Work.Keeps Supply.Rolls P (fun _ => True) (note severity text) :=
  Work.keeps_of_ok fun _ rolls => ⟨_, _, rfl, rolls, trivial⟩

/-- The place of an overlay is within the frame if its number leads to a slot. -/
theorem keeps_place (type : Value) {index : Value} (faults : Faults P (Placement.slot index)) :
    Work.Keeps Supply.Rolls P
      (fun placed => placed.1.x.Within 5 85 ∧ placed.1.y.Within 5 90) (place type index) :=
  fun supply rolls => Work.ends_of_run rfl (Placement.keeps_place type faults supply.draws rolls)

end Drawing

/-! ## Reading requests -/

/-- A value is taken apart unless it cannot be gone through or has not two parts. -/
theorem Value.faults_pair {P : Fault → Prop} {value : Value}
    (plain : ∀ fault, fault.IsPlain → P fault)
    (uneven : ∀ parts, value.elements = .ok parts → parts.length ≠ 2 →
      P (.unreadable (.ofCount parts.length))) : Faults P value.pair := by
  refine (value.faults_elements.mono plain).bind fun parts hparts => ?_
  split
  · exact faults_pure _
  · next hnot =>
    refine faults_error (uneven parts hparts fun hlength => ?_)
    obtain ⟨a, b, rfl⟩ := List.length_eq_two.mp hlength
    exact hnot a b rfl

/-- A required field stands in the document. -/
theorem Value.hasPart_of_require {value part : Value} {name : Text}
    (h : value.require name = .ok part) : value.HasPart name part := by
  cases value with
  | record fields => exact ⟨fields, rfl, orFault_eq_ok.mp h⟩
  | _ => cases h

namespace Request

/-- The arguments in a request document are neither empty nor a record, and one of
them has a number of parts other than two. -/
def IsUnpairedIn (item : Value) (count : Nat) : Prop :=
  ∃ arguments parts part halves, item.HasPart "arguments" arguments ∧ arguments.IsStray ∧
    arguments.elements = .ok parts ∧ part ∈ parts ∧ part.elements = .ok halves ∧
    halves.length = count ∧ count ≠ 2

/-- The fault is plain or tells how many parts an argument of a request document has
that is no pair. -/
def ReadingFault (item : Value) (fault : Fault) : Prop :=
  fault.IsPlain ∨ ∃ count, fault = .unreadable (.ofCount count) ∧ IsUnpairedIn item count

/-- Pairs are collected unless one of them is none or has a name of an unsuitable
kind. -/
theorem faults_collect {P : Fault → Prop} (plain : ∀ fault, fault.IsPlain → P fault)
    {parts : List Value}
    (uneven : ∀ part ∈ parts, ∀ halves, part.elements = .ok halves → halves.length ≠ 2 →
      P (.unreadable (.ofCount halves.length)))
    (fields : List (Text × Value)) : Faults P (collect fields parts) := by
  induction parts generalizing fields with
  | nil => exact faults_ok fields
  | cons part parts ih =>
    have hrest := ih fun other hother => uneven other (List.mem_cons_of_mem part hother)
    refine (Value.faults_pair plain (uneven part List.mem_cons_self)).bind fun _ _ => ?_
    refine (Value.faults_checkKey fun _ => plain _ trivial).bind fun _ _ => ?_
    split
    · exact hrest _
    · exact hrest fields

/-- A request document is read unless an argument is no pair. -/
theorem faults_ofValue (item : Value) : Faults (ReadingFault item) (ofValue item) := by
  refine ((item.faults_require "name").mono fun _ => .inl).bind fun name hname => ?_
  have isRecord := Value.exists_record_of_require hname
  refine (Value.faults_lookup_of_record isRecord _ _).bind fun arguments harguments => ?_
  refine Faults.bind (faults_ite (fun truthy => ?_) fun _ => faults_ok _) fun _ _ => faults_pure _
  split
  · exact faults_ok _
  · next hnot =>
    refine (arguments.faults_elements.mono fun _ => .inl).bind fun parts hparts => ?_
    refine faults_collect (fun _ => .inl) (fun part hpart halves hhalves hcount => ?_) []
    exact .inr ⟨halves.length, rfl, arguments, parts, part, halves,
      Value.hasPart_of_lookup harguments truthy, ⟨truthy, hnot⟩, hparts, hpart, hhalves, rfl,
      hcount⟩

/-- The arguments of a request that was read are a record. -/
theorem exists_record_of_ofValue {item : Value} {request : Request}
    (h : ofValue item = .ok request) : ∃ fields, request.arguments = .record fields := by
  simp only [ofValue, bind_eq_ok, pure_eq_ok] at h
  obtain ⟨_, _, _, _, fields, _, rfl⟩ := h
  exact ⟨fields, rfl⟩

end Request

/-! ## Targets -/

namespace Target

variable {timeline : Timeline}

/-- The first clip is there or turned down. -/
theorem faults_firstClip : Faults Fault.IsPlain (firstClip timeline) :=
  faults_orFault (by trivial) _

/-- The clips that a target names are there or turned down. -/
theorem faults_named (target focused : Value) :
    Faults Fault.IsPlain (named timeline target focused) := by
  refine faults_ite (fun _ => faults_ok _) fun _ => ?_
  refine faults_ite (fun _ => faults_ok _) fun _ => ?_
  refine faults_ite (fun _ => ?_) fun _ => ?_
  · split
    · exact faults_ok _
    · exact faults_firstClip.bind fun _ _ => faults_pure _
  refine faults_ite (fun _ => faults_firstClip.bind fun _ _ => faults_pure _) fun _ => ?_
  exact (Timeline.faults_require (fun _ => trivial) target).bind fun _ _ => faults_pure _

/-- A target names at least one clip or is turned down. -/
theorem faults_resolve (target focused : Value) :
    Faults Fault.IsPlain (resolve timeline target focused) :=
  (faults_named target focused).bind fun _ _ =>
    faults_ite (fun _ => faults_error trivial) fun _ => faults_pure _

/-- A target that is accepted names at least one clip. -/
theorem ne_nil_of_resolve {target focused : Value} {clips : List Clip}
    (h : resolve timeline target focused = .ok clips) : clips ≠ [] := by
  obtain ⟨found, _, h⟩ := bind_eq_ok.mp h
  split at h
  · cases h
  · next hsome =>
    cases h
    rintro rfl
    exact hsome rfl

/-- The first of the named clips is there or turned down. -/
theorem faults_resolveFirst (target focused : Value) :
    Faults Fault.IsPlain (resolveFirst timeline target focused) := by
  refine (faults_resolve target focused).bind fun clips hclips => ?_
  cases clips with
  | nil => exact absurd rfl (ne_nil_of_resolve hclips)
  | cons clip clips => exact faults_ok clip

/-- The one clip that a target names is there or turned down. -/
theorem faults_resolveSingle (target focused : Value) :
    Faults Fault.IsPlain (resolveSingle timeline target focused) :=
  faults_ite (fun _ => faults_error trivial) fun _ => faults_resolveFirst target focused

end Target

/-! ## Single requests -/

namespace Request

variable {request : Request} {timeline : Timeline} {P : Fault → Prop}

/-- The arguments of a kind of requests that say where or when to cut or to put
something. -/
def Kind.places : Kind → List Text
  | .trimClip => ["inTime", "outTime"]
  | .splitClip => ["timestamp"]
  | .reorderClip => ["index"]
  | _ => []

/-- The request comes upon an integer that is too large for a double. -/
inductive AsksBeyond (request : Request) (timeline : Timeline) (focused : Value) : Prop
  /-- The source to be inserted is that long. -/
  | source {reference : Value} {source : Source} (named : request.kind = .ok .insertClip)
      (given : request.arguments.HasPart "sourceRef" reference)
      (read : Source.ofValue reference = .ok source) (beyond : source.duration.IsBeyond)
  /-- Another time or place that it gives is too large. -/
  | place {kind : Kind} {name : Text} {value : Value} (named : request.kind = .ok kind)
      (takes : name ∈ kind.places) (given : request.arguments.HasPart name value)
      (beyond : value.IsBeyond)
  /-- The time to split a clip at, added to its in time, is too large. -/
  | cut {target time : Value} {chosen clip : Clip} {cut : Number}
      (named : request.kind = .ok .splitClip) (targets : request.target = .ok target)
      (chooses : Target.resolveSingle timeline target focused = .ok chosen)
      (found : timeline.require chosen.id = .ok clip)
      (given : request.argument "timestamp" .null = .ok time)
      (sum : clip.inTime.add time = .ok cut) (beyond : (Value.number cut).IsBeyond)

/-- The request adds overlays, and one that it describes is no record. -/
def AddsBare (request : Request) : Prop :=
  request.kind = .ok .addOverlays ∧ ∃ overlays described overlay,
    request.argument "overlays" .null = .ok overlays ∧
    describedOverlays overlays = .ok described ∧ overlay ∈ described ∧
    ∀ fields, overlay ≠ .record fields

/-- An argument that is too large for a double stands in the document if the default
is not. -/
theorem hasPart_of_isBeyond {name : Text} {default value : Value}
    (h : request.argument name default = .ok value) (beyond : value.IsBeyond)
    (small : ¬ default.IsBeyond) : request.arguments.HasPart name value := by
  unfold argument Value.lookup at h
  split at h
  · next fields hfields =>
    cases hfind : Value.find? fields name with
    | some found =>
      rw [hfind] at h
      cases h
      exact ⟨fields, hfields, hfind⟩
    | none =>
      rw [hfind] at h
      cases h
      exact absurd beyond small
  · cases h

/-- Zero has a double. -/
theorem not_isBeyond_zero : ¬ (Value.int 0).IsBeyond := by
  rintro ⟨_, hn, hnone⟩
  cases hn
  obtain ⟨x, hx, _⟩ := Number.exists_toReal?_int (k := 0) (Nat.zero_le _)
  rw [hnone] at hx
  cases hx

/-- The edits of a request come upon no integer that is too large for a double, or
there is one edit, which does so only if the request does. -/
def Fits (request : Request) (timeline : Timeline) (focused : Value) (edits : List Edit) : Prop :=
  (∀ edit ∈ edits, ∀ timeline, ¬ edit.AsksBeyond timeline) ∨ ∃ edit, edits = [edit] ∧
    (edit.AsksBeyond timeline → request.AsksBeyond timeline focused)

/-- The overlays that a request describes are taken out with plain faults only. -/
theorem faults_describedOverlays (plain : ∀ fault, fault.IsPlain → P fault) (value : Value) :
    Faults P (describedOverlays value) := by
  refine faults_ite (fun _ => ?_) fun _ => faults_ok _
  split
  · exact faults_error (plain _ trivial)
  · exact (value.faults_elements.mono plain).bind fun _ _ => faults_pure _

/-- Tags are joined with plain faults only. -/
theorem faults_joinTags (plain : ∀ fault, fault.IsPlain → P fault) (tags : List Value) :
    Faults P (Placement.joinTags tags) := by
  induction tags with
  | nil => exact faults_ok _
  | cons tag tags ih =>
    unfold Placement.joinTags
    split
    · exact faults_ok _
    · next h =>
      cases h
      exact ih.bind fun _ _ => faults_pure _
    · exact faults_error (plain _ trivial)

/-- Tags are read with plain faults only. -/
theorem faults_tagText (plain : ∀ fault, fault.IsPlain → P fault) (tags : Value) :
    Faults P (Placement.tagText tags) :=
  faults_ite (fun _ => (tags.faults_elements.mono plain).bind fun items _ =>
    (faults_joinTags plain items).bind fun _ _ => faults_pure _) fun _ => faults_ok _

/-- The type of an overlay is inferred if it has members and its tags can be read. -/
theorem faults_inferType {described : Value}
    (lookup : ∀ name, Faults P (described.lookup name .null))
    (told : ∀ tags, described.lookup "tags" .null = .ok tags →
      Faults P (Placement.tagText tags)) :
    Faults P (Placement.inferType described) := by
  refine (lookup _).bind fun _ _ => faults_ite (fun _ => faults_pure _) fun _ => ?_
  refine (lookup _).bind fun tags htags => (told tags htags).bind fun _ _ => ?_
  exact faults_ite (fun _ => faults_pure _) fun _ =>
    faults_ite (fun _ => faults_pure _) fun _ => faults_pure _

/-- Described overlays are made unless one of them is no record. -/
theorem keeps_makeOverlays (plain : ∀ fault, fault.IsPlain → P fault) {described : List Value}
    (bare : ∀ overlay ∈ described, (∀ fields, overlay ≠ .record fields) → P .noMembers)
    (made : List Overlay) :
    Work.Keeps Supply.Rolls P (fun _ => True) (makeOverlays made described) := by
  induction described generalizing made with
  | nil => exact Work.keeps_pure trivial
  | cons overlay described ih =>
    have hrest := ih fun other hother => bare other (List.mem_cons_of_mem overlay hother)
    have hlookup (name : Text) : Faults P (overlay.lookup name .null) := by
      refine (overlay.faults_lookup name .null).mono fun fault h => ?_
      rcases h with h | ⟨rfl, hnot⟩
      · exact plain fault h
      · exact bare overlay List.mem_cons_self hnot
    have himage : Faults P (imageOf overlay) := (hlookup _).bind fun _ _ =>
      faults_ite (fun _ => faults_pure _) fun _ => hlookup _
    refine (Drawing.keeps_ofOutcome himage).bind fun _ _ => Work.keeps_ite (fun _ => ?_) fun _ =>
      (Drawing.keeps_note _ _).bind fun _ _ => hrest made
    have htype := faults_inferType hlookup fun tags _ => faults_tagText plain tags
    refine (Drawing.keeps_ofOutcome htype).bind fun type _ => ?_
    have hslot := (Placement.faults_slot (.int made.length)).mono plain
    refine (Drawing.keeps_place type hslot).bind fun _ _ => ?_
    refine (Drawing.keeps_ofOutcome (hlookup _)).bind fun _ _ => ?_
    exact Drawing.keeps_newOverlayId.bind fun _ _ => hrest _

/-- The main clip for overlays is there or turned down. -/
theorem keeps_mainClip (plain : ∀ fault, fault.IsPlain → P fault) (target focused : Value) :
    Work.Keeps Supply.Rolls P (fun _ => True) (mainClip timeline target focused) := by
  unfold mainClip
  split
  · exact Work.keeps_throw (plain _ trivial)
  · refine Work.keeps_ite (fun _ => Work.keeps_pure trivial) fun _ => ?_
    refine (Drawing.keeps_ofOutcome ((Target.faults_resolveFirst target focused).mono plain)).bind
      fun clip _ => Work.keeps_ite (fun _ => Work.keeps_pure trivial) fun _ => ?_
    exact (Drawing.keeps_note _ _).bind fun _ _ => Work.keeps_pure trivial

section

variable (plain : ∀ fault, fault.IsPlain → P fault) (bare : request.AddsBare → P .noMembers)
  (isRecord : ∃ fields, request.arguments = .record fields)

include plain bare isRecord

/-- Overlays are added by one edit unless a described one is no record. -/
theorem keeps_overlayEdits (named : request.kind = .ok .addOverlays) (focused : Value) :
    Work.Keeps Supply.Rolls P (request.Fits timeline focused)
      (overlayEdits timeline request focused) := by
  have hargument (name : Text) (default : Value) : Faults P (request.argument name default) :=
    Value.faults_lookup_of_record isRecord name default
  refine (Drawing.keeps_ofOutcome (hargument _ _)).bind fun target _ => ?_
  refine (keeps_mainClip plain target focused).bind fun clip _ => ?_
  have hdescribed : Faults P (do describedOverlays (← request.argument "overlays" .null)) :=
    (hargument _ _).bind fun _ _ => faults_describedOverlays plain _
  refine (Drawing.keeps_ofOutcome hdescribed).bind fun described heq => ?_
  obtain ⟨overlays, hoverlays, heq⟩ := bind_eq_ok.mp heq
  refine (keeps_makeOverlays plain (fun overlay hoverlay hnot => bare
    ⟨named, overlays, described, overlay, hoverlays, heq, hoverlay, hnot⟩) []).bind fun _ _ => ?_
  refine Work.keeps_ite (fun _ => Work.keeps_throw (plain _ trivial)) fun _ => ?_
  exact Work.keeps_pure (.inr ⟨_, rfl, False.elim⟩)

/-- A request is translated into edits that fit it, unless it describes an overlay
that is no record. -/
theorem keeps_edits (focused : Value) :
    Work.Keeps Supply.Rolls P (request.Fits timeline focused)
      (edits timeline request focused) := by
  have hargument (name : Text) (default : Value) : Faults P (request.argument name default) :=
    Value.faults_lookup_of_record isRecord name default
  have hsingle : Faults P (do Target.resolveSingle timeline (← request.target) focused) :=
    (hargument _ _).bind fun _ _ => (Target.faults_resolveSingle _ focused).mono plain
  have htargets : Faults P (do Target.resolve timeline (← request.target) focused) :=
    (hargument _ _).bind fun _ _ => (Target.faults_resolve _ focused).mono plain
  have hkind : Faults P request.kind := by
    unfold kind
    split
    · exact faults_ok _
    · exact faults_error (plain _ trivial)
  refine (Drawing.keeps_ofOutcome hkind).bind fun kind named => ?_
  cases kind with
  | insertClip =>
    have hsource : Faults P (do Source.ofValue (← request.arguments.require "sourceRef")) :=
      ((Value.faults_require _ _).mono plain).bind fun _ _ => (Source.faults_ofValue _).mono plain
    refine (Drawing.keeps_ofOutcome (hargument _ _)).bind fun track _ => ?_
    refine (Drawing.keeps_ofOutcome hsource).bind fun source heq => ?_
    obtain ⟨reference, hreference, hread⟩ := bind_eq_ok.mp heq
    refine (Drawing.keeps_ofOutcome (hargument _ _)).bind fun index _ => ?_
    refine Drawing.keeps_newClipId.bind fun id _ =>
      Work.keeps_pure (.inr ⟨_, rfl, fun beyond => ?_⟩)
    exact .source named (Value.hasPart_of_require hreference) hread beyond
  | trimClip =>
    refine (Drawing.keeps_ofOutcome hsingle).bind fun clip _ => ?_
    refine (Drawing.keeps_ofOutcome (hargument _ _)).bind fun inTime hin => ?_
    refine (Drawing.keeps_ofOutcome (hargument _ _)).bind fun outTime hout => ?_
    refine Work.keeps_pure (.inr ⟨_, rfl, fun beyond => ?_⟩)
    rcases beyond with beyond | beyond
    · exact .place named (by simp [Kind.places])
        (hasPart_of_isBeyond hin beyond Value.not_isBeyond_null) beyond
    · exact .place named (by simp [Kind.places])
        (hasPart_of_isBeyond hout beyond Value.not_isBeyond_null) beyond
  | splitClip =>
    refine (Drawing.keeps_ofOutcome hsingle).bind fun chosen hchosen => ?_
    refine (Drawing.keeps_ofOutcome (hargument _ _)).bind fun time htime => ?_
    refine Drawing.keeps_newClipId.bind fun _ _ => Drawing.keeps_newClipId.bind fun _ _ => ?_
    refine Work.keeps_pure (.inr ⟨_, rfl, fun beyond => ?_⟩)
    rcases beyond with beyond | ⟨clip, cut, hfound, hsum, beyond⟩
    · exact .place named (by simp [Kind.places])
        (hasPart_of_isBeyond htime beyond Value.not_isBeyond_null) beyond
    · obtain ⟨target, htarget, hchooses⟩ := bind_eq_ok.mp hchosen
      exact .cut named htarget hchooses hfound htime hsum beyond
  | reorderClip =>
    refine (Drawing.keeps_ofOutcome hsingle).bind fun clip _ => ?_
    refine (Drawing.keeps_ofOutcome (hargument _ _)).bind fun index hindex => ?_
    refine Work.keeps_pure (.inr ⟨_, rfl, fun beyond => ?_⟩)
    exact .place named (by simp [Kind.places])
      (hasPart_of_isBeyond hindex beyond not_isBeyond_zero) beyond
  | deleteClip =>
    refine (Drawing.keeps_ofOutcome hsingle).bind fun clip _ => ?_
    exact Work.keeps_pure (.inr ⟨_, rfl, False.elim⟩)
  | setMute =>
    refine (Drawing.keeps_ofOutcome htargets).bind fun clips _ => ?_
    refine (Drawing.keeps_ofOutcome (hargument _ _)).bind fun muted _ => Work.keeps_pure (.inl ?_)
    exact List.forall_mem_map.mpr fun _ _ _ asks => asks
  | applyFilter =>
    refine (Drawing.keeps_ofOutcome htargets).bind fun clips _ => ?_
    refine (Drawing.keeps_ofOutcome (hargument _ _)).bind fun name _ => Work.keeps_pure (.inl ?_)
    exact List.forall_mem_map.mpr fun _ _ _ asks => asks
  | blackAndWhite =>
    refine (Drawing.keeps_ofOutcome (hargument _ _)).bind fun enable _ => Work.keeps_pure (.inl ?_)
    exact List.forall_mem_map.mpr fun _ _ _ asks => asks
  | addOverlays => exact keeps_overlayEdits plain bare isRecord named focused

end

/-- A request fails plainly or in one of two other ways: an overlay that it describes
is no record, or it comes upon an integer that is too large for a double. All windows
are made of times afterwards if they were before. -/
theorem keeps_applyOne (plain : ∀ fault, fault.IsPlain → P fault)
    (bare : request.AddsBare → P .noMembers) (timed : timeline.Timed) {focused : Value}
    (large : request.AsksBeyond timeline focused ∨ HasBeyond timeline.clips → P .tooLarge)
    (isRecord : ∃ fields, request.arguments = .record fields) :
    Work.Keeps Supply.Rolls P Timeline.Timed (applyOne timeline request focused) := by
  have admitted : timeline.Admitted P := timed.admitted fun beyond => large (.inr beyond)
  refine (keeps_edits plain bare isRecord focused).bind fun edits fits => ?_
  have hedits : Fares P (Timeline.Admitted P) (Edit.applyAll edits timeline) := by
    rcases fits with small | ⟨edit, rfl, asks⟩
    · exact Edit.fares_applyAll plain admitted small
    · exact (Edit.fares_apply plain admitted edit fun h => large (.inl (asks h))).bind
        fun _ => fares_ok
  exact (Drawing.keeps_ofOutcome hedits.1).mono (fun _ h => h)
    fun result hresult => (hedits.2 result hresult).timed

end Request

end Montage
