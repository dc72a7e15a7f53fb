import Montage.Proofs.Session.Run
import Montage.Proofs.Timeline.Partition
import Montage.Proofs.Edit.Faults
import Montage.Proofs.Edit.Meaning

/-!
# Splitting what is under a time

A split at a time finds the one clip of a track that the time falls into, and cuts it
there: its halves take its place, and all else stays. When there is no such clip, or the
clip cannot be cut, the session is what it was.
-/

namespace Montage

/-! ## How far into a clip a time is -/

namespace Number

/-- What stands between two moments, or between a moment and infinity, is a moment, and the
first of them is not above it. -/
theorem exists_places_of_isIn {t : Number} {start stop : Place}
    (zero : start.lt (.inner 0) = false) (h : t.isIn start stop = true) :
    ∃ a b : Nat, start = .inner a ∧ t.place? = some (.inner b) ∧ a ≤ b := by
  unfold isIn at h
  cases hp : t.place? with
  | none =>
    rw [hp] at h
    cases h
  | some p =>
    rw [hp, Option.any_some, Place.isIn, Bool.and_eq_true, Bool.not_eq_true'] at h
    obtain ⟨hstart, hstop⟩ := h
    cases start with
    | bottom => cases zero
    | top =>
      cases p with
      | top => cases stop <;> cases hstop
      | _ => cases hstart
    | inner a =>
      cases p with
      | bottom => cases hstart
      | top => cases stop <;> cases hstop
      | inner b =>
        simp only [Place.lt, decide_eq_false_iff_not] at zero hstart
        exact ⟨a.toNat, b.toNat, by rw [Int.toNat_of_nonneg (by omega)],
          by rw [Int.toNat_of_nonneg (by omega)], by omega⟩

end Number

namespace Clip

variable {clip : Clip} {start stop : Place} {t : Number}

/-- How far into a clip a time is can be told if the time has a double, and it has one,
too. -/
theorem Spans.exists_offset (spans : clip.Spans start stop) (zero : start.lt (.inner 0) = false)
    (under : t.isIn start stop = true) (real : t.toReal?.isSome = true) :
    ∃ offset, (Value.number t).sub clip.startTime = .ok offset ∧
      ¬ (Value.number offset).IsBeyond := by
  obtain ⟨number, hnumber, hstart⟩ := spans.begins
  obtain ⟨a, b, rfl, htime, hle⟩ := Number.exists_places_of_isIn zero under
  have hreal := Number.toReal?_isSome_of_place_le hstart htime hle real
  have hsub : (t.sub? number).isSome = true := Number.combine?_isSome real hreal
  obtain ⟨offset, hoffset⟩ := Option.isSome_iff_exists.mp hsub
  have hsome := Number.IsTime.toReal?_sub?_isSome (.inl ⟨b, htime⟩) (.inl ⟨a, hstart⟩) real hreal
    hoffset
  refine ⟨offset, (Value.sub_eq_ok rfl hnumber).mpr hoffset, ?_⟩
  rintro ⟨_, hsame, hnone⟩
  cases hsame
  rw [hnone] at hsome
  cases hsome

end Clip

/-- The clips of a checked timeline that layout leaves as it is do not end before they
begin. -/
theorem Timeline.Settled.advances {timeline : Timeline} (settled : timeline.Settled)
    (checked : timeline.checkInvariants = .ok ()) : ∀ clip ∈ timeline.clips, clip.Advances := by
  intro clip hclip
  obtain ⟨track, hon⟩ := mem_clips.mp hclip
  refine (settled.laidOut (hasMoments_of_checked checked) track).advances Binary64.isTime_zero
    (fun other hother => ?_) clip hon
  exact (forall_on_of_checked checked track other hother).2.1

/-! ## What a split comes to -/

namespace Session

open Editing

variable {workspace : Workspace}

/-- What a split of a clip that stands between others of a track comes to, the fault or
the names of the halves and the session: two halves are in the place of the clip, or the
session is what it was. It ends in something else than a rejection only if the track of
the clip is stored as a double, or if the cut is an integer that is too large for a
double. -/
inductive HalvesOrFails (session : Session) (track : Track) (before : List Clip) (clip : Clip)
    (after : List Clip) (offset : Number) : Outcome Reply → Session → Prop
  /-- The halves share the cut, and the track is laid out anew. -/
  | halves {first second label : Value} {cut : Number} {laid : List Clip}
      (sum : clip.inTime.add (.number offset) = .ok cut)
      (laidOut : layout (before ++ [{ clip with id := first, outTime := .number cut },
        { clip with id := second, inTime := .number cut }] ++ after) = .ok laid) :
      HalvesOrFails session track before clip after offset (.ok (.ids [first, second]))
        (session.commit (session.timeline.setTrack track laid) label)
  /-- The split is turned down. -/
  | rejected (why : Rejection) :
      HalvesOrFails session track before clip after offset (.error (.rejected why)) session
  /-- The track of the clip cannot be addressed. -/
  | illTyped (real : clip.track.IsReal) :
      HalvesOrFails session track before clip after offset (.error .illTyped) session
  /-- The halves have no lengths. -/
  | tooLarge {cut : Number} (sum : clip.inTime.add (.number offset) = .ok cut)
      (beyond : (Value.number cut).IsBeyond) :
      HalvesOrFails session track before clip after offset (.error .tooLarge) session

variable {track : Track} {before after : List Clip} {clip : Clip} {offset : Number}

/-- A draft that is completed and can be described is applied and recorded, or the session
is what it was. -/
theorem run_applyDraft {draft : Draft} {edit : Edit} {supply : Supply} {label : Text}
    (drawn : draft.toEdit.run.run workspace.supply = (.ok edit, supply))
    (described : edit.description = .ok label) :
    (applyDraft draft).run.run workspace =
      match edit.apply workspace.session.timeline with
      | .ok result => (.ok (.ids edit.newIds), { workspace with
          supply, session := workspace.session.commit result (.text label) })
      | .error fault => (.error fault, { workspace with supply }) := by
  have hdrawn := drawing_eq_ok.mpr ⟨supply, drawn, rfl⟩
  rw [applyDraft, Work.run_bind_of_ok hdrawn, run_session_bind]
  dsimp only
  cases edit.apply workspace.session.timeline with
  | ok result =>
    rw [ofOutcome_ok, pure_bind, described, ofOutcome_ok, pure_bind]
    rfl
  | error fault => rfl

/-- A split of a clip that stands on a track of a checked timeline comes to one of these
ends. -/
theorem halvesOrFails_of_applyDraft
    (checked : workspace.session.timeline.checkInvariants = .ok ())
    (stands : workspace.session.timeline.on track = before ++ clip :: after)
    (small : ¬ (Value.number offset).IsBeyond) :
    HalvesOrFails workspace.session track before clip after offset
      ((applyDraft (.split clip.id (.number offset))).run.run workspace).1
      ((applyDraft (.split clip.id (.number offset))).run.run workspace).2.session := by
  have orderly := Timeline.orderly_of_checked checked
  obtain ⟨first, second, left, drawn⟩ : ∃ first second left,
      (Draft.split clip.id (.number offset)).toEdit.run.run workspace.supply =
        (.ok (.split clip.id (.number offset) first second), left) := ⟨_, _, _, rfl⟩
  rw [run_applyDraft drawn rfl]
  cases happlied : (Edit.split clip.id (.number offset) first second).apply
      workspace.session.timeline with
  | ok result =>
    obtain ⟨spot, cut, laid, found, _, _, sum, laidOut, rfl⟩ :=
      Edit.setTrack_halves_of_applySplit orderly happlied
    have there := (orderly.of_require stands (found.require_eq_ok orderly)).1
    cases there.unique orderly found
    exact .halves sum laidOut
  | error fault =>
    have hclip {other : Clip} (h : workspace.session.timeline.require clip.id = .ok other) :
        other = clip := (orderly.of_require stands h).2
    let Told (fault : Fault) : Prop :=
      HalvesOrFails workspace.session track before clip after offset (.error fault)
        workspace.session
    refine (Edit.fares_apply_of (P := Told) (fun why => .rejected why)
      (Timeline.admitted_of_checked checked) ?_ ?_).1 fault happlied
    · rintro ⟨other, hother, real⟩
      rw [hclip hother] at real
      exact .illTyped real
    · rintro (beyond | ⟨other, cut, hother, sum, beyond⟩)
      · exact absurd beyond small
      · rw [hclip hother] at sum
        exact .tooLarge sum beyond

/-- At every time and on every track of a checked timeline whose clips do not end before
they begin, one clip is found if the time is from zero on and before the end of the track,
and none otherwise. A split at the time puts two halves in the place of the one that is
found or leaves the session as it was; it is turned down if there is none. -/
theorem splitAt_of_checked (checked : workspace.session.timeline.checkInvariants = .ok ())
    (advances : ∀ clip ∈ workspace.session.timeline.clips, clip.Advances) (t : Number) :
    ∃ found, workspace.session.timeline.clipsAt (.number t) = .ok found ∧ ∀ track : Track,
      workspace.session.timeline.FindsAt t track found ∧
      ∀ x, t.toReal? = some x → ∀ outcome ended,
        (Operation.perform (.splitAt (.number t) track.toValue)).run.run workspace =
          (outcome, ended) →
        (track.among found = [] →
          outcome = .error (.rejected (.noClipAt track.toValue x)) ∧
            ended.session = workspace.session) ∧
        ∀ before clip after, workspace.session.timeline.on track = before ++ clip :: after →
          track.among found = [clip] →
          ∃ offset, (Value.number t).sub clip.startTime = .ok offset ∧
            HalvesOrFails workspace.session track before clip after offset outcome
              ended.session := by
  have hfound := Timeline.clipsAt_eq_ok checked advances t
  refine ⟨_, hfound, fun track => ⟨Timeline.findsAt_filter_covers checked advances t track,
    fun x hx outcome ended hrun => ?_⟩⟩
  rw [Operation.perform, splitAt, run_session_bind, hfound, ofOutcome_ok, pure_bind,
    ← List.head?_filter] at hrun
  refine ⟨fun hnone => ?_, fun before clip after stands hone => ?_⟩
  · have hreal : (Value.number t).toReal = .ok x := Outcome.orFault_eq_ok.mpr hx
    rw [show List.filter _ _ = [] from hnone, List.head?_nil] at hrun
    dsimp only at hrun
    rw [hreal, ofOutcome_ok, pure_bind] at hrun
    cases hrun
    exact ⟨rfl, rfl⟩
  · obtain ⟨_, _, _, _, chained⟩ :=
      Timeline.exists_chained_of_checked checked advances track
    obtain ⟨first, second, spans, zero⟩ := chained.exists_spans clip (by simp [stands])
    have hcovers : clip.covers (.number t) = true := by
      have hmem : clip ∈ track.among _ := hone ▸ List.mem_singleton_self clip
      exact (List.mem_filter.mp (List.mem_of_mem_filter hmem)).2
    rw [spans.covers_eq] at hcovers
    obtain ⟨offset, hoffset, small⟩ :=
      spans.exists_offset zero hcovers (Option.isSome_iff_exists.mpr ⟨x, hx⟩)
    rw [show List.filter _ _ = [clip] from hone, List.head?_cons] at hrun
    dsimp only at hrun
    rw [hoffset, ofOutcome_ok, pure_bind] at hrun
    have hends := halvesOrFails_of_applyDraft checked stands small
    rw [hrun] at hends
    exact ⟨offset, hoffset, hends⟩

/-- A split at the fourth second of a pair of clips puts two halves in the place of the one
that is found there. -/
theorem halves_of_pair : ∃ found before clip after first second label cut laid ended,
    Edit.pair.clipsAt (.int 4) = .ok found ∧ Track.main.among found = [clip] ∧
    Edit.pair.main = before ++ clip :: after ∧
    (Operation.splitAt (.int 4) (.int 0)).perform.run.run (workspaceOf (sessionOn Edit.pair)) =
      (.ok (.ids [first, second]), ended) ∧
    layout (before ++ [{ clip with id := first, outTime := .number cut },
      { clip with id := second, inTime := .number cut }] ++ after) = .ok laid ∧
    ended.session = (sessionOn Edit.pair).commit (Edit.pair.setTrack .main laid) label := by
  obtain ⟨reply, ended, hrun⟩ : ∃ reply ended,
      (Operation.splitAt (.int 4) (.int 0)).perform.run.run (workspaceOf (sessionOn Edit.pair)) =
        (.ok reply, ended) := Work.exists_of_isOk (by decide +kernel)
  obtain ⟨x, hreal⟩ : ∃ x, (Number.int 4).toReal? = some x :=
    Option.isSome_iff_exists.mp (by decide +kernel)
  obtain ⟨length, hlength, hinside⟩ : ∃ length, Edit.pair.trackDuration (.int 0) = .ok length ∧
      (Number.le 0 (.int 4) && (Number.int 4).lt length) = true :=
    Outcome.exists_of_any (by decide +kernel)
  have checked : (workspaceOf (sessionOn Edit.pair)).session.timeline.checkInvariants = .ok () :=
    Edit.pair_checked
  obtain ⟨found, hfound, hfinds⟩ := splitAt_of_checked checked
    (Edit.pair_wellFormed.settled.advances Edit.pair_checked) (.int 4)
  obtain ⟨⟨finish, hduration, hone, _⟩, hsplit⟩ := hfinds .main
  cases hlength.symm.trans hduration
  obtain ⟨before, clip, after, stands, honly⟩ := hone hinside
  obtain ⟨_, hends⟩ := hsplit x hreal _ _ hrun
  obtain ⟨offset, _, hends⟩ := hends before clip after stands honly
  generalize hsame : ended.session = session at hends
  cases hends with
  | @halves first second label cut laid sum laidOut =>
    exact ⟨found, before, clip, after, first, second, label, cut, laid, ended, hfound, honly,
      stands, hrun, laidOut, hsame⟩

/-- A clip is found at the second second of a checked timeline whose clip holds the number
of its track as a double, and the split is no rejection. -/
theorem illTyped_of_doubled : Edit.doubled.checkInvariants = .ok () ∧
    (∃ finish, Edit.doubled.trackDuration (.int 0) = .ok finish ∧
      (Number.le 0 (.real 2) && (Number.real 2).lt finish) = true) ∧
    ∃ ended, (Operation.splitAt (.real 2) (.int 0)).perform.run.run
      (workspaceOf (sessionOn Edit.doubled)) = (.error .illTyped, ended) := by
  refine ⟨Edit.doubled_checked, Outcome.exists_of_any (by decide +kernel), ?_⟩
  have hfails : ((Operation.splitAt (.real 2) (.int 0)).perform.run.run
      (workspaceOf (sessionOn Edit.doubled))).1 = .error .illTyped :=
    Outcome.eq_illTyped_of_failsAs (by decide +kernel)
  generalize (Operation.splitAt (.real 2) (.int 0)).perform.run.run
    (workspaceOf (sessionOn Edit.doubled)) = run at hfails ⊢
  exact ⟨run.2, Prod.ext hfails rfl⟩

end Session

end Montage
