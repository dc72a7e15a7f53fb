import Montage.Proofs.History.Zipper
import Montage.Proofs.Session.Effect
import Montage.Proofs.Timeline.Agreement

/-!
# Sessions and their histories

The timeline of a session and the current state of its history are kept in two
places. Whatever is done, they agree, and what holds of every timeline that was
opened and is kept by edits holds of all states of the history. So an edit that
was recorded can be taken back and brought back.
-/

namespace Montage

namespace Timeline

/-- An orderly timeline on which every clip starts at the running sum of the
lengths before it. -/
structure Arranged (timeline : Timeline) : Prop extends timeline.Orderly where
  /-- Every start time is the running sum. -/
  laidOut : ∀ track, LaidOutFrom 0 (timeline.on track)

/-- The empty timeline is settled. -/
theorem settled_empty : Timeline.empty.Settled := fun track => by cases track <;> rfl

/-- The empty timeline passes the check. -/
theorem checked_empty : Timeline.empty.checkInvariants = .ok () := rfl

end Timeline

namespace Session

/-- The timeline agrees with the current state of the history, and timelines
there and here have a property. -/
def Consistent (property : Timeline → Prop) (session : Session) : Prop :=
  property session.timeline ∧
    ∃ current past future,
      session.history.Stands session.history.limit ⟨current :: past, future⟩ ∧
      session.timeline.agrees current.1 = true ∧
      ∀ entry ∈ current :: past ++ future, property entry.1

variable {property : Timeline → Prop} {session after : Session} {limit : Nat}
  {entry previous current : Timeline × Value} {past future : List (Timeline × Value)}

/-- Recording a timeline puts it before the current state and drops those that
were taken back. -/
theorem commit_stands (stands : session.history.Stands limit ⟨current :: past, future⟩)
    (timeline : Timeline) (label : Value) :
    (session.commit timeline label).history.Stands limit
      ⟨(timeline, label) :: (current :: past).take (limit - 1), []⟩ := by
  have hpush := stands.push timeline label
  have hbounded := stands.bounded
  simp only [List.length_cons] at hbounded
  obtain ⟨rest, rfl⟩ := Nat.exists_eq_add_of_le' (show 1 ≤ limit by omega)
  exact hpush

/-- Undo goes to the state before the current one. -/
theorem undo_eq (stands : session.history.Stands limit ⟨entry :: previous :: past, future⟩) :
    session.undo = (true, { session with
      timeline := previous.1, history := session.history.undo, unsaved := true }) := by
  have hmove : session.history.canUndo = true := by simp [stands.canUndo_eq]
  have hcurrent : session.history.undo.current? = some previous.1 := stands.undo.current?_eq
  simp only [undo, hmove, hcurrent]

/-- Redo goes to the state after the current one. -/
theorem redo_eq (stands : session.history.Stands limit ⟨past, entry :: future⟩) :
    session.redo = (true, { session with
      timeline := entry.1, history := session.history.redo, unsaved := true }) := by
  have hmove : session.history.canRedo = true := by simp [stands.canRedo_eq]
  have hcurrent : session.history.redo.current? = some entry.1 := stands.redo.current?_eq
  simp only [redo, hmove, hcurrent]

namespace Consistent

/-- Only the timeline and the history count. -/
theorem of_eq (h : session.Consistent property) (htimeline : after.timeline = session.timeline)
    (hhistory : after.history = session.history) : after.Consistent property := by
  rw [Consistent, htimeline, hhistory]
  exact h

/-- Recording a timeline makes it the current one. -/
theorem commit (h : session.Consistent property) {timeline : Timeline}
    (htimeline : property timeline) (label : Value) :
    (session.commit timeline label).Consistent property := by
  obtain ⟨_, current, past, future, stands, _, hall⟩ := h
  refine ⟨htimeline, _, _, _, commit_stands stands timeline label,
    Timeline.isAgreement.refl timeline, ?_⟩
  intro entry hentry
  rw [List.append_nil] at hentry
  rcases List.mem_cons.mp hentry with rfl | hentry
  · exact htimeline
  · exact hall entry (List.mem_append_left _ (List.mem_of_mem_take hentry))

/-- The end of a drag is taken over if it agrees with the beginning, and recorded
if not. -/
theorem afterDrag (h : session.Consistent property) {timeline : Timeline}
    (htimeline : property timeline) (label : Value) :
    (session.afterDrag timeline label).Consistent property := by
  unfold Session.afterDrag
  split
  · next hsame =>
    obtain ⟨_, current, past, future, stands, hagrees, hall⟩ := h
    exact ⟨htimeline, current, past, future, stands,
      Timeline.isAgreement.trans hsame hagrees, hall⟩
  · exact h.commit htimeline label

/-- Undo goes to an earlier state or stays. -/
theorem undo (h : session.Consistent property) : session.undo.2.Consistent property := by
  obtain ⟨hpresent, current, past, future, stands, hagrees, hall⟩ := h
  cases past with
  | nil =>
    have hstay : session.history.canUndo = false := by simp [stands.canUndo_eq]
    have hundo : session.undo = (false, session) := by simp only [Session.undo, hstay]
    rw [hundo]
    exact ⟨hpresent, current, [], future, stands, hagrees, hall⟩
  | cons previous past =>
    rw [undo_eq stands]
    refine ⟨hall previous (by simp), previous, past, current :: future, ?_,
      Timeline.isAgreement.refl previous.1, ?_⟩
    · have hlimit : session.history.undo.limit = session.history.limit := stands.undo.limit_eq
      rw [hlimit]
      exact stands.undo
    · intro entry hentry
      refine hall entry ?_
      simp only [List.mem_append, List.mem_cons] at hentry ⊢
      tauto

/-- Redo goes to a later state or stays. -/
theorem redo (h : session.Consistent property) : session.redo.2.Consistent property := by
  obtain ⟨hpresent, current, past, future, stands, hagrees, hall⟩ := h
  cases future with
  | nil =>
    have hstay : session.history.canRedo = false := by simp [stands.canRedo_eq]
    have hredo : session.redo = (false, session) := by simp only [Session.redo, hstay]
    rw [hredo]
    exact ⟨hpresent, current, past, [], stands, hagrees, hall⟩
  | cons next future =>
    rw [redo_eq stands]
    refine ⟨hall next (by simp), next, current :: past, future, ?_,
      Timeline.isAgreement.refl next.1, ?_⟩
    · have hlimit : session.history.redo.limit = session.history.limit := stands.redo.limit_eq
      rw [hlimit]
      exact stands.redo
    · intro entry hentry
      refine hall entry ?_
      simp only [List.mem_append, List.mem_cons] at hentry ⊢
      tauto

/-- A history begins anew with a single state. -/
theorem first {history : History Timeline Value} (empty : history.Stands history.limit ⟨[], []⟩)
    (positive : 1 ≤ history.limit) (htimeline : property session.timeline)
    (hhistory : session.history = history.push session.timeline initialLabel) :
    session.Consistent property := by
  have hpush := empty.push session.timeline initialLabel
  obtain ⟨rest, hrest⟩ := Nat.exists_eq_add_of_le' positive
  rw [hrest, List.take_succ_cons, ← hrest, List.take_nil] at hpush
  refine ⟨htimeline, (session.timeline, initialLabel), [], [], ?_,
    Timeline.isAgreement.refl session.timeline, ?_⟩
  · rw [hhistory]
    exact hpush
  · intro entry hentry
    rw [List.mem_singleton.mp hentry]
    exact htimeline

/-- A session begins anew on another timeline. -/
theorem reset (h : session.Consistent property) {timeline : Timeline}
    (htimeline : property timeline) (library : List Value) (file : Option Text) :
    (session.reset timeline library file).Consistent property := by
  obtain ⟨_, current, past, future, stands, _, _⟩ := h
  have hbounded := stands.bounded
  simp only [List.length_cons] at hbounded
  exact first stands.clear
    (show 1 ≤ session.history.limit by omega) htimeline rfl

variable {allowed : Edit → Timeline → Prop}

/-- Operations that return keep a session consistent, if edits keep the property
and every settled and checked timeline has it. -/
theorem effect (h : session.Consistent property)
    (kept : ∀ {timeline result}, property timeline → Edit.Run allowed timeline result →
      property result)
    (opened : ∀ {timeline : Timeline}, timeline.Settled → timeline.checkInvariants = .ok () →
      property timeline)
    {operation : Operation} (effect : operation.Effect allowed session after) :
    after.Consistent property := by
  have hcommits : Operation.Commits allowed session after → after.Consistent property := by
    rintro ⟨timeline, label, run, rfl⟩
    exact h.commit (kept h.1 run) label
  cases operation with
  | edit draft => exact hcommits effect
  | splitAt time track => exact hcommits effect
  | addOverlay clip image opacity position size => exact hcommits effect
  | requests batch focused label => exact hcommits effect
  | drag drafts label =>
    obtain ⟨timeline, run, rfl⟩ := effect
    exact h.afterDrag (kept h.1 run) label
  | undo =>
    rw [show after = session.undo.2 from effect]
    exact h.undo
  | redo =>
    rw [show after = session.redo.2 from effect]
    exact h.redo
  | new =>
    rw [show after = session.reset .empty [] none from effect]
    exact h.reset (opened Timeline.settled_empty Timeline.checked_empty) [] none
  | save path =>
    rcases effect with rfl | ⟨path, rfl⟩
    · exact h
    · exact h.of_eq rfl rfl
  | load path =>
    obtain ⟨timeline, library, file, settled, checked, rfl⟩ := effect
    exact h.reset (opened settled checked) library file

end Consistent

end Session

end Montage
