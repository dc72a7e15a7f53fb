import Montage.Proofs.Session.Consistent

/-!
# Runs of operations

Whatever is done in a session, its timeline stays with its history, and all
states of the history are orderly and settled. No clip starts anywhere else than
at its running sum while no split cuts beyond the finite doubles. An edit that
was recorded is taken back by undo and brought back by redo.
-/

namespace Montage

namespace Session

/-- The sessions that operations lead to from one, whether they return or not.
Anything but the session may change between them, and the library may be
replaced. -/
inductive Run (allowed : Edit → Timeline → Prop) (start : Session) : Session → Prop
  /-- The empty run stays where it is. -/
  | start : Run allowed start start
  /-- One more operation is performed. -/
  | step {session : Session} {library : Value} {workspace : Workspace} {operation : Operation}
      (run : Run allowed start session) (here : workspace.session = { session with library })
      (permitted : operation.Permitted allowed workspace) :
      Run allowed start (operation.perform.run.run workspace).2.session

variable {property : Timeline → Prop} {allowed : Edit → Timeline → Prop}
  {start session : Session}

/-- Runs of operations keep a session consistent. -/
theorem Run.consistent (run : Run allowed start session) (consistent : start.Consistent property)
    (kept : ∀ {timeline result}, property timeline → Edit.Run allowed timeline result →
      property result)
    (opened : ∀ {timeline : Timeline}, timeline.Settled → timeline.checkInvariants = .ok () →
      property timeline) : session.Consistent property := by
  induction run with
  | start => exact consistent
  | @step session library workspace operation _ here permitted ih =>
    have hhere : workspace.session.Consistent property := by
      rw [here]
      exact ih.of_eq rfl rfl
    have hleads := Operation.perform_leads permitted
    unfold Editing.Leads at hleads
    split at hleads
    · next after hafter =>
      rw [hafter]
      exact hhere.effect kept opened hleads
    · next after hafter =>
      rw [hafter]
      exact hhere.of_eq (congrArg timeline hleads) (congrArg history hleads)

/-- A session that was opened is on a checked timeline, which is the only state of
its history. -/
theorem start_eq_ok {machine : Machine} {timeline : Timeline} {limit : Value} {notes : List Note}
    (h : (Session.start machine timeline limit).result = (.ok session, notes)) :
    timeline.checkInvariants = .ok () ∧ session.timeline = timeline ∧
      ∃ count, 1 ≤ count ∧ session.history = (History.empty count).push timeline initialLabel := by
  obtain ⟨_, _, hchecked, h⟩ := Work.run_bind_eq_ok.mp h
  obtain ⟨number, _, _, h⟩ := Work.run_bind_eq_ok.mp h
  obtain ⟨history, _, hhistory, h⟩ := Work.run_bind_eq_ok.mp h
  obtain ⟨count, hcount, rfl⟩ := History.exists_of_ofLimit (congrArg Prod.fst hhistory)
  cases h
  exact ⟨congrArg Prod.fst hchecked, rfl, count, hcount, rfl⟩

/-- A session that was opened is consistent with what holds of its timeline. -/
theorem consistent_of_start {machine : Machine} {timeline : Timeline} {limit : Value}
    {notes : List Note}
    (h : (Session.start machine timeline limit).result = (.ok session, notes))
    (holds : property timeline) : session.Consistent property := by
  obtain ⟨_, rfl, count, hcount, hhistory⟩ := start_eq_ok h
  exact Consistent.first (History.Stands.empty count) hcount holds hhistory

/-- There is a current state, and the timeline agrees with it. -/
def OnHistory (session : Session) : Prop :=
  0 < session.history.size ∧
    ∃ current, session.history.current? = some current ∧ session.timeline.agrees current = true

/-- A consistent session is on its history, and all states have the property. -/
theorem Consistent.onHistory (h : session.Consistent property) :
    session.OnHistory ∧ ∀ entry ∈ session.history.entries, property entry.1 := by
  obtain ⟨_, current, past, future, stands, hagrees, hall⟩ := h
  refine ⟨⟨?_, current.1, stands.current?_eq, hagrees⟩, ?_⟩
  · rw [stands.size_eq, List.length_cons]
    omega
  · intro entry hentry
    rw [stands.entries_eq, List.mem_append, List.mem_reverse] at hentry
    exact hall entry (List.mem_append.mpr hentry)

/-- An operation that has returned has recorded an edit. A drag records one when
it ends elsewhere than it began. -/
def Records (session after : Session) : Operation → Prop
  | .edit _ => True
  | .splitAt _ _ => True
  | .addOverlay _ _ _ _ _ => True
  | .requests _ _ _ => True
  | .drag _ _ => after.timeline.agrees session.timeline = false
  | _ => False

/-- What was recorded was committed. -/
theorem Records.commits {after : Session} {operation : Operation}
    (records : Records session after operation)
    (effect : operation.Effect allowed session after) :
    Operation.Commits allowed session after := by
  cases operation with
  | edit draft => exact effect
  | splitAt time track => exact effect
  | addOverlay clip image opacity position size => exact effect
  | requests batch focused label => exact effect
  | drag drafts label =>
    obtain ⟨timeline, run, rfl⟩ := effect
    have hdiffers : timeline.agrees session.timeline = false := by
      by_contra hsame
      rw [Bool.not_eq_false] at hsame
      have hrecords : (session.afterDrag timeline label).timeline.agrees session.timeline =
          false := records
      rw [afterDrag, if_pos hsame, hsame] at hrecords
      cases hrecords
    refine ⟨timeline, label, run, ?_⟩
    rw [afterDrag, hdiffers]
    rfl
  | _ => exact absurd records id

/-- What was committed is taken back by undo and brought back by redo, if the
history can hold two states. -/
theorem Consistent.undo_redo (h : session.Consistent property) (two : 2 ≤ session.history.limit)
    (timeline : Timeline) (label : Value) :
    ∃ back again, (session.commit timeline label).undo = (true, back) ∧
      session.timeline.agrees back.timeline = true ∧
      back.redo = (true, again) ∧ again.timeline = timeline := by
  obtain ⟨_, current, past, future, stands, hagrees, _⟩ := h
  have hcommit := commit_stands stands timeline label
  obtain ⟨rest, hrest⟩ := Nat.exists_eq_add_of_le' (show 1 ≤ session.history.limit - 1 by omega)
  rw [hrest, List.take_succ_cons] at hcommit
  exact ⟨_, _, undo_eq hcommit, hagrees, redo_eq hcommit.undo, rfl⟩

section Opened

variable {machine : Machine} {timeline : Timeline} {limit : Value} {notes : List Note}

/-- With fresh names, all timelines of a session are orderly and settled. -/
theorem Run.orderly_settled
    (opened : (Session.start machine timeline limit).result = (.ok start, notes))
    (settled : timeline.Settled) (run : Run Edit.Fresh start session) :
    session.Consistent fun timeline => timeline.Orderly ∧ timeline.Settled := by
  have keeps : ∀ {timeline : Timeline}, timeline.Settled → timeline.checkInvariants = .ok () →
      timeline.Orderly ∧ timeline.Settled :=
    fun settled checked => ⟨Timeline.orderly_of_checked checked, settled⟩
  exact run.consistent (consistent_of_start opened (keeps settled (start_eq_ok opened).1))
    (fun sound run => run.orderly_settled sound.1 sound.2) keeps

/-- While no split cuts at infinity, they are made of moments, too. -/
theorem Run.orderly_settled_hasMoments
    (opened : (Session.start machine timeline limit).result = (.ok start, notes))
    (settled : timeline.Settled) (run : Run Edit.Safe start session) :
    session.Consistent fun timeline =>
      timeline.Orderly ∧ timeline.Settled ∧ timeline.HasMoments := by
  have keeps : ∀ {timeline : Timeline}, timeline.Settled → timeline.checkInvariants = .ok () →
      timeline.Orderly ∧ timeline.Settled ∧ timeline.HasMoments :=
    fun settled checked => ⟨Timeline.orderly_of_checked checked, settled,
      Timeline.hasMoments_of_checked checked⟩
  exact run.consistent (consistent_of_start opened (keeps settled (start_eq_ok opened).1))
    (fun sound run => run.orderly_settled_hasMoments sound.1 sound.2.1 sound.2.2) keeps

end Opened

/-- A split at infinity before another clip records a state in which that clip
does not start at its running sum. -/
theorem Consistent.exists_not_arranged {workspace after : Workspace} {draft : Draft} {edit : Edit}
    {supply : Supply} {spot : Spot} {reply : Reply}
    (h : workspace.session.Consistent fun timeline =>
      timeline.Orderly ∧ timeline.Settled ∧ timeline.HasMoments)
    (drawn : draft.toEdit.run.run workspace.supply = (.ok edit, supply))
    (overflow : edit.OverflowsAt workspace.session.timeline spot) (follows : spot.after ≠ [])
    (performed : (Operation.edit draft).perform.run.run workspace = (.ok reply, after)) :
    ∃ entry ∈ after.session.history.entries, ¬ entry.1.Arranged := by
  obtain ⟨⟨orderly, _, moments⟩, current, past, future, stands, _⟩ := h
  obtain ⟨other, _, result, label, hother, happlied, hcommit⟩ := exists_of_applyDraft performed
  cases drawn.symm.trans hother
  refine ⟨(result, label), ?_, fun arranged => ?_⟩
  · rw [hcommit, (commit_stands stands result label).entries_eq]
    simp
  · exact Edit.not_laidOut_of_overflow orderly moments overflow follows happlied
      (arranged.laidOut spot.track)

/-- What an operation has recorded is taken back by undo and brought back by
redo, if the history can hold two states. -/
theorem Consistent.undo_redo_of_records {workspace after : Workspace} {operation : Operation}
    {reply : Reply} (h : workspace.session.Consistent property)
    (permitted : operation.Permitted allowed workspace)
    (two : 2 ≤ workspace.session.history.limit)
    (performed : operation.perform.run.run workspace = (.ok reply, after))
    (records : Records workspace.session after.session operation) :
    ∃ back again, Operation.undo.perform.run.run after = (.ok (.flag true), back) ∧
      workspace.session.timeline.agrees back.session.timeline = true ∧
      Operation.redo.perform.run.run back = (.ok (.flag true), again) ∧
      again.session.timeline = after.session.timeline := by
  have hleads := Operation.perform_leads permitted
  rw [Editing.Leads, performed] at hleads
  obtain ⟨timeline, label, _, hcommit⟩ := records.commits hleads
  obtain ⟨back, again, hundo, hback, hredo, hagain⟩ := h.undo_redo two timeline label
  rw [← hcommit] at hundo
  refine ⟨{ after with session := back }, { after with session := again }, ?_, hback, ?_, ?_⟩
  · change (Except.ok (Reply.flag after.session.undo.1),
      { after with session := after.session.undo.2 }) = _
    rw [hundo]
  · change (Except.ok (Reply.flag back.redo.1), { after with session := back.redo.2 }) = _
    rw [hredo]
  · rw [hcommit]
    exact hagain

/-- On every session that was opened on a settled timeline, whatever operations
were performed with fresh names, the timeline is with the history. All states of
the history are orderly and arranged unless a clip starts at not-a-number, and
they are arranged while no split cuts at infinity; one that does so before
another clip records a state that is not. What was recorded last is taken back by
undo and brought back by redo. -/
theorem onHistory_of_run {machine : Machine} {timeline : Timeline} {limit : Value}
    {notes : List Note}
    (opened : (Session.start machine timeline limit).result = (.ok start, notes))
    (settled : timeline.Settled) :
    (∀ session, Run Edit.Fresh start session → session.OnHistory ∧
      ∀ entry ∈ session.history.entries, entry.1.Orderly ∧
        (entry.1.Arranged ↔ ∀ clip ∈ entry.1.clips, clip.startTime.isNaN = false)) ∧
    (∀ session, Run Edit.Safe start session →
      ∀ entry ∈ session.history.entries, entry.1.Arranged) ∧
    (∀ workspace operation reply after, Run Edit.Fresh start workspace.session →
      operation.Permitted Edit.Fresh workspace → 2 ≤ workspace.session.history.limit →
      operation.perform.run.run workspace = (.ok reply, after) →
      Records workspace.session after.session operation →
      ∃ back again, Operation.undo.perform.run.run after = (.ok (.flag true), back) ∧
        workspace.session.timeline.agrees back.session.timeline = true ∧
        Operation.redo.perform.run.run back = (.ok (.flag true), again) ∧
        again.session.timeline = after.session.timeline) ∧
    ∀ workspace draft edit supply spot reply after, Run Edit.Safe start workspace.session →
      draft.toEdit.run.run workspace.supply = (.ok edit, supply) →
      edit.OverflowsAt workspace.session.timeline spot → spot.after ≠ [] →
      (Operation.edit draft).perform.run.run workspace = (.ok reply, after) →
      ∃ entry ∈ after.session.history.entries, ¬ entry.1.Arranged := by
  refine ⟨?_, ?_, ?_, ?_⟩
  · intro session run
    obtain ⟨on, hall⟩ := (run.orderly_settled opened settled).onHistory
    refine ⟨on, fun entry hentry => ?_⟩
    obtain ⟨orderly, settled⟩ := hall entry hentry
    refine ⟨orderly, ?_⟩
    rw [← settled.laidOut_iff]
    exact ⟨fun arranged => arranged.laidOut, fun laidOut => ⟨orderly, laidOut⟩⟩
  · intro session run entry hentry
    obtain ⟨orderly, settled, moments⟩ :=
      (run.orderly_settled_hasMoments opened settled).onHistory.2 entry hentry
    exact ⟨orderly, settled.laidOut moments⟩
  · intro workspace operation reply after run permitted two performed records
    exact (run.orderly_settled opened settled).undo_redo_of_records permitted two performed records
  · intro workspace draft edit supply spot reply after run drawn overflow follows performed
    exact (run.orderly_settled_hasMoments opened settled).exists_not_arranged drawn overflow
      follows performed

/-- A machine with nothing on it. -/
def bareMachine : Machine := ⟨.empty, "", [], [], "", none⟩

/-- A workspace on a bare machine, with names from the first one on. -/
def workspaceOf (session : Session) : Workspace where
  session := session
  machine := bareMachine
  services := ⟨fun _ _ => .ok true, fun _ _ => (.ok .null, []), .refused "not started"⟩
  supply := ⟨0, .ofList [], []⟩
  encoder := ⟨.null, none, false, false⟩
  calls := []

/-- A session on a timeline, with a history for two states. -/
def sessionOn (timeline : Timeline) : Session where
  timeline := timeline
  history := (History.empty 2).push timeline initialLabel
  library := .list []
  file := none
  unsaved := false

/-- A session can be opened on a checked timeline. -/
theorem start_sessionOn {timeline : Timeline} (checked : timeline.checkInvariants = .ok ()) :
    (Session.start bareMachine timeline (.int 2)).result = (.ok (sessionOn timeline), []) := by
  have htruthy : (Value.int 2).truthy = true := by decide +kernel
  have hlimit : (historyLimit bareMachine (.int 2)).run.run [] = (.ok (.int 2), []) := by
    rw [historyLimit, if_pos htruthy]
    rfl
  have hmade : (History.ofLimit (.int 2) : Outcome (History Timeline Value)) =
      .ok (History.empty 2) := History.ofLimit_int one_le_two (by decide)
  have hchecked : (Noting.ofOutcome timeline.checkInvariants).run.run [] = (.ok (), []) := by
    rw [checked]
    rfl
  have hhistory : (Noting.ofOutcome (History.ofLimit (.int 2) :
      Outcome (History Timeline Value))).run.run [] = (.ok (History.empty 2), []) := by
    rw [hmade]
    rfl
  exact (Work.run_bind_of_ok hchecked).trans
    ((Work.run_bind_of_ok hlimit).trans (Work.run_bind_of_ok hhistory))

/-- After the order of a pair of clips was changed, undo and redo are possible. -/
theorem onHistory_of_reordered_pair : ∃ reply after back again,
    (Operation.edit (.complete (.reorder (.text "b") (.int 0)))).perform.run.run
      (workspaceOf (sessionOn Edit.pair)) = (.ok reply, after) ∧
    Operation.undo.perform.run.run after = (.ok (.flag true), back) ∧
    Edit.pair.agrees back.session.timeline = true ∧
    Operation.redo.perform.run.run back = (.ok (.flag true), again) ∧
    again.session.timeline = after.session.timeline := by
  obtain ⟨reply, after, hrun⟩ : ∃ reply after,
      (Operation.edit (.complete (.reorder (.text "b") (.int 0)))).perform.run.run
        (workspaceOf (sessionOn Edit.pair)) = (.ok reply, after) :=
    Work.exists_of_isOk (by decide +kernel)
  have permitted : (Operation.edit (.complete (.reorder (.text "b") (.int 0)))).Permitted
      Edit.Fresh (workspaceOf (sessionOn Edit.pair)) := by
    rintro edit present result (⟨drawn⟩ | _) _
    cases drawn
    exact ⟨.nil, by simp [Edit.newIds]⟩
  obtain ⟨back, again, h⟩ := (onHistory_of_run (start_sessionOn Edit.pair_checked)
    Edit.pair_wellFormed.settled).2.2.1 (workspaceOf (sessionOn Edit.pair)) _ reply after .start
    permitted le_rfl hrun trivial
  exact ⟨reply, after, back, again, hrun, h⟩

/-- A session on the endless clip and the one behind it, in which a split of the
first one with fresh names is recorded. The state that is recorded is not
arranged. -/
theorem not_arranged_of_endlessSplit : ∃ reply after,
    (Session.start bareMachine Edit.endless (.int 2)).result =
      (.ok (sessionOn Edit.endless), []) ∧
    Edit.endless.Settled ∧
    (Operation.edit (.split (.text "a")
      (.real (.ofNat ((2 ^ 53 - 2) * 2 ^ 971))))).Permitted Edit.Fresh
        (workspaceOf (sessionOn Edit.endless)) ∧
    (Operation.edit (.split (.text "a")
      (.real (.ofNat ((2 ^ 53 - 2) * 2 ^ 971))))).perform.run.run
        (workspaceOf (sessionOn Edit.endless)) = (.ok reply, after) ∧
    ∃ entry ∈ after.session.history.entries, ¬ entry.1.Arranged := by
  obtain ⟨reply, after, hrun⟩ : ∃ reply after,
      (Operation.edit (.split (.text "a")
        (.real (.ofNat ((2 ^ 53 - 2) * 2 ^ 971))))).perform.run.run
          (workspaceOf (sessionOn Edit.endless)) = (.ok reply, after) :=
    Work.exists_of_isOk (by decide +kernel)
  refine ⟨reply, after, start_sessionOn Edit.endless_checked, Edit.endless_wellFormed.settled,
    ?_, hrun, ?_⟩
  · rintro edit present result (⟨drawn⟩ | _) _
    cases drawn
    decide +kernel
  · have consistent := Run.start.orderly_settled_hasMoments
      (start_sessionOn Edit.endless_checked) Edit.endless_wellFormed.settled
    exact consistent.exists_not_arranged rfl (Edit.endless_overflowsAt _ _)
      (List.cons_ne_nil _ _) hrun

end Session

end Montage
