import Montage.History
import Montage.Proofs.Value.Moment

/-!
# Histories as bounded zippers

A history keeps a list and a number. The same thing is told by two lists: the
past, newest first and with the current entry at its head, and the future. What
can be asked of a history is answered alike by both, whatever was done before.
The number always stays within the list, and the list within its limit.
-/

namespace Montage

namespace History

variable {State Label : Type}

/-- What can be done with a history. -/
inductive Move (State Label : Type) where
  /-- To record a state. -/
  | push (state : State) (label : Label)
  /-- To go back. -/
  | undo
  /-- To go forward. -/
  | redo
  /-- To forget everything. -/
  | clear

/-- What can be seen after a move. -/
structure View (State Label : Type) where
  /-- The state that the move has returned. -/
  returned : Option State
  /-- The current state. -/
  current : Option State
  /-- The number of entries. -/
  size : Nat
  /-- The position of the current entry. -/
  index : Int
  /-- Whether there is an earlier state. -/
  canUndo : Bool
  /-- Whether there is a later state. -/
  canRedo : Bool
  /-- The label of the edit that undo takes back. -/
  undoLabel : Option Label
  /-- The label of the edit that redo brings back. -/
  redoLabel : Option Label

/-- The state that a move returns. -/
def returned (history : History State Label) : Move State Label → Option State
  | .undo => if history.canUndo then history.undo.current? else none
  | .redo => if history.canRedo then history.redo.current? else none
  | _ => none

/-- The history after a move. -/
def after (history : History State Label) : Move State Label → History State Label
  | .push state label => history.push state label
  | .undo => history.undo
  | .redo => history.redo
  | .clear => history.clear

/-- What a history shows beside what was returned. -/
def view (history : History State Label) (returned : Option State) : View State Label where
  returned := returned
  current := history.current?
  size := history.size
  index := history.index
  canUndo := history.canUndo
  canRedo := history.canRedo
  undoLabel := history.undoLabel?
  redoLabel := history.redoLabel?

/-- What is seen along a sequence of moves. -/
def views (history : History State Label) : List (Move State Label) → List (View State Label)
  | [] => []
  | move :: moves =>
    (history.after move).view (history.returned move) :: views (history.after move) moves

/-- The history after a sequence of moves. -/
def afterAll (history : History State Label) (moves : List (Move State Label)) :
    History State Label := moves.foldl after history

end History

/-- A zipper: the entries up to the current one, newest first, and those behind
it. -/
structure Zipper (State Label : Type) where
  /-- The entries up to the current one, which comes first. -/
  past : List (State × Label)
  /-- The later entries in order. -/
  future : List (State × Label)

namespace Zipper

open History (Move View)

variable {State Label : Type}

/-- The state that a move returns. -/
def returned (zipper : Zipper State Label) : Move State Label → Option State
  | .undo =>
    match zipper.past with
    | _ :: previous :: _ => some previous.1
    | _ => none
  | .redo => zipper.future.head?.map (·.1)
  | _ => none

/-- The zipper after a move. Recording keeps the newest entries up to a limit. -/
def after (limit : Nat) (zipper : Zipper State Label) : Move State Label → Zipper State Label
  | .push state label => ⟨((state, label) :: zipper.past).take limit, []⟩
  | .undo =>
    match zipper.past with
    | entry :: previous :: past => ⟨previous :: past, entry :: zipper.future⟩
    | _ => zipper
  | .redo =>
    match zipper.future with
    | entry :: future => ⟨entry :: zipper.past, future⟩
    | [] => zipper
  | .clear => ⟨[], []⟩

/-- What a zipper shows beside what was returned. -/
def view (zipper : Zipper State Label) (returned : Option State) : View State Label where
  returned := returned
  current := zipper.past.head?.map (·.1)
  size := zipper.past.length + zipper.future.length
  index := zipper.past.length - 1
  canUndo := 2 ≤ zipper.past.length
  canRedo := !zipper.future.isEmpty
  undoLabel := if 2 ≤ zipper.past.length then zipper.past.head?.map (·.2) else none
  redoLabel := zipper.future.head?.map (·.2)

/-- What is seen along a sequence of moves. -/
def views (limit : Nat) (zipper : Zipper State Label) :
    List (Move State Label) → List (View State Label)
  | [] => []
  | move :: moves =>
    (zipper.after limit move).view (zipper.returned move) ::
      views limit (zipper.after limit move) moves

end Zipper

/-- A history has the entries of a zipper, with the cursor at the head of the
past, and keeps to its limit. -/
structure History.Stands {State Label : Type} (history : History State Label) (limit : Nat)
    (zipper : Zipper State Label) : Prop where
  /-- The limit is the given one. -/
  limit_eq : history.limit = limit
  /-- The entries are the past and the future, oldest first. -/
  entries_eq : history.entries = zipper.past.reverse ++ zipper.future
  /-- The cursor is on the head of the past. -/
  cursor_eq : history.cursor = zipper.past.length
  /-- There are at most as many entries as are to be kept. -/
  bounded : zipper.past.length + zipper.future.length ≤ limit
  /-- Without a past there is no future. -/
  rooted : zipper.past = [] → zipper.future = []

namespace History.Stands

variable {State Label : Type} {history : History State Label} {limit : Nat}
  {zipper : Zipper State Label}

/-- The empty history stands for the empty zipper. -/
theorem empty (limit : Nat) : (History.empty limit : History State Label).Stands limit ⟨[], []⟩ :=
  ⟨rfl, rfl, rfl, Nat.zero_le _, fun _ => rfl⟩

/-- The number of entries. -/
theorem size_eq (stands : history.Stands limit zipper) :
    history.size = zipper.past.length + zipper.future.length := by
  rw [size, stands.entries_eq, List.length_append, List.length_reverse]

/-- The head of the past is the entry before the cursor. -/
theorem entry?_pred (stands : history.Stands limit zipper) {entry : State × Label}
    {past : List (State × Label)} (hpast : zipper.past = entry :: past) :
    history.entry? (history.cursor - 1) = some entry := by
  unfold entry?
  rw [stands.entries_eq, stands.cursor_eq, hpast, List.length_cons, Nat.add_sub_cancel,
    List.reverse_cons, List.append_assoc,
    List.getElem?_append_right (Nat.le_of_eq List.length_reverse), List.length_reverse, Nat.sub_self]
  rfl

/-- The head of the future is the entry at the cursor. -/
theorem entry?_cursor (stands : history.Stands limit zipper) :
    history.entry? history.cursor = zipper.future.head? := by
  unfold entry?
  rw [stands.entries_eq, stands.cursor_eq,
    List.getElem?_append_right (Nat.le_of_eq List.length_reverse), List.length_reverse, Nat.sub_self,
    List.head?_eq_getElem?]

/-- The current state is that of the head of the past. -/
theorem current?_eq (stands : history.Stands limit zipper) :
    history.current? = zipper.past.head?.map (·.1) := by
  cases hpast : zipper.past with
  | nil =>
    have hcursor : history.cursor = 0 := by rw [stands.cursor_eq, hpast, List.length_nil]
    rw [current?, if_pos hcursor]
    rfl
  | cons entry past =>
    have hcursor : history.cursor ≠ 0 := by
      rw [stands.cursor_eq, hpast]
      exact Nat.succ_ne_zero _
    rw [current?, if_neg hcursor, stands.entry?_pred hpast]
    rfl

/-- There is an earlier state when the past has two. -/
theorem canUndo_eq (stands : history.Stands limit zipper) :
    history.canUndo = decide (2 ≤ zipper.past.length) := by
  rw [canUndo, stands.cursor_eq]
  rfl

/-- There is a later state when there is a future. -/
theorem canRedo_eq (stands : history.Stands limit zipper) :
    history.canRedo = !zipper.future.isEmpty := by
  rw [canRedo, stands.size_eq, stands.cursor_eq]
  cases zipper.future with
  | nil => simp
  | cons entry future => simp

/-- A history shows what its zipper shows. -/
theorem view_eq (stands : history.Stands limit zipper) (returned : Option State) :
    history.view returned = zipper.view returned := by
  have hundo : history.undoLabel? =
      if 2 ≤ zipper.past.length then zipper.past.head?.map (·.2) else none := by
    rw [undoLabel?, stands.canUndo_eq]
    cases hpast : zipper.past with
    | nil => rfl
    | cons entry past =>
      rw [stands.entry?_pred hpast]
      simp
  have hredo : history.redoLabel? = zipper.future.head?.map (·.2) := by
    rw [redoLabel?, stands.canRedo_eq, stands.entry?_cursor]
    cases zipper.future <;> rfl
  rw [view, Zipper.view, stands.current?_eq, stands.size_eq, stands.canUndo_eq, stands.canRedo_eq,
    hundo, hredo, index, stands.cursor_eq]

/-- Recording a state puts it on the past, of which the newest are kept. -/
theorem push (stands : history.Stands limit zipper) (state : State) (label : Label) :
    (history.push state label).Stands limit ⟨((state, label) :: zipper.past).take limit, []⟩ := by
  have hentries : (history.push state label).entries =
      (((state, label) :: zipper.past).take limit).reverse := by
    have htake : history.entries.take history.cursor = zipper.past.reverse := by
      rw [stands.entries_eq, stands.cursor_eq, ← List.length_reverse, List.take_left]
    rw [History.push, htake, stands.limit_eq, ← List.reverse_cons]
    dsimp only
    rw [List.length_reverse, List.drop_reverse, List.reverse_inj, List.take_eq_take_iff]
    omega
  refine ⟨stands.limit_eq, ?_, ?_, ?_, fun _ => rfl⟩
  · rw [hentries, List.append_nil]
  · change (history.push state label).entries.length = _
    rw [hentries, List.length_reverse]
  · rw [List.length_take, List.length_nil]
    omega

/-- When the cursor is moved, the same entries are divided at another place. -/
theorem move {next : Zipper State Label} {cursor : Nat} (stands : history.Stands limit zipper)
    (same : next.past.reverse ++ next.future = zipper.past.reverse ++ zipper.future)
    (place : cursor = next.past.length) (some : next.past ≠ []) :
    History.Stands { history with cursor } limit next := by
  refine ⟨stands.limit_eq, stands.entries_eq.trans same.symm, place, ?_, fun h => absurd h some⟩
  have hlength := congrArg List.length same
  simp only [List.length_append, List.length_reverse] at hlength
  exact hlength ▸ stands.bounded

/-- Going back moves the head of the past to the future. -/
theorem undo {entry previous : State × Label} {past future : List (State × Label)}
    (stands : history.Stands limit ⟨entry :: previous :: past, future⟩) :
    history.undo.Stands limit ⟨previous :: past, entry :: future⟩ := by
  have hundo : history.undo = { history with cursor := history.cursor - 1 } := by
    rw [History.undo, stands.canUndo_eq]
    simp
  rw [hundo]
  refine stands.move (by simp) ?_ (List.cons_ne_nil _ _)
  rw [stands.cursor_eq]
  rfl

/-- Going forward moves the head of the future to the past. -/
theorem redo {entry : State × Label} {past future : List (State × Label)}
    (stands : history.Stands limit ⟨past, entry :: future⟩) :
    history.redo.Stands limit ⟨entry :: past, future⟩ := by
  have hredo : history.redo = { history with cursor := history.cursor + 1 } := by
    rw [History.redo, stands.canRedo_eq]
    rfl
  rw [hredo]
  refine stands.move (by simp) ?_ (List.cons_ne_nil _ _)
  rw [stands.cursor_eq]
  rfl

/-- Forgetting everything leaves neither past nor future. -/
theorem clear (stands : history.Stands limit zipper) :
    history.clear.Stands limit ⟨[], []⟩ :=
  ⟨stands.limit_eq, rfl, rfl, Nat.zero_le _, fun _ => rfl⟩

/-- A history follows its zipper through every move, and returns the same. -/
theorem after (stands : history.Stands limit zipper) (move : Move State Label) :
    history.returned move = zipper.returned move ∧
      (history.after move).Stands limit (zipper.after limit move) := by
  obtain ⟨past, future⟩ := zipper
  cases move with
  | push state label => exact ⟨rfl, stands.push state label⟩
  | clear => exact ⟨rfl, stands.clear⟩
  | undo =>
    match past, stands with
    | [], stands | [_], stands =>
      have hstay : history.canUndo = false := by simp [stands.canUndo_eq]
      simp only [returned, History.after, History.undo, hstay, Bool.false_eq_true, if_false]
      exact ⟨rfl, stands⟩
    | entry :: previous :: past, stands =>
      have hmove : history.canUndo = true := by simp [stands.canUndo_eq]
      refine ⟨?_, stands.undo⟩
      rw [returned, if_pos hmove]
      exact stands.undo.current?_eq
  | redo =>
    match future, stands with
    | [], stands =>
      have hstay : history.canRedo = false := by simp [stands.canRedo_eq]
      simp only [returned, History.after, History.redo, hstay, Bool.false_eq_true, if_false]
      exact ⟨rfl, stands⟩
    | entry :: future, stands =>
      have hmove : history.canRedo = true := by simp [stands.canRedo_eq]
      refine ⟨?_, stands.redo⟩
      rw [returned, if_pos hmove]
      exact stands.redo.current?_eq

/-- A history and its zipper show the same along every sequence of moves. -/
theorem views_eq (stands : history.Stands limit zipper) (moves : List (Move State Label)) :
    history.views moves = zipper.views limit moves := by
  induction moves generalizing history zipper with
  | nil => rfl
  | cons move moves ih =>
    obtain ⟨hreturned, hafter⟩ := stands.after move
    rw [views, Zipper.views, hreturned, hafter.view_eq, ih hafter]

/-- A history stands for some zipper after every sequence of moves. -/
theorem exists_afterAll (stands : history.Stands limit zipper) (moves : List (Move State Label)) :
    ∃ zipper, (history.afterAll moves).Stands limit zipper := by
  induction moves generalizing history zipper with
  | nil => exact ⟨zipper, stands⟩
  | cons move moves ih => exact ih (stands.after move).2

end History.Stands

namespace History

variable {State Label : Type}

/-- The cursor of a history is on an entry, unless there is none, and there are
not more entries than are to be kept. -/
structure Sound (history : History State Label) (limit : Nat) : Prop where
  /-- The limit is the given one. -/
  limit_eq : history.limit = limit
  /-- There are at most as many entries as are to be kept. -/
  bounded : history.size ≤ limit
  /-- The cursor is before the end. -/
  index_lt : history.index < history.size
  /-- The cursor is at the beginning or behind it, or there are no entries. -/
  index_ge : 0 ≤ history.index ∨ history.index = -1 ∧ history.size = 0

/-- What stands for a zipper is sound. -/
theorem Stands.sound {history : History State Label} {limit : Nat} {zipper : Zipper State Label}
    (stands : history.Stands limit zipper) : history.Sound limit where
  limit_eq := stands.limit_eq
  bounded := stands.size_eq ▸ stands.bounded
  index_lt := by
    rw [index, stands.cursor_eq, stands.size_eq]
    omega
  index_ge := by
    rw [index, stands.cursor_eq, stands.size_eq]
    cases hpast : zipper.past with
    | nil =>
      rw [stands.rooted hpast]
      exact .inr ⟨rfl, rfl⟩
    | cons entry past =>
      rw [List.length_cons]
      exact .inl (by omega)

/-- A whole number from one on is accepted as a limit unless it is too large. -/
theorem ofLimit_int {limit : Nat} (positive : 1 ≤ limit) (range : limit ≤ largestLimit) :
    (ofLimit (.int limit) : Outcome (History State Label)) = .ok (empty limit) := by
  have hlt : (Value.int limit).lt (.int 1) = .ok false := by
    rw [Value.lt_of_numbers rfl rfl, Number.lt_int, decide_eq_false (by omega)]
  unfold ofLimit
  rw [hlt]
  exact if_pos range

/-- A limit that is accepted gives an empty history that can hold something. -/
theorem exists_of_ofLimit {limit : Value} {history : History State Label}
    (h : ofLimit limit = .ok history) : ∃ count, 1 ≤ count ∧ history = empty count := by
  simp only [ofLimit, Outcome.bind_eq_ok] at h
  obtain ⟨below, hbelow, h⟩ := h
  cases below with
  | true => cases h
  | false =>
    cases limit with
    | bool b =>
      cases h
      exact ⟨1, le_rfl, rfl⟩
    | number n =>
      cases n with
      | real x => cases h
      | int n =>
        rw [Value.lt_of_numbers rfl rfl, Number.lt_int, Except.ok.injEq, decide_eq_false_iff_not]
          at hbelow
        simp only [Bool.false_eq_true, if_false] at h
        split at h
        · cases h
          exact ⟨n.toNat, by omega, rfl⟩
        · cases h
    | _ => cases h

/-- Whatever is done with an empty history, it shows what a zipper shows that
keeps at most as many entries, and it stays sound. -/
theorem views_empty_eq (limit : Nat) (moves : List (Move State Label)) :
    (1 ≤ limit → limit ≤ largestLimit →
      (ofLimit (.int limit) : Outcome (History State Label)) = .ok (empty limit)) ∧
    (empty limit).views moves = (⟨[], []⟩ : Zipper State Label).views limit moves ∧
    (afterAll (empty limit) moves).Sound limit := by
  obtain ⟨zipper, stands⟩ := (Stands.empty limit).exists_afterAll moves
  exact ⟨ofLimit_int, (Stands.empty limit).views_eq moves, stands.sound⟩

end History

end Montage
