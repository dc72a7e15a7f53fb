import Montage.Note
import Montage.Timeline.Geometry
import Montage.Timeline.Clip

/-!
# Records of outside calls

Compiling and exporting ask things of the world outside. Every such call is
recorded in the order in which it happens, together with the notes left on the
way, so that statements about their order are statements about a list.
-/

namespace Montage

/-- What is asked of the world outside. -/
inductive OutsideCall where
  /-- Whether a source can be found. -/
  | look (source : Source)
  /-- How large the picture of a source is. -/
  | probe (source : Source)
  /-- To start the media engine; `started` tells whether that worked. -/
  | launch (command : List Value) (started : Bool)
  /-- To stop the engine that was started last. -/
  | terminate
  /-- To wait for the engine that was started last. -/
  | await

/-- The record of a compilation or an export. -/
structure Trace where
  /-- The outside calls so far, in order. -/
  calls : List OutsideCall
  /-- The notes so far, in order. -/
  notes : List Note

namespace Trace

/-- The record of work that has not begun. -/
def empty : Trace := ⟨[], []⟩

/-- Adds an outside call. -/
def record (call : OutsideCall) (trace : Trace) : Trace :=
  { trace with calls := trace.calls ++ [call] }

/-- Adds notes. -/
def leave (notes : List Note) (trace : Trace) : Trace :=
  { trace with notes := trace.notes ++ notes }

/-- The paths of the sources that were looked for. -/
def looked (trace : Trace) : List Value :=
  trace.calls.filterMap fun
    | .look source => some source.path
    | _ => none

/-- The paths of the sources that were probed. -/
def probed (trace : Trace) : List Value :=
  trace.calls.filterMap fun
    | .probe source => some source.path
    | _ => none

/-- The command lines that the engine was to be started with. -/
def commands (trace : Trace) : List (List Value) :=
  trace.calls.filterMap fun
    | .launch command _ => some command
    | _ => none

/-- How often the engine that was started last has been stopped, after one more
call; nothing if none was started. -/
def countTermination (count : Option Nat) : OutsideCall → Option Nat
  | .launch _ true => some 0
  | .terminate => count.map (· + 1)
  | _ => count

/-- How often the engine that was started last has been stopped; nothing if
none was started. -/
def terminations? (trace : Trace) : Option Nat := trace.calls.foldl countTermination none

end Trace

end Montage
