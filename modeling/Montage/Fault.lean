import Montage.Rejection

/-!
# Everything that can go wrong

An operation that does not return ends in a fault. Some faults are findings of
the library and come with a message; the others say what about a value made it
unusable.
-/

namespace Montage

/-- Why a render graph cannot be built or written out. -/
inductive GraphFault where
  /-- A stage consumes a stream that nothing before it produces. -/
  | unknownStream (kind label : Text)
  /-- A stream is consumed a second time. -/
  | consumedTwice (label : Text)
  /-- A stream is produced a second time. -/
  | producedTwice (label : Text)
  /-- The picture-in-picture geometry cannot be used. -/
  | overlayGeometry (clip : Value)
  /-- A trim stage names a filter without an expression. -/
  | unknownFilter (filter : Value)
  /-- A stage is of no known kind. -/
  | unknownStage (kind : Text)
  /-- The construction ended in a fault of another kind. -/
  | construction

/-- The message that goes with each graph fault. -/
def GraphFault.message : GraphFault → Text
  | .unknownStream kind label =>
    "Stage " ++ kind ++ " consumes unknown stream [" ++ label ++ "]"
  | .consumedTwice label => "Stream [" ++ label ++ "] is consumed twice"
  | .producedTwice label => "Stream [" ++ label ++ "] is produced twice"
  | .overlayGeometry clip => "Invalid overlay track geometry on clip " ++ clip.display
  | .unknownFilter filter => "Unknown filter: " ++ filter.display
  | .unknownStage kind => "Unknown stage kind: " ++ kind
  | .construction => "Failed to build render graph"

/-- Why an argument or a file is not valid, apart from edits and exports. -/
inductive Invalidity where
  /-- Not-a-number has no place in a range. -/
  | clampNaN
  /-- A history must be able to hold one snapshot. -/
  | historyLimit
  /-- A document holds no timeline. -/
  | noTimeline
  /-- A clip of a document does not have the shape of a clip. -/
  | clipData (cause : Malformation)
  /-- A project file does not hold a document. -/
  | fileFormat
  /-- A project file holds something other than a record. -/
  | notARecord
  /-- A project without a file was to be saved. -/
  | noSavePath
deriving DecidableEq

/-- The message that goes with each kind of invalid data. -/
def Invalidity.message : Invalidity → Text
  | .clampNaN => "Cannot clamp NaN"
  | .historyLimit => "History limit must be at least 1"
  | .noTimeline => "Timeline data not found in project"
  | .clipData cause => "Invalid clip data in project: " ++ cause.message
  | .fileFormat => "Invalid project file format"
  | .notARecord => "Project data not found in file"
  | .noSavePath => "No file path to save to"

/-- Why something stands for no number or no variable, or has not the parts that
are needed. -/
inductive Unreadable where
  /-- A text is no whole number. -/
  | notWhole (text : Text)
  /-- A text is no decimal. -/
  | notDecimal (text : Text)
  /-- The double that is not-a-number has no whole part. -/
  | noWholePart
  /-- A whole number has more digits than numerals may have. -/
  | numeralTooLong (digits : Nat)
  /-- A text has no decimal places. -/
  | noPlaces
  /-- A name or a text cannot be that of an environment variable. -/
  | notAVariable
  /-- There are not two parts but fewer. -/
  | tooFewParts (count : Nat)
  /-- There are not two parts but more. -/
  | tooManyParts
deriving DecidableEq

namespace Unreadable

/-- How many characters of a text are shown that is no whole number. -/
def shownText : Nat := 200

/-- The words for each cause. -/
def message : Unreadable → Text
  | .notWhole text =>
    "invalid literal for int() with base 10: " ++
      ⟨text.quoted.points.take shownText⟩
  | .notDecimal text => "could not convert string to float: " ++ Text.quoted text
  | .noWholePart => "cannot convert float NaN to integer"
  | .numeralTooLong digits =>
    "Exceeds the limit (4300 digits) for integer string conversion: value has " ++
      toString digits ++ " digits; use sys.set_int_max_str_digits() to increase the limit"
  | .noPlaces => "Unknown format code 'f' for object of type 'str'"
  | .notAVariable => "illegal environment variable name"
  | .tooFewParts count =>
    "not enough values to unpack (expected 2, got " ++ toString count ++ ")"
  | .tooManyParts => "too many values to unpack (expected 2)"

/-- The cause for a list that has not two items. -/
def ofCount (count : Nat) : Unreadable := if count < 2 then .tooFewParts count else .tooManyParts

end Unreadable

/-- What is said of a document that is nested too deep. -/
def nestingMessage : Container → Text
  | .list => "maximum recursion depth exceeded while decoding a JSON array from a unicode string"
  | .record => "maximum recursion depth exceeded while decoding a JSON object from a unicode string"

/-- What a failed operation ends in. -/
inductive Fault where
  /-- An edit, a request or an export was turned down. -/
  | rejected (why : Rejection)
  /-- A render graph could not be built or written out. -/
  | uncompilable (why : GraphFault)
  /-- The media engine reported a failure. -/
  | exportFailed (message : Text)
  /-- An argument or a file is not valid. -/
  | invalid (why : Invalidity)
  /-- A media file or a probe report could not be read. -/
  | unreadableMedia (message : Text)
  /-- A file or a program does not exist. -/
  | fileMissing (message : Text)
  /-- The operating system refused. -/
  | systemFailure (message : Text)
  /-- A path names a directory where a file is needed. -/
  | isDirectory
  /-- A path leads through a file as if it were a directory. -/
  | pathBlocked
  /-- A value has a kind that cannot be used in its place. -/
  | illTyped
  /-- A value that is no record was asked for its fields. -/
  | noMembers
  /-- A required field is absent. -/
  | missingField (name : Text)
  /-- A position lies outside a list. -/
  | outOfRange
  /-- An integer is too large for a double. -/
  | tooLarge
  /-- Something stands for no number or no variable, or has not the parts that
  are needed. -/
  | unreadable (why : Unreadable)
  /-- A document is nested too deep; the innermost value is of this kind. -/
  | tooDeep (innermost : Container)
  /-- More directories than can be made at once are missing. -/
  | tooManyDirectories
  /-- A text holds a surrogate that stands for nothing outside. -/
  | notEncodable
  /-- An environment variable has no name. -/
  | unnamed

namespace Fault

/-- The library's own message, for the faults that have one. -/
def message? : Fault → Option Text
  | .rejected why => some why.message
  | .uncompilable why => some why.message
  | .exportFailed message => some message
  | .invalid why => some why.message
  | .unreadableMedia message => some message
  | .fileMissing message => some message
  | .systemFailure message => some message
  | _ => none

/-- The message, or nothing at all. -/
def message (fault : Fault) : Text := fault.message?.getD ""

/-- The fault as a malformation of the record being read, if it is one. -/
def malformation? : Fault → Option Malformation
  | .missingField name => some (.missingField name)
  | .illTyped => some .illTyped
  | _ => none

end Fault

/-- A result or the fault that prevented it. -/
abbrev Outcome (α : Type) := Except Fault α

/-- Turns something down. -/
def reject {α : Type} (why : Rejection) : Outcome α := .error (.rejected why)

/-- A value, or a fault in its absence. -/
def orFault {α : Type} (fault : Fault) : Option α → Outcome α
  | some a => .ok a
  | none => .error fault

end Montage
