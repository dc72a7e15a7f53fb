import Montage.Proofs.Export.Attended
import Montage.Proofs.Graph.Faults
import Montage.Proofs.Graph.Inputs
import Montage.Proofs.Graph.Routes

/-!
# How exports fail

An export that is listened to ends in one terminal event, and a request that is
turned down makes nothing but a failure. The exceptions are few: the compilation
ends in something other than a rejection, a file to read is no text, the engine
cannot be listened to, or one of its lines tells a position that is not
understood.
-/

namespace Montage

open Outcome

/-! ## Lines -/

namespace Progress

/-- A fault that a line of the engine ends in when the whole lasts for `total`
seconds, with what is to blame. -/
inductive Misread (total : Binary64) (line : Value) : Fault → Prop
  /-- It is no text. -/
  | wordless (odd : ∀ text, line ≠ .text text) : Misread total line .noMembers
  /-- There is no double for the position. -/
  | distant (text : Text) (units : Int) (shown : line = .text text)
      (reads : reading? text = some units) (distant : Distant units) :
      Misread total line .tooLarge
  /-- Neither the position nor the whole has an end. -/
  | endless (text : Text) (units : Int) (shown : line = .text text)
      (reads : reading? text = some units) (far : ¬ Near units)
      (infinite : total.isFinite = false) :
      Misread total line (.invalid .clampNaN)

/-- Reading the position of a line fails if it is distant. -/
theorem faults_position? (total : Binary64) (text : Text) :
    Faults (Misread total (.text text)) (position? text) := by
  intro fault hfault
  cases hreads : reading? text with
  | none =>
    rw [position?_of_none hreads] at hfault
    cases hfault
  | some units =>
    rw [position?_of_some hreads] at hfault
    cases hdiv : (Number.int units).div? unitsPerSecond with
    | some seconds =>
      rw [hdiv] at hfault
      cases hfault
    | none =>
      rw [hdiv] at hfault
      cases hfault
      exact .distant text units rfl hreads hdiv

/-- A position in seconds is finite, and it is that of the units that a line tells. -/
theorem exists_reading_of_position? {text : Text} {x : Binary64}
    (h : position? text = .ok (some x)) :
    ∃ units, reading? text = some units ∧ x.isFinite = true ∧
      (Near units → x = seconds units) := by
  cases hreads : reading? text with
  | none =>
    rw [position?_of_none hreads] at h
    cases h
  | some units =>
    refine ⟨units, rfl, ?_, fun near => ?_⟩
    · rw [position?_of_some hreads] at h
      cases hdiv : (Number.int units).div? unitsPerSecond with
      | none =>
        rw [hdiv] at h
        cases h
      | some y =>
        rw [hdiv] at h
        have hequal : y = x := Option.some.inj (Except.ok.inj h)
        change (Number.int units).div? (.int 1000000) = some y at hdiv
        rw [Number.div?, if_neg (by decide), Option.ite_none_right_eq_some] at hdiv
        rw [← hequal, ← Option.some.inj hdiv.2]
        exact hdiv.1
    · rw [position?_of_near hreads near] at h
      exact (Option.some.inj (Except.ok.inj h)).symm

end Progress

namespace ProgressTracker

open Progress

/-- The hundredfold of what is finite is a number. -/
theorem hundredfold_isNaN {x : Binary64} (finite : x.isFinite = true) :
    (x.mul 100).isNaN = false := by
  have hplace : (Number.real 100).place? = some (.inner (100 * Grid.unitsPerOne : Nat)) := by
    decide +kernel
  obtain ⟨t, b, wide, hhundred, _⟩ := Binary64.isMoment_iff.mp ⟨_, hplace⟩
  rw [hhundred]
  cases x with
  | nan origin => cases finite
  | infinity s => cases finite
  | finite s a grid =>
    rw [Binary64.mul]
    rcases Binary64.ofUnits_cases (s != t) (Grid.nearest (a * b) Grid.unitsPerOne) with
      ⟨fine, he⟩ | he
    · rw [he]
      rfl
    · rw [he]
      rfl

/-- The quotient of numbers is one by a positive one that is finite. -/
theorem div_isNaN_of_finite {x y : Binary64} (number : x.isNaN = false) (finite : y.isFinite = true)
    (positive : (Number.real y).le 0 = false) : (x.div y).isNaN = false := by
  cases hx : x.isFinite with
  | true =>
    have hy : y.isNaN = false := by
      cases y with
      | nan origin => cases finite
      | infinity s => cases finite
      | finite s a grid => rfl
    exact div_isNaN hx hy positive
  | false =>
    cases y with
    | nan origin => cases finite
    | infinity s => cases finite
    | finite t b wide =>
      cases x with
      | nan origin => cases number
      | infinity s => rfl
      | finite s a grid => cases hx

/-- Recording a position fails if neither it nor the whole has an end. -/
theorem faults_update {total : Number} {x : Binary64} (hx : total.toReal? = some x)
    (number : x.isNaN = false) {text : Text} {seconds : Binary64}
    (told : position? text = .ok (some seconds)) {tracker : ProgressTracker}
    (whole : tracker.total = .number total) :
    Faults (Misread x (.text text)) (tracker.update (.real seconds)) := by
  obtain ⟨units, hreads, hfinite, hnear⟩ := exists_reading_of_position? told
  have hle : tracker.total.le (.int 0) = .ok ((Number.real x).le 0) := by
    rw [whole, ← Number.le_zero_of_toReal? hx]
    exact Value.le_of_numbers rfl rfl
  have hmul : (Value.real seconds).mul (.real 100) = .ok (.real (seconds.mul 100)) := rfl
  have hdiv : (Value.number (.real (seconds.mul 100))).div (.number total) =
      .ok ((seconds.mul 100).div x) :=
    (Value.div_eq_ok rfl rfl).mpr (Number.div?_real _ hx)
  rw [update, hle, ok_bind]
  refine faults_ite (fun _ => faults_pure _) fun hpositive => ?_
  rw [Bool.not_eq_true] at hpositive
  refine Faults.bind ?_ fun percent _ => faults_ite (fun _ => faults_pure _) fun _ => faults_pure _
  rw [percentOf, hmul, ok_bind, whole, hdiv, ok_bind]
  refine faults_ite (fun hnan => faults_error ?_) fun _ => faults_pure _
  refine .endless text units rfl hreads (fun near => ?_) (Bool.eq_false_iff.mpr fun finite => ?_)
  · have hhundredfold : (seconds.mul 100).isFinite = true := by
      rw [hnear near]
      exact hundredfold_isFinite near
    rw [div_isNaN hhundredfold number hpositive] at hnan
    cases hnan
  · rw [div_isNaN_of_finite (hundredfold_isNaN hfinite) finite hpositive] at hnan
    cases hnan

/-- The duration of the whole does not change. -/
theorem total_of_update {tracker next : ProgressTracker} {seconds : Value}
    {percent : Option Binary64} (h : tracker.update seconds = .ok (percent, next)) :
    next.total = tracker.total := by
  rcases update_cases h with ⟨_, rfl⟩ | ⟨_, _, rfl, _⟩
  · rfl
  · rfl

end ProgressTracker

namespace Export

open Exporting Progress

/-! ## Parts of an export -/

/-- The export ends in a fault with a property, and not because the consumer stopped
listening. -/
def Halt.IsFault (P : Fault → Prop) (halt : Halt) : Prop := ∃ fault, halt = .faulted fault ∧ P fault

variable {α β : Type} {P : Fault → Prop} {consumer : Consumer}

/-- A part of an export throws the faults of what it asks for. -/
theorem throws_ofOutcome_bind {outcome : Outcome α} {rest : α → Exporting β}
    (h : Faults P outcome) (next : ∀ a, outcome = .ok a → Work.Throws (Halt.IsFault P) (rest a)) :
    Work.Throws (Halt.IsFault P) (ofOutcome outcome >>= rest) := fun run =>
  ends_ofOutcome_bind (fun a ha => next a ha run) fun fault hfault halt hhalt => by
    cases hhalt
    exact ⟨fault, rfl, h fault hfault⟩

/-- A change throws nothing. -/
theorem throws_modify {Q : Halt → Prop} (change : Run → Run) :
    Work.Throws Q (modify change : Exporting Unit) :=
  Work.throws_of_ok fun _ => ⟨_, _, run_modify change⟩

/-- A note throws nothing. -/
theorem throws_note {Q : Halt → Prop} (severity : Severity) (text : Text) :
    Work.Throws Q (note severity text) := throws_modify _

/-- Returning throws nothing. -/
theorem throws_pure {Q : Halt → Prop} (a : α) : Work.Throws Q (pure a : Exporting α) :=
  Work.throws_of_ok fun _ => ⟨_, _, rfl⟩

/-- Looking at the export throws nothing. -/
theorem throws_get_bind {Q : Halt → Prop} {rest : Run → Exporting α}
    (next : ∀ run, Work.Throws Q (rest run)) : Work.Throws Q (get >>= rest) :=
  (Work.throws_of_ok fun _ => ⟨_, _, run_get⟩).bind next

/-- An event that is listened to throws nothing. -/
theorem throws_emit {Q : Halt → Prop} (listens : ∀ events, (consumer events).closes = false)
    (event : Event) : Work.Throws Q (emit consumer event) :=
  Work.throws_of_ok fun _ => ⟨_, _, run_emit (listens _)⟩

/-! ## The engine -/

section Engine

variable {total : Number} {x : Binary64} (hx : total.toReal? = some x) (number : x.isNaN = false)
  (listens : ∀ events, (consumer events).closes = false)

include hx number listens

/-- Following lines throws what one of them is to blame for. -/
theorem throws_follow {lines : List Value}
    (blame : ∀ line ∈ lines, ∀ fault, Misread x line fault → P fault) {tracker : ProgressTracker}
    (whole : tracker.total = .number total) :
    Work.Throws (Halt.IsFault P) (follow consumer tracker lines) := by
  induction lines generalizing tracker with
  | nil => exact throws_pure tracker
  | cons line lines ih =>
    have hline := blame line List.mem_cons_self
    have hrest : ∀ {next : ProgressTracker}, next.total = .number total →
        Work.Throws (Halt.IsFault P) (follow consumer next lines) :=
      ih fun other hother => blame other (List.mem_cons_of_mem line hother)
    rw [follow]
    refine throws_get_bind fun run => ?_
    split
    · exact throws_pure tracker
    refine throws_ofOutcome_bind (fun fault hfault => hline fault ?_) fun text htext => ?_
    · cases line with
      | text => cases hfault
      | _ =>
        cases hfault
        exact .wordless fun _ h => by cases h
    obtain rfl : line = .text text := by
      cases line with
      | text => exact congrArg Value.text (Except.ok.inj htext)
      | _ => cases htext
    refine throws_ofOutcome_bind ((faults_position? x text).mono hline) fun told htold => ?_
    cases told with
    | none =>
      dsimp only
      split
      · exact throws_pure tracker
      · exact hrest whole
    | some seconds =>
      refine throws_ofOutcome_bind
        ((ProgressTracker.faults_update hx number htold whole).mono hline)
        fun updated hupdated => ?_
      obtain ⟨percent?, next⟩ := updated
      have hnext : next.total = .number total :=
        (ProgressTracker.total_of_update hupdated).trans whole
      cases percent? with
      | none => exact hrest hnext
      | some percent => exact (throws_emit listens _).bind fun _ => hrest hnext

/-- Attending an engine throws what one of its lines is to blame for. -/
theorem throws_attend {engine : EngineRun}
    (blame : ∀ line ∈ engine.lines, ∀ fault, Misread x line fault → P fault) :
    Work.Throws (Halt.IsFault P) (attend consumer (.number total) engine) := by
  have hwatch : Work.Throws (Halt.IsFault P) (watch consumer (.number total) engine) := by
    refine (throws_emit listens _).bind fun _ => ?_
    refine (throws_follow hx number listens blame rfl).bind fun tracker => ?_
    refine throws_get_bind fun run => ?_
    split
    · exact throws_pure _
    · exact (throws_modify _).bind fun _ => throws_pure _
  refine (throws_modify _).bind fun _ => ?_
  refine (hwatch.tryCatch fun halt hhalt => ?_).bind fun watched => ?_
  · refine (throws_modify _).bind fun _ => (throws_modify _).bind fun _ run other hother => ?_
    cases hother
    exact hhalt
  · split
    · exact (throws_modify _).bind fun _ => (throws_modify _).bind fun _ => throws_pure watched
    · exact (throws_modify _).bind fun _ => throws_pure watched

end Engine

/-- Reporting throws nothing. -/
theorem throws_report {Q : Halt → Prop} (listens : ∀ events, (consumer events).closes = false)
    (path : Text) (engine : EngineRun) (watched : ProgressTracker × Option Value) :
    Work.Throws Q (report consumer path engine watched) := by
  obtain ⟨tracker, status⟩ := watched
  cases status with
  | none => exact throws_emit listens _
  | some status =>
    have hsuccess : Work.Throws Q (do
        note .info ("Export complete: " ++ path)
        emit consumer (.success (.text path))) :=
      (throws_note _ _).bind fun _ => throws_emit listens _
    rw [report]
    split
    · split
      · exact (throws_emit listens _).bind fun _ => hsuccess
      · exact hsuccess
    · exact (throws_note _ _).bind fun _ => throws_emit listens _

/-- Only a word that is no text is to blame for a command line without words. -/
theorem faults_wordsOf (command : List Value) : Faults (· = .illTyped) (wordsOf command) :=
  faults_mapM fun value _ => by
    split
    · exact faults_ok _
    · exact faults_error rfl

/-! ## The export -/

/-- A fault that an export ends in, with what is to blame. -/
inductive Blamed (studio : Studio) (request : Request) : Fault → Prop
  /-- The compilation does not turn the request down and does not compile it either. -/
  | compilation (fault : Fault)
      (escape : Compile.Escape studio.outside (.clips request.clips) request.options fault) :
      Blamed studio request fault
  /-- A file to read is no text. -/
  | file (clip : Clip) (shown : clip ∈ request.clips)
      (nameless : ¬ clip.Reads fun path => ∃ file, path = .text file) :
      Blamed studio request .illTyped
  /-- The engine cannot be listened to. -/
  | engine (fault : Fault) (broken : studio.launch = .broken fault) : Blamed studio request fault
  /-- The engine prints a line that is not understood. -/
  | line (graph : RenderGraph) (before after : Trace) (total : Binary64) (engine : EngineRun)
      (compiled : (Compile.run studio.outside (.clips request.clips) request.options).run.run
        before = (.ok graph, after)) (lasts : graph.duration.toReal = .ok total)
      (running : studio.launch = .running engine) (line : Value) (printed : line ∈ engine.lines)
      (fault : Fault) (misread : Misread total line fault) : Blamed studio request fault

variable {studio : Studio} {request : Request} {encoder : Encoder} {graph : RenderGraph}
  {before after : Trace}

/-- The command line of a compiled request consists of words, or a file to read is to
blame. -/
theorem faults_wordsOf_command
    (compiled : (Compile.run studio.outside (.clips request.clips) request.options).run.run
      before = (.ok graph, after)) {command : List Value}
    (spoken : (∀ input ∈ graph.inputs, ∃ file, input.path = .text file) →
      ∀ value ∈ command, ∃ word, value = .text word) :
    Faults (Blamed studio request) (wordsOf command) := by
  by_cases hreads : ∀ clip ∈ request.clips, clip.Reads fun path => ∃ file, path = .text file
  · obtain ⟨words, hwords⟩ := exists_wordsOf (spoken (Compile.reads_of_run compiled hreads))
    rw [hwords]
    exact faults_ok words
  · simp only [not_forall] at hreads
    obtain ⟨clip, hclip, hnameless⟩ := hreads
    refine (faults_wordsOf command).mono fun fault hfault => ?_
    rw [hfault]
    exact .file clip hclip hnameless

/-- Rendering a compiled request that is listened to throws what something is to blame
for. -/
theorem throws_of_execute (listens : ∀ events, (consumer events).closes = false)
    (typed : encoder.Typed) (searches : studio.Searches)
    (compiled : (Compile.run studio.outside (.clips request.clips) request.options).run.run
      before = (.ok graph, after)) (path : Text) (trace : Trace) :
    Work.Ends (execute consumer studio graph path) (.start encoder trace)
      fun outcome _ => ∀ halt, outcome = .error halt → halt.IsFault (Blamed studio request) := by
  obtain ⟨file, hfile⟩ := exists_outputPath path
  obtain ⟨_, _, total, x, hjoins, hduration, hx, number⟩ := Compile.exists_joins_of_run compiled
  have hlasts : graph.duration.toReal = .ok x := by
    rw [hduration]
    exact orFault_eq_ok.mpr hx
  have hrun := run_execute consumer studio graph encoder hfile trace
  rw [Work.Ends, hrun]
  rcases Encoder.engine_cases typed searches with ⟨location, hlocation⟩ | ⟨message, hmissing⟩
  · obtain ⟨command, hcommand, hspoken, _⟩ :=
      exists_commandLine hjoins (typed.settingsFor file) rfl location
    rw [Encoder.result_command graph file hlocation, hcommand, hduration]
    have hlaunch : Work.Throws (Halt.IsFault (Blamed studio request))
        (launch consumer studio (.number total) file (Encoder.withProgress command)) := by
      refine throws_ofOutcome_bind (faults_wordsOf_command compiled hspoken) fun words _ => ?_
      refine (throws_note _ _).bind fun _ => ?_
      cases hlaunch : studio.launch with
      | refused reason => exact (throws_modify _).bind fun _ => throws_emit listens _
      | broken fault =>
        refine (throws_modify _).bind fun _ run halt hhalt => ?_
        cases hhalt
        exact ⟨fault, rfl, .engine fault hlaunch⟩
      | running engine =>
        refine (throws_modify _).bind fun _ => ?_
        refine (throws_attend hx number listens fun line hline fault hmisread => ?_).bind
          fun watched => throws_report listens file engine watched
        exact .line graph before after x engine compiled hlasts hlaunch line hline fault hmisread
    exact hlaunch _
  · rw [Encoder.result_command_of_error graph file hmissing]
    have hfailure : Work.Throws (Halt.IsFault (Blamed studio request)) (do
        note .error ("Could not build FFmpeg command: " ++ message)
        emit consumer (.failure message)) :=
      (throws_note _ _).bind fun _ => throws_emit listens _
    exact hfailure _

/-- What an export comes to that is listened to. -/
structure Finish.Concludes (studio : Studio) (request : Request) (before : Trace)
    (done : Finish) : Prop where
  /-- For a fault, something is to blame. -/
  fault : ∀ fault, done.fault? = some fault → Blamed studio request fault
  /-- Otherwise the last event is the only terminal one. -/
  concluded : done.fault? = none → Concluded done.run.events
  /-- A request that is turned down makes one failure, and no engine is started. -/
  rejected : ∀ fault message,
    ((Compile.run studio.outside (.clips request.clips) request.options).run.run before).1 =
      .error fault → rejection? fault = some message →
    done.fault? = none ∧ done.run.events = [.failure message] ∧
      done.run.trace.commands = before.commands

/-- A verdict turns a request down. -/
theorem exists_rejection {fault : Fault} (h : fault.IsVerdict) :
    ∃ message, rejection? fault = some message := by
  cases fault with
  | rejected why => exact ⟨why.message, rfl⟩
  | uncompilable why => exact ⟨why.message, rfl⟩
  | _ => exact h.elim

/-- An export whose request is not compiled concludes. -/
theorem concludes_of_error {fault : Fault}
    (compiled : (Compile.run studio.outside (.clips request.clips) request.options).run.run
      before = (.error fault, after))
    (consumer : Consumer) (render : RenderGraph → Exporting Unit) :
    (finish (resume consumer render (.error fault)) (.start encoder after)).Concludes studio request
      before := by
  have hfails := Compile.fails_run studio.outside (.clips request.clips) request.options before
  rw [Work.Ends, compiled] at hfails
  obtain ⟨hasks, hescapes⟩ := hfails
  cases hrejection : rejection? fault with
  | none =>
    rw [resume, hrejection]
    refine ⟨fun other h => ?_, fun h => (by cases h), fun other message hother h => ?_⟩
    · cases h
      refine .compilation fault ((hescapes fault rfl).resolve_left fun hverdict => ?_)
      obtain ⟨message, h⟩ := exists_rejection hverdict
      rw [h] at hrejection
      cases hrejection
    · rw [compiled] at hother
      cases hother
      rw [h] at hrejection
      cases hrejection
  | some message =>
    rw [resume, hrejection, finish_rejected]
    generalize hnoted : (Run.start encoder after).leave _ = noted
    have hevents : (noted.tell consumer (.failure message)).events = [.failure message] := by
      rw [Run.events_tell, ← hnoted]
      rfl
    have hstarted : (noted.tell consumer (.failure message)).trace.commands = before.commands := by
      rw [← hasks.commands_eq]
      refine (Run.commands_tell (.failure message)).trans ?_
      rw [← hnoted]
      rfl
    refine ⟨fun _ h => (by cases h), fun _ => ?_, fun other text hother h => ⟨rfl, ?_, hstarted⟩⟩
    · rw [hevents]
      exact concluded_failure message
    · rw [compiled] at hother
      cases hother
      rw [h] at hrejection
      cases hrejection
      exact hevents

/-- An export whose request is compiled concludes. -/
theorem concludes_of_graph (listens : ∀ events, (consumer events).closes = false)
    (typed : encoder.Typed) (free : encoder.holdsProcess = false) (searches : studio.Searches)
    (compiled : (Compile.run studio.outside (.clips request.clips) request.options).run.run
      before = (.ok graph, after)) (path : Text) :
    (finish (execute consumer studio graph path) (.start encoder after)).Concludes studio request
      before := by
  have hthrows := throws_of_execute listens typed searches compiled path after
  have hseen := seesOff_of_execute free consumer studio graph path after
  unfold Work.Ends at hthrows hseen
  cases hrun : (execute consumer studio graph path).run.run (.start encoder after) with
  | mk outcome ended =>
    rw [hrun] at hthrows hseen
    obtain ⟨hended, hfault⟩ := finish_of_run hrun
    refine ⟨fun fault h => ?_, fun quiet => ?_, fun fault message hother _ => ?_⟩
    · obtain ⟨other, hother, hblamed⟩ := hthrows _ ((hfault fault).mp h)
      cases hother
      exact hblamed
    · cases outcome with
      | ok a =>
        obtain ⟨told, hevents, hconcluded⟩ := hseen.concluded a rfl
        rw [hended, hevents]
        exact hconcluded
      | error halt =>
        obtain ⟨fault, hhalt, _⟩ := hthrows halt rfl
        rw [(hfault fault).mpr (congrArg Except.error hhalt)] at quiet
        cases quiet
    · rw [compiled] at hother
      cases hother

/-- An export that goes on with what compiling its request came to concludes. -/
theorem concludes_of_resume (listens : ∀ events, (consumer events).closes = false)
    (typed : encoder.Typed) (free : encoder.holdsProcess = false) (searches : studio.Searches)
    {outcome : Outcome RenderGraph}
    (compiled : (Compile.run studio.outside (.clips request.clips) request.options).run.run
      before = (outcome, after)) (path : Text) :
    (finish (resume consumer (fun graph => execute consumer studio graph path) outcome)
      (.start encoder after)).Concludes studio request before := by
  cases outcome with
  | error fault => exact concludes_of_error compiled consumer _
  | ok graph => exact concludes_of_graph listens typed free searches compiled path

/-- An export that is listened to ends in one terminal event, unless something is to
blame for a fault. -/
theorem concludes_of_run (listens : ∀ events, (consumer events).closes = false)
    (typed : encoder.Typed) (free : encoder.holdsProcess = false) (searches : studio.Searches)
    (request : Request) (trace : Trace) :
    (Export.run consumer studio request encoder trace).Concludes studio request trace := by
  obtain ⟨compiled, asked, hcompiled, hrun⟩ :=
    exists_run_eq_resume consumer studio request encoder trace
  rw [hrun]
  exact concludes_of_resume listens typed free searches hcompiled request.outputPath

/-- A clip is exported with an engine that goes back once. -/
theorem concludes_of_wavering :
    (Export.run .listening (playing wavering) ⟨[Compile.following], "film", .default⟩
      (.ofEngine (.text "ffmpeg") none) Trace.empty).Concludes (playing wavering)
      ⟨[Compile.following], "film", .default⟩ Trace.empty :=
  have htyped : (Encoder.ofEngine (.text "ffmpeg") none).Typed :=
    ⟨fun _ => ⟨"ffmpeg", rfl⟩, fun _ h => by cases h⟩
  concludes_of_run (fun _ => rfl) htyped rfl (.inl ⟨"ffmpeg", rfl⟩) _ _

/-- A request for an export with a list for a resolution. -/
def listed : Value := .record [
  ("clips", .list [.record [("id", .text "b"),
    ("sourceRef", .record [("path", .text "b.mp4"), ("duration", .int 5)]),
    ("inTime", .int 0), ("outTime", .int 2), ("startTime", .int 3)]]),
  ("outputPath", .text "film.mp4"),
  ("resolution", .list [.text "1080p"])]

/-- The compilation of the request ends in a fault. -/
theorem run_listed : ((Compile.run Compile.everywhere (.timeline ⟨[Compile.following], []⟩)
    (.ofResolution (.list [.text "1080p"]))).run.run Trace.empty).1 = .error .illTyped :=
  eq_illTyped_of_failsAs (by decide +kernel)

/-- The request can be read, but its export ends in a fault without any event. -/
theorem illTyped_of_listed : ∃ request, Request.ofValue listed = .ok request ∧
    ∃ ended, Export.run .listening (playing []) request (.ofEngine (.text "ffmpeg") none)
      Trace.empty = ⟨some .illTyped, ended⟩ ∧ ended.events = [] := by
  let request : Request :=
    ⟨[Compile.following], "film.mp4", .ofResolution (.list [.text "1080p"])⟩
  have hread : Request.ofValue listed = .ok request := rfl
  have htracks : Footage.tracks (.clips request.clips) = .ok ([Compile.following], []) :=
    Compile.tracks_singleton rfl (eq_ok_of_toOption (by decide +kernel))
  have hrun : Compile.run (playing []).outside (.clips request.clips) request.options =
      Compile.run Compile.everywhere (.timeline ⟨[Compile.following], []⟩)
        (.ofResolution (.list [.text "1080p"])) :=
    (Compile.run_of_tracks_eq_ok _ htracks _).trans (Compile.run_of_tracks_eq_ok _ rfl _).symm
  have hfault := run_listed
  rw [← hrun] at hfault
  generalize hasked : ((Compile.run (playing []).outside (.clips request.clips)
    request.options).run.run Trace.empty).2 = asked
  refine ⟨request, hread, .start (.ofEngine (.text "ffmpeg") none) asked, ?_, rfl⟩
  rw [Export.run, finish_perform .listening (playing []) request _ _ (Prod.ext hfault hasked)]
  rfl

end Export

end Montage
