import Montage.Proofs.Export.Command
import Montage.Proofs.Export.Stream

/-!
# The protocol of an export

An export of a compiled graph ends without a fault, whatever the encoder was
used for before. It makes a single failure if the engine is not found or not
started. Otherwise it tells zero, percentages that grow and one event that ends
the stream: a success exactly if the engine ended with zero and the consumer had
not cancelled before that was known. All this needs positions for which there
are doubles; one that has none ends the stream in a fault.
-/

namespace Montage.Export

open Exporting Progress

/-! ## Encoders and engines -/

/-- The lines that are texts. -/
def textsOf (lines : List Value) : List Text :=
  lines.filterMap fun
    | .text line => some line
    | _ => none

/-- Lines that are texts are their texts. -/
theorem map_textsOf {lines : List Value} (h : ∀ line ∈ lines, ∃ text, line = Value.text text) :
    lines = (textsOf lines).map Value.text := by
  induction lines with
  | nil => rfl
  | cons line lines ih =>
    obtain ⟨text, rfl⟩ := h line List.mem_cons_self
    have hrest := ih fun other hother => h other (List.mem_cons_of_mem _ hother)
    change _ = Value.text text :: (textsOf lines).map Value.text
    rw [← hrest]

/-- An engine that prints texts with near positions and ends with a whole
number. -/
structure EngineRun.Typed (engine : EngineRun) : Prop where
  /-- Its lines are texts. -/
  lines : ∀ line ∈ engine.lines, ∃ text, line = .text text
  /-- The positions that are read are near. -/
  near : ∀ units ∈ readings (textsOf engine.lines), Near units
  /-- Its status is a whole number. -/
  status : ∃ code : Int, engine.status = .int code

/-- A start of the engine that fails or gives an engine to listen to. -/
def Launch.Typed : Launch → Prop
  | .refused _ => True
  | .broken _ => False
  | .running engine => engine.Typed

/-- A search that finds the engine or tells that there is none. -/
def Studio.Searches (studio : Studio) : Prop :=
  (∃ location : Text, studio.engine.result.1 = .ok (.text location)) ∨
    ∃ message, studio.engine.result.1 = .error (.fileMissing message)

namespace Encoder

/-- An encoder whose location and settings are of the right kinds. -/
structure Typed (encoder : Encoder) : Prop where
  /-- The location is a text if there is one. -/
  location : encoder.enginePath.truthy = true → ∃ location, encoder.enginePath = .text location
  /-- The settings are of the right kinds if there are some. -/
  settings : ∀ settings, encoder.settings = some settings → settings.Typed

/-- The encoder knows where the engine is, or the search for it succeeds. -/
def Finds (encoder : Encoder) (studio : Studio) : Prop :=
  ∃ location, (encoder.engine studio).result.1 = .ok location

variable {encoder : Encoder} {studio : Studio}

/-- The location of the engine is a text, or the search tells that there is
none. -/
theorem engine_cases (typed : encoder.Typed) (searches : studio.Searches) :
    (∃ location : Text, (encoder.engine studio).result.1 = .ok (.text location)) ∨
      ∃ message, (encoder.engine studio).result.1 = .error (.fileMissing message) := by
  unfold engine
  split
  · next given =>
    obtain ⟨location, hlocation⟩ := typed.location given
    rw [hlocation]
    exact .inl ⟨location, rfl⟩
  · exact searches

/-- The settings for a file are of the right kinds. -/
theorem Typed.settingsFor (typed : encoder.Typed) (file : Text) :
    (encoder.settingsFor file).Typed := by
  have hchosen : (encoder.settings.getD (.ofPath (.text file))).Typed := by
    cases hsettings : encoder.settings with
    | none => exact EncoderSettings.typed_ofPath _
    | some settings => exact typed.settings settings hsettings
  exact ⟨hchosen.rate, hchosen.names⟩

/-- What a command line comes to once the engine is found. -/
theorem result_command (graph : RenderGraph) (file : Text) {location : Value}
    (h : (encoder.engine studio).result.1 = .ok location) :
    (encoder.command studio graph file).result.1 =
      (graph.commandLine (encoder.settingsFor file) location).map withProgress := by
  unfold Noting.result at h ⊢
  have hfound : (encoder.engine studio).run.run [] =
      (.ok location, ((encoder.engine studio).run.run []).2) := Prod.ext h rfl
  rw [command, Work.run_bind_of_ok hfound]
  cases hcommand : graph.commandLine (encoder.settingsFor file) location with
  | error fault => rfl
  | ok words => rfl

/-- Without the engine there is no command line. -/
theorem result_command_of_error (graph : RenderGraph) (file : Text) {fault : Fault}
    (h : (encoder.engine studio).result.1 = .error fault) :
    (encoder.command studio graph file).result.1 = .error fault := by
  unfold Noting.result at h ⊢
  have hlacking : (encoder.engine studio).run.run [] =
      (.error fault, ((encoder.engine studio).run.run []).2) := Prod.ext h rfl
  rw [command, Work.run_bind_of_error hlacking]

end Encoder

/-! ## From the graph to the engine -/

variable {outside : Outside} {footage : Footage} {options : ExportOptions} {before after : Trace}
  {graph : RenderGraph} {encoder : Encoder} {studio : Studio} {consumer : Consumer}

/-- There is a path to write to for every text. -/
theorem exists_outputPath (path : Text) : ∃ file, outputPath (.text path) = .ok file := ⟨_, rfl⟩

/-- Whether and how the engine is started is decided by the command line. -/
theorem run_execute (consumer : Consumer) (studio : Studio) (graph : RenderGraph)
    (encoder : Encoder) {path file : Text} (hfile : outputPath (.text path) = .ok file)
    (trace : Trace) :
    (execute consumer studio graph path).run.run (.start encoder trace) =
      (match (encoder.command studio graph file).result.1 with
        | .ok command => launch consumer studio graph.duration file command
        | .error fault =>
          match commandFailure? fault with
          | some message => do
            note .error ("Could not build FFmpeg command: " ++ message)
            emit consumer (.failure message)
          | none => throw (.faulted fault)
        : Exporting Unit).run.run
          (.leave (encoder.command studio graph file).result.2
            (.start { encoder with cancelled := false } trace)) := by
  rw [execute, Work.run_bind_of_ok (run_ofOutcome hfile)]
  rfl

/-- Once the engine is found, an export of a compiled graph starts it with a command line
of words that ends in the path to write to. -/
theorem exists_run_execute (consumer : Consumer)
    (compiled : (Compile.run outside footage options).run.run before = (.ok graph, after))
    (files : ∀ input ∈ graph.inputs, ∃ file, input.path = .text file) (typed : encoder.Typed)
    {location : Text} (found : (encoder.engine studio).result.1 = .ok (.text location))
    (path : Text) (trace : Trace) :
    ∃ file command words begun, outputPath (.text path) = .ok file ∧
      command.getLast? = some (.text file) ∧ wordsOf command = .ok words ∧
      (execute consumer studio graph path).run.run (.start encoder trace) =
        (launch consumer studio graph.duration file command).run.run begun ∧
      begun.events = [] ∧ begun.encoder.cancelled = false ∧ begun.commands = trace.commands := by
  obtain ⟨file, hfile⟩ := exists_outputPath path
  obtain ⟨_, _, _, _, hjoins, _⟩ := Compile.exists_joins_of_run compiled
  obtain ⟨command, hcommand, htexts, hlast⟩ :=
    exists_commandLine hjoins (typed.settingsFor file) rfl location
  obtain ⟨words, hwords⟩ := exists_wordsOf (htexts files)
  have hresult := Encoder.result_command graph file found
  rw [hcommand] at hresult
  have hrun := run_execute consumer studio graph encoder hfile trace
  rw [hresult] at hrun
  exact ⟨file, _, words, _, hfile, hlast, hwords, hrun, rfl, rfl, rfl⟩

/-- Without the engine, an export makes a single failure. -/
theorem exists_run_execute_of_missing (graph : RenderGraph) {message : Text}
    (missing : (encoder.engine studio).result.1 = .error (.fileMissing message))
    (listens : ∀ events, (consumer events).closes = false) (path : Text) (trace : Trace) :
    ∃ after, (execute consumer studio graph path).run.run (.start encoder trace) =
        (.ok (), after) ∧ after.events = [.failure message] := by
  obtain ⟨file, hfile⟩ := exists_outputPath path
  have hresult := Encoder.result_command_of_error graph file missing
  have hrun := run_execute consumer studio graph encoder hfile trace
  rw [hresult] at hrun
  dsimp only [commandFailure?] at hrun
  rw [Work.run_bind_of_ok (run_note _ _), run_emit (listens _)] at hrun
  refine ⟨_, hrun, ?_⟩
  rw [Run.events_tell]
  rfl

/-! ## The stream -/

/-- What is heard of a running engine is zero and percentages that are told. -/
theorem exists_percents {total : Binary64} {texts : List Text} {heard : List Event}
    (h : heard <+: reported total texts) (some : heard ≠ []) :
    ∃ percents, percents <+: percentages total texts ∧
      heard = .progress 0 :: percents.map .progress := by
  cases heard with
  | nil => exact absurd rfl some
  | cons first rest =>
    obtain ⟨rfl, hrest⟩ := List.cons_prefix_cons.mp h
    obtain ⟨percents, hpercents, rfl⟩ := List.prefix_map_iff.mp hrest
    exact ⟨percents, hpercents, rfl⟩

/-- What is heard of an engine that ended well are completed percentages and the
file. -/
theorem ending_of_success {total : Binary64} {texts : List Text} {engine : EngineRun} {file : Text}
    (success : engine.status = .int 0) :
    reported total texts ++
        ending file engine ((percentages total texts).getLastD 0) (some engine.status) =
      .progress 0 :: ((completed (percentages total texts)).map .progress ++
        [.success (.text file)]) := by
  have hequal : engine.status.equal (.int 0) = true := by
    rw [success]
    decide +kernel
  rw [ending, if_pos hequal, reported, completed]
  split <;> simp

/-- What is heard last of an engine that ended otherwise is a failure. -/
theorem ending_of_failure {percent : Binary64} {engine : EngineRun} {file : Text} {code : Int}
    (status : engine.status = .int code) (failure : engine.status ≠ .int 0) :
    ending file engine percent (some engine.status) = [.failure (failureMessage engine)] := by
  have hequal : engine.status.equal (.int 0) = false := by
    rw [status] at failure ⊢
    rw [Value.equal_of_numbers rfl rfl, Number.equal_int]
    exact decide_eq_false fun hzero => failure (congrArg Value.int hzero)
  rw [ending, hequal, if_neg Bool.false_ne_true]

/-- The events that are heard of a running engine: zero, percentages that grow and
one event that ends the stream. -/
structure Protocol (consumer : Consumer) (engine : EngineRun) (total : Binary64) (file : Text)
    (command : List Value) (percents : List Binary64) (last : Event) (events : List Event) :
    Prop where
  /-- Zero, the percentages and the last event are all that is heard. -/
  order : events = .progress 0 :: (percents.map .progress ++ [last])
  /-- The percentages grow. -/
  grow : Grow percents
  /-- The last event ends the stream. -/
  terminal : last.isTerminal = true
  /-- It is a success exactly if the engine ended with zero and the consumer did not
  cancel before that. -/
  success : (∃ result, last = .success result) ↔
    engine.status = .int 0 ∧ ¬ Cancels consumer (reported total (textsOf engine.lines))
  /-- A success names the file that the command line ends in, after a hundred
  percent. -/
  result : ∀ result, last = .success result →
    result = .text file ∧ command.getLast? = some result ∧ percents.getLast? = some 100

/-- A failure after percentages that were told keeps the protocol, unless the engine
ended with zero and the consumer had not cancelled. -/
theorem protocol_of_failure {engine : EngineRun} {total : Binary64} {percents : List Binary64}
    {events : List Event} {message : Text}
    (told : percents <+: percentages total (textsOf engine.lines))
    (heard : events = .progress 0 :: (percents.map .progress ++ [.failure message]))
    (unsuccessful : engine.status = .int 0 →
      Cancels consumer (reported total (textsOf engine.lines)))
    (file : Text) (command : List Value) :
    Protocol consumer engine total file command percents (.failure message) events where
  order := heard
  grow := (grow_percentages total _).of_isPrefix told
  terminal := rfl
  success := by
    constructor
    · rintro ⟨result, h⟩
      cases h
    · rintro ⟨hzero, hcontinues⟩
      exact absurd (unsuccessful hzero) hcontinues
  result := nofun

/-- A success after completed percentages keeps the protocol if the engine ended
with zero and the consumer had not cancelled. -/
theorem protocol_of_success {engine : EngineRun} {total : Binary64} {file : Text}
    {command : List Value} {events : List Event}
    (heard : events = reported total (textsOf engine.lines) ++ ending file engine
      ((percentages total (textsOf engine.lines)).getLastD 0) (some engine.status))
    (zero : engine.status = .int 0)
    (continues : ¬ Cancels consumer (reported total (textsOf engine.lines)))
    (target : command.getLast? = some (.text file)) :
    Protocol consumer engine total file command
      (completed (percentages total (textsOf engine.lines))) (.success (.text file)) events where
  order := heard.trans (ending_of_success zero)
  grow := (grow_percentages total _).completed
  terminal := rfl
  success := ⟨fun _ => ⟨zero, continues⟩, fun _ => ⟨_, rfl⟩⟩
  result := by
    rintro result ⟨rfl⟩
    exact ⟨rfl, target, getLast?_completed total _⟩

/-- An export of a compiled graph that starts an engine keeps the protocol. -/
theorem exists_protocol
    (compiled : (Compile.run outside footage options).run.run before = (.ok graph, after))
    (files : ∀ input ∈ graph.inputs, ∃ file, input.path = .text file) (typed : encoder.Typed)
    {location : Text} (found : (encoder.engine studio).result.1 = .ok (.text location))
    {engine : EngineRun} (running : studio.launch = .running engine) (prints : engine.Typed)
    (listens : ∀ events, (consumer events).closes = false) (path : Text) (trace : Trace) :
    ∃ total file command percents last ended,
      graph.duration.toReal = .ok total ∧ outputPath (.text path) = .ok file ∧
      finish (execute consumer studio graph path) (.start encoder trace) = ⟨none, ended⟩ ∧
      ended.trace.commands = trace.commands ++ [command] ∧
      Protocol consumer engine total file command percents last ended.events := by
  obtain ⟨file, command, words, begun, hfile, hlast, hwords, hrun, hsilent, hactive, hbefore⟩ :=
    exists_run_execute consumer compiled files typed found path trace
  obtain ⟨_, _, total, x, _, hduration, hx, number⟩ := Compile.exists_joins_of_run compiled
  obtain ⟨code, hcode⟩ := prints.status
  have hends : engine.status.isNull = false := by
    rw [hcode]
    rfl
  rw [hduration] at hrun
  obtain ⟨ended, heard, hlaunch, hstarted, hprefix, hsome, hcases⟩ :=
    exists_run_launch_of_running file listens hwords hx number running
      (map_textsOf prints.lines) prints.near hends hactive hsilent
  have hfinish : finish (execute consumer studio graph path) (.start encoder trace) =
      ⟨none, ended⟩ := by
    rw [finish, hrun, hlaunch]
  have hreal : graph.duration.toReal = .ok x := by
    rw [hduration]
    exact Outcome.orFault_eq_ok.mpr hx
  obtain ⟨percents, hpercents, hheard⟩ := exists_percents hprefix hsome
  rw [hbefore] at hstarted
  rcases hcases with ⟨hcancels, hevents⟩ | ⟨hcontinues, hall, hevents⟩
  · rw [hheard] at hevents
    exact ⟨x, file, command, percents, _, ended, hreal, hfile, hfinish, hstarted,
      protocol_of_failure hpercents hevents (fun _ => hcancels) file command⟩
  · by_cases hzero : engine.status = .int 0
    · rw [hall] at hevents
      exact ⟨x, file, command, _, _, ended, hreal, hfile, hfinish, hstarted,
        protocol_of_success hevents hzero hcontinues hlast⟩
    · rw [hheard, ending_of_failure hcode hzero] at hevents
      exact ⟨x, file, command, percents, _, ended, hreal, hfile, hfinish, hstarted,
        protocol_of_failure hpercents hevents (fun h => absurd h hzero) file command⟩

/-- The engine is not found or not started, or there is an engine to listen to. -/
theorem Encoder.start_cases (typed : encoder.Typed) (searches : studio.Searches)
    (launches : studio.launch.Typed) :
    (¬ encoder.Finds studio ∨ ∃ reason, studio.launch = .refused reason) ∨
      ∃ location engine, (encoder.engine studio).result.1 = .ok (.text location) ∧
        studio.launch = .running engine ∧ engine.Typed := by
  rcases encoder.engine_cases typed searches with ⟨location, found⟩ | ⟨message, missing⟩
  · cases hlaunch : studio.launch with
    | refused reason => exact .inl (.inr ⟨reason, rfl⟩)
    | broken fault =>
      rw [hlaunch] at launches
      exact launches.elim
    | running engine =>
      rw [hlaunch] at launches
      exact .inr ⟨location, engine, found, rfl, launches⟩
  · refine .inl (.inl ?_)
    rintro ⟨location, found⟩
    rw [missing] at found
    cases found

/-- An export of a compiled graph makes a single failure if the engine is not found or
not started. -/
theorem exists_failure_of_unstarted
    (compiled : (Compile.run outside footage options).run.run before = (.ok graph, after))
    (files : ∀ input ∈ graph.inputs, ∃ file, input.path = .text file) (typed : encoder.Typed)
    (searches : studio.Searches)
    (unstarted : ¬ encoder.Finds studio ∨ ∃ reason, studio.launch = .refused reason)
    (listens : ∀ events, (consumer events).closes = false) (path : Text) (trace : Trace) :
    ∃ ended message, finish (execute consumer studio graph path) (.start encoder trace) =
      ⟨none, ended⟩ ∧ ended.events = [.failure message] := by
  rcases encoder.engine_cases typed searches with ⟨location, found⟩ | ⟨message, missing⟩
  · obtain ⟨reason, refused⟩ := unstarted.resolve_left (not_not_intro ⟨_, found⟩)
    obtain ⟨_, _, _, begun, _, _, hwords, hrun, hsilent, _, _⟩ :=
      exists_run_execute consumer compiled files typed found path trace
    obtain ⟨ended, hended, hevents⟩ := exists_run_launch_of_refused listens hwords refused
    rw [hsilent] at hevents
    refine ⟨ended, _, ?_, hevents⟩
    rw [finish, hrun, hended]
  · obtain ⟨ended, hended, hevents⟩ :=
      exists_run_execute_of_missing graph missing listens path trace
    refine ⟨ended, message, ?_, hevents⟩
    rw [finish, hended]

/-- An export of a compiled graph ends without a fault, whatever the encoder was
used for before. It makes a single failure if the engine is not found or not
started, and keeps the protocol otherwise. -/
theorem protocol_of_execute
    (compiled : (Compile.run outside footage options).run.run before = (.ok graph, after))
    (files : ∀ input ∈ graph.inputs, ∃ file, input.path = .text file) (typed : encoder.Typed)
    (searches : studio.Searches) (launches : studio.launch.Typed)
    (listens : ∀ events, (consumer events).closes = false) (path : Text) (trace : Trace) :
    ∃ ended, finish (execute consumer studio graph path) (.start encoder trace) = ⟨none, ended⟩ ∧
      (((¬ encoder.Finds studio ∨ ∃ reason, studio.launch = .refused reason) ∧
        ∃ message, ended.events = [.failure message]) ∨
      (encoder.Finds studio ∧ ∃ engine total file command percents last,
        studio.launch = .running engine ∧ graph.duration.toReal = .ok total ∧
        outputPath (.text path) = .ok file ∧
        ended.trace.commands = trace.commands ++ [command] ∧
        Protocol consumer engine total file command percents last ended.events)) := by
  rcases encoder.start_cases typed searches launches with
    unstarted | ⟨location, engine, found, running, prints⟩
  · obtain ⟨ended, message, hfinish, hevents⟩ := exists_failure_of_unstarted compiled files typed
      searches unstarted listens path trace
    exact ⟨ended, hfinish, .inl ⟨unstarted, message, hevents⟩⟩
  · obtain ⟨total, file, command, percents, last, ended, hduration, hfile, hfinish, hcommands,
      hprotocol⟩ := exists_protocol compiled files typed found running prints listens path trace
    exact ⟨ended, hfinish, .inr ⟨⟨_, found⟩, engine, total, file, command, percents, last, running,
      hduration, hfile, hcommands, hprotocol⟩⟩

/-- The film is compiled to a graph of files that are named by texts. -/
theorem exists_film_compiled : ∃ graph after,
    (Compile.run Compile.everywhere Compile.film .default).run.run Trace.empty =
      (.ok graph, after) ∧
    ∀ input ∈ graph.inputs, ∃ file, input.path = .text file := by
  have hisOk : ((Compile.run Compile.everywhere Compile.film .default).run.run
      Trace.empty).1.isOk = true := by decide +kernel
  have htexts : ((Compile.run Compile.everywhere Compile.film .default).run.run
      Trace.empty).1.toOption.all fun graph => graph.inputs.all fun input =>
        (textsOf [input.path]).length = 1 := by decide +kernel
  obtain ⟨graph, after, hcompiled⟩ := Work.exists_of_isOk hisOk
  refine ⟨graph, after, hcompiled, fun input hinput => ?_⟩
  rw [hcompiled] at htexts
  have hone := of_decide_eq_true (List.all_eq_true.mp htexts input hinput)
  cases hpath : input.path with
  | text file => exact ⟨file, rfl⟩
  | _ =>
    rw [hpath] at hone
    cases hone

/-- A world in which the engine plays and prints some lines. -/
def playing (lines : List Text) : Studio :=
  ⟨Compile.everywhere, pure (.text "ffmpeg"), .running ⟨lines.map .text, "", .int 0⟩⟩

/-- An encoder whose last export was cancelled and given up. -/
def abandoned : Encoder := ⟨.null, none, true, true⟩

/-- The lines of an engine that goes back once. -/
def wavering : List Text :=
  ["out_time_us=3000000", "frame=1", "out_time_us=N/A", "out_time_us=2000000", "progress=end"]

/-- The film is exported by an encoder that was given up before. -/
theorem protocol_of_film : ∃ graph after ended total file command percents last,
    (Compile.run Compile.everywhere Compile.film .default).run.run Trace.empty =
      (.ok graph, after) ∧
    finish (execute .listening (playing wavering) graph "film") (.start abandoned Trace.empty) =
      ⟨none, ended⟩ ∧
    Protocol .listening ⟨wavering.map .text, "", .int 0⟩ total file command percents last
      ended.events := by
  obtain ⟨graph, after, hcompiled, hfiles⟩ := exists_film_compiled
  have htyped : abandoned.Typed := ⟨nofun, nofun⟩
  have hlistens : ∀ events, (Consumer.listening events).closes = false := fun _ => rfl
  have hlaunches : (playing wavering).launch.Typed := by
    refine ⟨?_, by decide +kernel, 0, rfl⟩
    intro line hline
    obtain ⟨text, _, rfl⟩ := List.mem_map.mp hline
    exact ⟨text, rfl⟩
  obtain ⟨ended, hfinish, ⟨hunstarted, _⟩ | ⟨_, engine, total, file, command, percents, last,
      hrunning, _, _, _, hprotocol⟩⟩ :=
    protocol_of_execute hcompiled hfiles htyped (.inl ⟨"ffmpeg", rfl⟩) hlaunches hlistens "film"
      Trace.empty
  · rcases hunstarted with hlacking | ⟨reason, hrefused⟩
    · exact absurd ⟨_, rfl⟩ hlacking
    · cases hrefused
  · cases hrunning
    exact ⟨graph, after, ended, total, file, command, percents, last, hcompiled, hfinish, hprotocol⟩

/-- If the first line of the engine reports a distant position, the stream of a compiled
graph ends in a fault and without an event that tells so. -/
theorem exists_fault_of_distant
    (compiled : (Compile.run outside footage options).run.run before = (.ok graph, after))
    (files : ∀ input ∈ graph.inputs, ∃ file, input.path = .text file) (typed : encoder.Typed)
    {location : Text} (found : (encoder.engine studio).result.1 = .ok (.text location))
    {engine : EngineRun} (running : studio.launch = .running engine) {line : Text}
    {lines : List Value} (first : engine.lines = .text line :: lines) {units : Int}
    (h : reading? line = some units) (distant : Distant units)
    (listens : ∀ events, (consumer events).closes = false)
    (continues : (consumer [.progress 0]).cancels = false) (path : Text) (trace : Trace) :
    ∃ ended, finish (execute consumer studio graph path) (.start encoder trace) =
      ⟨some .tooLarge, ended⟩ ∧ ended.events = [.progress 0] := by
  obtain ⟨_, _, _, begun, _, _, hwords, hrun, hsilent, hactive, _⟩ :=
    exists_run_execute consumer compiled files typed found path trace
  obtain ⟨ended, hended, hevents⟩ := exists_run_launch_of_distant listens hwords running first h
    distant hactive hsilent continues
  refine ⟨ended, ?_, hevents⟩
  rw [finish, hrun, hended]

/-- A line that reports a position far before the beginning. -/
def longBefore : Text := "out_time_ms=-1" ++ Text.ofChars (List.replicate 400 '0')

/-- A position far below zero is below every bound, yet the film's stream ends in
a fault. -/
theorem not_terminal_of_longBefore : ∃ graph after ended,
    (Compile.run Compile.everywhere Compile.film .default).run.run Trace.empty =
      (.ok graph, after) ∧
    (∀ units ∈ readings [longBefore], units < 10 ^ 300) ∧
    finish (execute .listening (playing [longBefore]) graph "film")
      (.start (.ofEngine (.text "ffmpeg") none) Trace.empty) = ⟨some .tooLarge, ended⟩ ∧
    ended.events = [.progress 0] := by
  have hreading : reading? longBefore = some (-10 ^ 400) := by decide +kernel
  have htyped : (Encoder.ofEngine (.text "ffmpeg") none).Typed := ⟨fun _ => ⟨"ffmpeg", rfl⟩, nofun⟩
  have hfound : ((Encoder.ofEngine (.text "ffmpeg") none).engine
      (playing [longBefore])).result.1 = .ok (.text "ffmpeg") := rfl
  have hlistens : ∀ events, (Consumer.listening events).closes = false := fun _ => rfl
  obtain ⟨graph, after, hcompiled, hfiles⟩ := exists_film_compiled
  obtain ⟨ended, hfinish, hevents⟩ := exists_fault_of_distant hcompiled hfiles htyped hfound rfl
    rfl hreading (by decide +kernel) hlistens rfl "film" Trace.empty
  exact ⟨graph, after, ended, hcompiled, by decide +kernel, hfinish, hevents⟩

end Montage.Export
