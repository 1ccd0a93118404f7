import ControlClient.CommandLine.Grammar

/-!
# Levels

The tables of all commands: what each is for, its positional arguments and its own options.
-/

namespace ControlClient.CommandLine

/-! ## Choices -/

/-- The names of the record modes. -/
def modeChoices : List Choice :=
  [⟨RecordMode.stream.name, "A snapshot of the live data stream"⟩,
    ⟨RecordMode.batch.name, "The queries defined by a batch task"⟩,
    ⟨RecordMode.query.name, "The result of a raw query"⟩]

/-- The names of the task types. -/
def typeChoices : List Choice :=
  [⟨TaskType.stream.choice, "Consumes the live data stream"⟩,
    ⟨TaskType.batch.choice, "Runs scheduled queries against the data store"⟩]

/-- The names of what can be deleted. -/
def deleteChoices : List Choice :=
  [⟨DeleteKind.task.name, "Delete tasks by name. Enabled tasks are disabled first"⟩,
    ⟨DeleteKind.recording.name, "Delete recordings by ID"⟩]

/-- The names of what can be listed. -/
def listChoices : List Choice :=
  [⟨ListKind.tasks.name, "Tasks and their current state"⟩,
    ⟨ListKind.recordings.name, "Stored recordings"⟩]

/-! ## Tables -/

/-- A text of several lines. -/
def lines (ls : List String) : String := "\n".intercalate ls

/-- What `record` is, in full. -/
def recordAbout : String :=
  lines
    ["Record the result of an InfluxDB query or a snapshot of the live data stream.",
      "",
      "Prints the recording ID on exit.",
      "",
      "Recordings have types like tasks. If recording a raw query you must specify the desired type.",
      "",
      "See 'kapacitor help replay' for how to replay a recording."]

/-- Uses of `record`. -/
def recordExamples : String :=
  lines
    ["Examples:",
      "",
      "    $ kapacitor record stream --duration 1m",
      "",
      "        Records the live data stream for 1 minute.",
      "",
      "    $ kapacitor record batch --addr http://localhost:8086 --name cpu_idle"
        ++ " --start 2015-09-01T00:00:00Z --num 10",
      "",
      "        Records the result of the query defined in task 'cpu_idle', running it 10 times",
      "        starting at 'start' and advancing by the period defined in the task.",
      "",
      "    $ kapacitor record query --addr http://localhost:8086"
        ++ " --query \"select value from cpu_idle where time > now() - 1h\" --type streamer",
      "",
      "        Records the result of the query and stores it as a stream recording.",
      "        Use --type batcher to store it as a batch recording."]

/-- The mode of a recording. -/
def recordMode : PositionalSpec :=
  { arg := .mode, name := "MODE", help := "What to record", required := true,
    choices := modeChoices }

/-- The arguments of `record`. -/
def recordTable : Level where
  command? := some .record
  about := "Record the result of a query or a snapshot of the current stream data"
  longAbout := recordAbout
  epilogue := recordExamples
  positionals := [recordMode]
  own :=
    [{ arg := .duration, long := "duration",
        help := "How long to record the data stream (stream)",
        valueName? := some "DURATION", default? := some "5m" },
      { arg := .name, long := "name",
        help := "Name of the task whose queries are recorded (batch)",
        valueName? := some "TASK", default? := some "" },
      { arg := .start, long := "start", help := "Start time of the first query (batch)",
        valueName? := some "TIME", default? := some "" },
      { arg := .count, long := "num", help := "Number of periods to query (batch)",
        valueName? := some "N", default? := some "1" },
      { arg := .address, long := "addr", help := "URL of the InfluxDB server (batch, query)",
        valueName? := some "URL", default? := some "" },
      { arg := .query, long := "query", help := "The query to record (query)",
        valueName? := some "QUERY", default? := some "" },
      { arg := .type, long := "type", help := "Type of recording to save (query)",
        valueName? := some "TYPE", choices := typeChoices }]

/-- The arguments of `define`. -/
def defineTable : Level where
  command? := some .define
  about := "Create or update a task"
  longAbout :=
    lines
      ["Create or update a task.",
        "",
        "A task is defined via a TICK script that defines the data processing pipeline of the task."]
  own :=
    [{ arg := .name, long := "name", help := "The task name",
        valueName? := some "NAME", default? := some "" },
      { arg := .script, long := "tick", help := "Path to the TICK script",
        valueName? := some "PATH" },
      { arg := .type, long := "type", help := "The task type",
        valueName? := some "TYPE", choices := typeChoices }]

/-- The arguments of `replay`. -/
def replayTable : Level where
  command? := some .replay
  about := "Replay a recording to a task"
  longAbout :=
    lines
      ["Replay a recording to a task. Waits until the task finishes.",
        "",
        "See 'kapacitor help record' for how to create a recording.",
        "See 'kapacitor help define' for how to create a task."]
  own :=
    [{ arg := .name, long := "name", help := "The task name",
        valueName? := some "NAME", default? := some "" },
      { arg := .id, long := "id", help := "The recording ID",
        valueName? := some "ID", default? := some "" },
      { arg := .fast, long := "fast",
        help := "Replay the data as fast as possible instead of in real time" }]

/-- The names of tasks, for `enable` and `disable`. -/
def taskNames : PositionalSpec :=
  { arg := .tasks, name := "TASK", help := "Task names, processed in order", many := true }

/-- The arguments of `enable`. -/
def enableTable : Level where
  command? := some .enable
  about := "Enable and start running a task with live data"
  longAbout := "Enable and start running a task with live data"
  positionals := [taskNames]

/-- The arguments of `disable`. -/
def disableTable : Level where
  command? := some .disable
  about := "Stop running a task"
  longAbout := "Stop running a task"
  positionals := [taskNames]

/-- The arguments of `delete`. -/
def deleteTable : Level where
  command? := some .delete
  about := "Delete a task or a recording"
  longAbout :=
    lines
      ["Delete a task or recording.",
        "",
        "If a task is enabled it will be disabled and then deleted."]
  positionals :=
    [{ arg := .deleteKind, name := "KIND", help := "What to delete", choices := deleteChoices },
      { arg := .ids, name := "NAME|ID", help := "Task names or recording IDs", many := true }]

/-- The arguments of `list`. -/
def listTable : Level where
  command? := some .list
  about := "List information about tasks or recordings"
  longAbout :=
    lines
      ["List tasks or recordings and their current state.",
        "",
        "If no tasks are given then all tasks are listed. Same for recordings.",
        "If a set of task names or recording IDs is provided only those entries will be listed."]
  positionals :=
    [{ arg := .listKind, name := "KIND", help := "What to list", choices := listChoices },
      { arg := .ids, name := "NAME|ID", help := "Only list these task names or recording IDs",
        many := true }]

/-- The arguments of `level`. -/
def levelTable : Level where
  command? := some .level
  about := "Set the logging level on the kapacitord server"
  longAbout := "Set the logging level on the kapacitord server"
  positionals :=
    [{ arg := .level, name := "LEVEL",
        help := "New log level (debug, info, warn, error). Validated by the server" }]

/-- The arguments of `version`. -/
def versionTable : Level where
  command? := some .version
  about := "Display the Kapacitor version info"
  longAbout := "Display the Kapacitor version info"

/-- The arguments of `help`. -/
def helpTable : Level where
  command? := some .help
  about := "Get help for a command"
  longAbout := "Get help for a command"
  positionals := [{ arg := .topic, name := "COMMAND", help := "Command to show help for" }]

namespace Level

/-- The words before the command word. -/
def top : Level where
  command? := none
  about := "Control client for the Kapacitor data-processing service"
  longAbout := "Control client for the Kapacitor data-processing service"

/-- The words after the command word. -/
def ofCommand : CommandName → Level
  | .record => recordTable
  | .define => defineTable
  | .replay => replayTable
  | .enable => enableTable
  | .disable => disableTable
  | .delete => deleteTable
  | .list => listTable
  | .level => levelTable
  | .version => versionTable
  | .help => helpTable

/-- The level of a command, or the level before the command word. -/
def of : Option CommandName → Level
  | some c => ofCommand c
  | none => top

theorem command?_of (c? : Option CommandName) : (of c?).command? = c? := by
  rcases c? with _ | c
  · rfl
  · cases c <;> rfl

end Level

end ControlClient.CommandLine
