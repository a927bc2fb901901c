import RecordSheet.Command.Parser
import RecordSheet.Log.Filter
import RecordSheet.Log.Line
import RecordSheet.Records.Document
import RecordSheet.Settings.Store
import RecordSheet.Sheet.Basic

namespace RecordSheet

open Command Log

/-- The variables that are looked at; those for the log count only if they are texts. -/
structure Environment where
  config : Option Bytes
  log : Option Bytes
  generalLog : Option Bytes
  deriving DecidableEq, Repr

/--
What a run is started with. The name of the working directory is what the system says it is. The
report of an abort is the runtime's own: it names a thread and a place in the runtime, so nothing is
said of it here but that it may depend on the argument.
-/
structure Invocation where
  arguments : List Bytes
  environment : Environment
  directoryName : Bytes
  abortReport : Bytes → Text

def Invocation.options (i : Invocation) : Except Ending Options :=
  readOptions i.arguments i.environment.config

structure Outcome where
  status : Status
  stdout : Text
  stderr : Text
  deriving DecidableEq, Repr

/-- Where the document comes from and where its sheet goes; no path is standard input. -/
structure Plan where
  input : Option Bytes
  output : Bytes
  deriving DecidableEq, Repr

namespace Plan

def resolve (options : Options) (settings : Settings) : Except Failure Plan :=
  let output := options.output.getD settings.output
  if output.isEmpty then .error (.usage "output path must not be empty".toList)
  else .ok ⟨(options.input.or settings.input).filter (· ≠ Path.dash), output⟩

end Plan

def report (options : Options) (output : Bytes) (counts : Counts) : Text :=
  match options.format with
  | .json =>
    (Json.object [
      ("output".toList, .string (Path.display output)),
      ("input_records".toList, .ofCount counts.records),
      ("output_rows".toList, .ofCount counts.rows)]).render ++ ['\n']
  | .human =>
    if options.quiet then []
    else
      "read ".toList ++ decimal counts.records ++ " records\n".toList ++
        "wrote ".toList ++ decimal counts.rows ++ " rows\n".toList ++
        "CSV file saved as ".toList ++ Path.display output ++ ['\n']

def skipped (index : Nat) : List Record → List Nat
  | [] => []
  | r :: records =>
    if r.hasUri then skipped (index + 1) records else index :: skipped (index + 1) records

/--
A step of a run: it may fail, and it tells events whether or not it fails. They are collected and told
at the end, so what is told has no influence on what is done.
-/
abbrev Step (m : Type → Type) := ExceptT Failure (StateT (List Event) m)

namespace Step

variable {m : Type → Type} [Monad m]

def tell (e : Event) : Step m Unit :=
  modify fun events => events ++ [e]

def ofExcept {α : Type} (r : Except Failure α) : Step m α :=
  ExceptT.mk (pure r)

def await {α : Type} (action : m (Except Failure α)) : Step m α :=
  ExceptT.mk (StateT.lift action)

end Step

section

variable {m : Type → Type} [Monad m] [Files m]

def findSettings (options : Options) (directory : Bytes) : Step m Settings := do
  let source ← Step.await (do return .ok (← Settings.source options.config directory))
  match source with
  | .found path => Step.tell (.settingsFound path)
  | _ => pure ()
  let settings ← Step.await (Settings.ofSource source)
  Step.tell .settingsLoaded
  return settings

def readRecords (input : Option Bytes) (stdin : m Bytes) : Step m (List Record) := do
  let records ←
    match input with
    | some path => Step.await (Record.load path)
    | none => Step.await (do return (Record.ofBytes (← stdin)).mapError Failure.ofDocument)
  Step.tell (.recordsRead records.length)
  Step.tell .inputRead
  return records

def makeSheet (records : List Record) : Step m (Text × Counts) := do
  (skipped 0 records).forM fun index => Step.tell (.recordSkipped index)
  let (sheet, counts) := convert records
  Step.tell (.recordsConverted counts.rows)
  Step.tell .sheetConverted
  return (sheet, counts)

def writeOutput (options : Options) (output : Bytes) (sheet : Text) (counts : Counts) :
    Step m Text := do
  match Destination.ofPath output with
  | .standardOutput =>
    Step.tell .outputWritten
    return sheet
  | .file path =>
    Step.await (writeSheet path sheet)
    Step.tell (.sheetWritten path (Utf8.size sheet))
    Step.tell .outputWritten
    return report options output counts

def perform (options : Options) (directoryName : Bytes) (stdin : m Bytes) : Step m Text := do
  Step.tell .argumentsParsed
  let settings ← findSettings options directoryName
  let plan ← Step.ofExcept (Plan.resolve options settings)
  let records ← readRecords plan.input stdin
  let (sheet, counts) ← makeSheet records
  writeOutput options plan.output sheet counts

def Failure.report (f : Failure) (format : Format) : Text :=
  match format with
  | .json => f.envelope.render ++ ['\n']
  | .human => "error: ".toList ++ f.message ++ ['\n']

/-- The log of a run: notices on the filter, then the events that it lets through. -/
def logText (options : Options) (environment : Environment) (clock : Clock)
    (events : List Event) : Text :=
  let (filter, notices) :=
    Log.Filter.choose [environment.log, environment.generalLog] options.verbose options.logLevel
  let style := if options.logJson then .json else .compact
  (notices.flatMap fun notice => notice ++ ['\n']) ++
    (events.filter filter.enables).flatMap fun e => e.line clock style

def Command.Ending.outcome (ending : Ending) (invocation : Invocation) : Outcome :=
  match ending with
  | .aborted argument => ⟨.aborted, [], invocation.abortReport argument⟩
  | .stopped _ (.help long) => ⟨.success, helpText long invocation.environment.config, []⟩
  | .stopped _ .version => ⟨.success, versionText, []⟩
  | .stopped inJson (.misuse wrong) =>
    ⟨.usage, [], if inJson then (Failure.usage wrong.message).report .json else wrong.message⟩

/-- A run of the program. Standard output and standard error take all that is written to them. -/
def run (invocation : Invocation) (clock : Clock) (stdin : m Bytes) : m Outcome := do
  match invocation.options with
  | .error ending => return ending.outcome invocation
  | .ok options =>
    let (result, events) ← (perform options invocation.directoryName stdin).run.run []
    let log := logText options invocation.environment clock events
    match result with
    | .ok stdout => return ⟨.success, stdout, log⟩
    | .error failure => return ⟨failure.status, [], log ++ failure.report options.format⟩

end

end RecordSheet
