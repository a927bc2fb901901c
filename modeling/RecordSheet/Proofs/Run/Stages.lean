import RecordSheet.Files.Tree
import RecordSheet.Proofs.Except
import RecordSheet.Proofs.Text.Utf8
import RecordSheet.Run

namespace RecordSheet

open Command Log

namespace Tree

def readText (t : Tree) (path : Bytes) : Except FileError Text := do
  let bytes ← t.read path
  match Utf8.decode? bytes with
  | some text => .ok text
  | none => .error .notUtf8

theorem readText_eq_ok_iff {t : Tree} {path : Bytes} {text : Text} :
    t.readText path = .ok text ↔ t.read path = .ok (Utf8.encode text) := by
  rw [readText]
  cases t.read path with
  | error e => exact ⟨nofun, nofun⟩
  | ok bytes =>
    simp only [bind, Except.bind, Except.ok.injEq]
    rw [@eq_comm _ bytes, ← Utf8.decode?_eq_some_iff]
    cases Utf8.decode? bytes with
    | none => exact ⟨nofun, nofun⟩
    | some u => simp

def settingsAt (t : Tree) (path : Bytes) : Except Failure Settings := do
  let text ← (t.readText path).mapError (Failure.reading path)
  Settings.ofFileText text

theorem settingsAt_eq_ok_iff {t : Tree} {path : Bytes} {s : Settings} :
    t.settingsAt path = .ok s ↔
      ∃ text, t.readText path = .ok text ∧ Settings.ofText text = .ok s := by
  simp only [settingsAt, Settings.ofFileText, bind_eq_ok_iff, mapError_eq_ok_iff]

def source (t : Tree) (explicit : Option Bytes) (directory : Bytes) : Settings.Source :=
  match explicit with
  | some path => .named path
  | none =>
    let path := Path.join directory Settings.fileName
    if t.isFile path then .found path else .defaults

def settingsFrom (t : Tree) : Settings.Source → Except Failure Settings
  | .defaults => .ok .default
  | .named path => t.settingsAt path
  | .found path => t.settingsAt path

def settings (t : Tree) (explicit : Option Bytes) (directory : Bytes) : Except Failure Settings :=
  t.settingsFrom (t.source explicit directory)

def records (t : Tree) (stdin : Bytes) : (input : Option Bytes) → Except Failure (List Record)
  | some path => do
    let text ← (t.readText path).mapError (Failure.reading path)
    (Record.ofText text).mapError Failure.ofDocument
  | none => (Record.ofBytes stdin).mapError Failure.ofDocument

def deliver (t : Tree) (options : Options) (output : Bytes) (sheet : Text) (counts : Counts) :
    Except Failure (Text × Tree) :=
  if output = Path.dash then .ok (sheet, t)
  else do
    let after ← (t.write output (Utf8.encode sheet)).mapError (Failure.writing output)
    .ok (report options output counts, after)

/-- What goes to standard output when a command line has been read, and the tree that is left. -/
def perform (t : Tree) (options : Options) (directoryName stdin : Bytes) :
    Except Failure (Text × Tree) := do
  let settings ← t.settings options.config directoryName
  let plan ← Plan.resolve options settings
  let records ← t.records stdin plan.input
  t.deliver options plan.output (convert records).1 (convert records).2

end Tree

namespace Step

variable {α β : Type}

/-- A step gives a result and leaves the tree as it is, whatever events have been told before. -/
def Reads (x : Step (StateM Tree) α) (f : Tree → Except Failure α) : Prop :=
  ∀ events t, ∃ told, (x.run.run events).run t = ((f t, told), t)

/-- A step leaves the tree as it is if it fails, and may leave another one with its result. -/
def Commits (x : Step (StateM Tree) α) (f : Tree → Except Failure (α × Tree)) : Prop :=
  ∀ events t, ∃ told, (x.run.run events).run t = match f t with
    | .ok (a, after) => ((.ok a, told), after)
    | .error e => ((.error e, told), t)

theorem run_await (action : StateM Tree (Except Failure α)) (events : List Event) (t : Tree) :
    ((await action).run.run events).run t = (((action.run t).1, events), (action.run t).2) :=
  rfl

theorem reads_await {action : StateM Tree (Except Failure α)} {f : Tree → Except Failure α}
    (h : ∀ t, action.run t = (f t, t)) : Reads (await action) f := by
  intro events t
  rw [run_await, h t]
  exact ⟨events, rfl⟩

theorem reads_tell (e : Event) : Reads (tell e) fun _ => .ok () :=
  fun events _ => ⟨events ++ [e], rfl⟩

theorem reads_pure (a : α) : Reads (pure a) fun _ => .ok a :=
  fun events _ => ⟨events, rfl⟩

theorem reads_ofExcept (r : Except Failure α) : Reads (ofExcept r) fun _ => r :=
  fun events _ => ⟨events, rfl⟩

variable {x : Step (StateM Tree) α} {y : α → Step (StateM Tree) β} {f : Tree → Except Failure α}

theorem Reads.bind {g : α → Tree → Except Failure β} (hx : Reads x f)
    (hy : ∀ a, Reads (y a) (g a)) : Reads (x >>= y) fun t => f t >>= fun a => g a t := by
  intro events t
  obtain ⟨told, hrun⟩ := hx events t
  rw [ExceptT.run_bind, StateT.run_bind, StateT.run_bind, hrun]
  dsimp only
  cases f t with
  | ok a => exact hy a told t
  | error e => exact ⟨told, rfl⟩

/-- What follows a step that only reads finds the tree as it was. -/
theorem Reads.bind_commits {g : α → Tree → Except Failure (β × Tree)} (hx : Reads x f)
    (hy : ∀ a, Commits (y a) (g a)) : Commits (x >>= y) fun t => f t >>= fun a => g a t := by
  intro events t
  obtain ⟨told, hrun⟩ := hx events t
  rw [ExceptT.run_bind, StateT.run_bind, StateT.run_bind, hrun]
  dsimp only
  cases f t with
  | ok a => exact hy a told t
  | error e => exact ⟨told, rfl⟩

theorem Commits.bind_ok {f : Tree → Except Failure (α × Tree)} {g : α → β} (hx : Commits x f)
    (hy : ∀ a, Reads (y a) fun _ => .ok (g a)) :
    Commits (x >>= y) fun t => (f t).map fun p => (g p.1, p.2) := by
  intro events t
  obtain ⟨told, hrun⟩ := hx events t
  rw [ExceptT.run_bind, StateT.run_bind, StateT.run_bind, hrun]
  dsimp only
  cases f t with
  | ok p => exact hy p.1 told p.2
  | error e => exact ⟨told, rfl⟩

theorem Reads.bind_ok {y : α → Step (StateM Tree) α} (hx : Reads x f)
    (hy : ∀ a, Reads (y a) fun _ => .ok a) : Reads (x >>= y) f := by
  intro events t
  obtain ⟨told, hrun⟩ := hx.bind hy events t
  refine ⟨told, hrun.trans ?_⟩
  dsimp only
  cases f t with
  | ok a => rfl
  | error e => rfl

theorem reads_forM {xs : List α} {e : α → Event} :
    Reads (xs.forM fun a => tell (e a)) fun _ => .ok () := by
  induction xs with
  | nil => exact reads_pure ()
  | cons a xs ih => exact (reads_tell (e a)).bind fun _ => ih

end Step

section

variable (t : Tree)

theorem run_readFile (path : Bytes) :
    (Files.readFile path : StateM Tree _).run t = (t.read path, t) :=
  rfl

theorem run_writeFile (path content : Bytes) :
    (Files.writeFile path content : StateM Tree _).run t = match t.write path content with
      | .ok after => (.ok (), after)
      | .error e => (.error e, t) := by
  change StateT.run (match t.write path content with
    | .ok after => (do set after; return .ok () : StateM Tree (Except FileError Unit))
    | .error e => return .error e) t = _
  cases t.write path content with
  | ok after => rfl
  | error e => rfl

theorem run_readText (path : Bytes) :
    (Files.readText path : StateM Tree _).run t = (t.readText path, t) := by
  rw [Files.readText, StateT.run_bind, run_readFile, Tree.readText]
  cases t.read path with
  | error e => rfl
  | ok bytes =>
    simp only [bind, Except.bind]
    cases Utf8.decode? bytes with
    | none => rfl
    | some text => rfl

theorem run_loadSettings (path : Bytes) :
    (Settings.load path : StateM Tree _).run t = (t.settingsAt path, t) := by
  rw [Settings.load, StateT.run_bind, run_readText, Tree.settingsAt]
  cases t.readText path with
  | error e => rfl
  | ok text => rfl

theorem run_load (path : Bytes) : (Record.load path : StateM Tree _).run t =
    (t.records [] (some path), t) := by
  rw [Record.load, StateT.run_bind, run_readText, Tree.records]
  cases t.readText path with
  | error e => rfl
  | ok text => rfl

end

theorem run_source (explicit : Option Bytes) (directory : Bytes) :
    (Settings.source explicit directory : StateM Tree _).run t =
      (t.source explicit directory, t) := by
  cases explicit with
  | some path => rfl
  | none =>
    have hfile : ∀ path, (Files.isFile path : StateM Tree _).run t = (t.isFile path, t) :=
      fun _ => rfl
    rw [Settings.source, StateT.run_bind, hfile, Tree.source]
    dsimp only [bind]
    split
    · rfl
    · rfl

theorem run_ofSource (t : Tree) (source : Settings.Source) :
    (Settings.ofSource source : StateM Tree _).run t = (t.settingsFrom source, t) := by
  cases source with
  | defaults => rfl
  | named path => exact run_loadSettings t path
  | found path => exact run_loadSettings t path

theorem run_discover (t : Tree) (explicit : Option Bytes) (directory : Bytes) :
    (Settings.discover explicit directory : StateM Tree _).run t =
      (t.settings explicit directory, t) := by
  rw [Settings.discover, StateT.run_bind, run_source]
  exact run_ofSource t _

theorem reads_source (explicit : Option Bytes) (directory : Bytes) :
    Step.Reads (Step.await (do return .ok (← Settings.source explicit directory)))
      fun t => .ok (t.source explicit directory) := by
  apply Step.reads_await
  intro t
  rw [StateT.run_bind, run_source]
  rfl

theorem reads_ofSource (source : Settings.Source) :
    Step.Reads (Step.await (Settings.ofSource source)) fun t => t.settingsFrom source :=
  Step.reads_await (run_ofSource · source)

theorem reads_findSettings (options : Options) (directory : Bytes) :
    Step.Reads (findSettings options directory) fun t => t.settings options.config directory := by
  have htell : ∀ settings : Settings, Step.Reads (do
      Step.tell .settingsLoaded
      return settings) fun _ => .ok settings := fun settings =>
    (Step.reads_tell _).bind fun _ => Step.reads_pure settings
  refine (reads_source options.config directory).bind (g := fun source t => t.settingsFrom source)
    fun source => ?_
  cases source with
  | defaults => exact (reads_ofSource _).bind_ok htell
  | named path => exact (reads_ofSource _).bind_ok htell
  | found path =>
    have htold := (reads_ofSource (.found path)).bind_ok htell
    exact (Step.reads_tell (.settingsFound path)).bind fun _ => htold

theorem reads_readRecords (input : Option Bytes) (stdin : Bytes) :
    Step.Reads (readRecords input (pure stdin)) fun t => t.records stdin input := by
  have htell : ∀ records : List Record, Step.Reads (do
      Step.tell (.recordsRead records.length)
      Step.tell .inputRead
      return records) fun _ => .ok records := fun records =>
    (Step.reads_tell _).bind fun _ => (Step.reads_tell _).bind fun _ => Step.reads_pure records
  cases input with
  | some path => exact (Step.reads_await (run_load · path)).bind_ok htell
  | none => exact (Step.reads_await fun _ => rfl).bind_ok htell

theorem reads_makeSheet (records : List Record) :
    Step.Reads (makeSheet records) fun _ => .ok (convert records) :=
  Step.reads_forM.bind fun _ => (Step.reads_tell _).bind fun _ => (Step.reads_tell _).bind fun _ =>
    Step.reads_pure (convert records)

theorem commits_writeSheet (path : Bytes) (sheet : Text) :
    Step.Commits (Step.await (writeSheet path sheet)) fun t =>
      ((t.write path (Utf8.encode sheet)).mapError (Failure.writing path)).map ((), ·) := by
  intro events t
  rw [Step.run_await, writeSheet, StateT.run_bind, run_writeFile]
  refine ⟨events, ?_⟩
  dsimp only
  cases t.write path (Utf8.encode sheet) with
  | ok after => rfl
  | error e => rfl

theorem commits_writeOutput (options : Options) (output : Bytes) (sheet : Text) (counts : Counts) :
    Step.Commits (writeOutput options output sheet counts) fun t =>
      t.deliver options output sheet counts := by
  intro events t
  by_cases houtput : output = Path.dash
  · subst houtput
    exact ⟨events ++ [.outputWritten], rfl⟩
  · have hdestination : Destination.ofPath output = .file output := if_neg houtput
    have hreport : ∀ u : Unit, Step.Reads (do
        Step.tell (.sheetWritten output (Utf8.size sheet))
        Step.tell .outputWritten
        return report options output counts) fun _ => .ok (report options output counts) :=
      fun _ => (Step.reads_tell _).bind fun _ => (Step.reads_tell _).bind fun _ => Step.reads_pure _
    obtain ⟨told, hrun⟩ := (commits_writeSheet output sheet).bind_ok hreport events t
    rw [writeOutput, hdestination]
    refine ⟨told, hrun.trans ?_⟩
    dsimp only
    rw [Tree.deliver, if_neg houtput]
    cases t.write output (Utf8.encode sheet) with
    | ok after => rfl
    | error e => rfl

/-- A run past its command line does what is said of its tree, and nothing else. -/
theorem commits_perform (options : Options) (directoryName stdin : Bytes) :
    Step.Commits (perform options directoryName (pure stdin)) fun t =>
      t.perform options directoryName stdin :=
  (Step.reads_tell .argumentsParsed).bind_commits fun _ =>
    (reads_findSettings options directoryName).bind_commits fun settings =>
    (Step.reads_ofExcept (Plan.resolve options settings)).bind_commits fun plan =>
    (reads_readRecords plan.input stdin).bind_commits fun records =>
    (reads_makeSheet records).bind_commits fun p => commits_writeOutput options plan.output p.1 p.2

/-- The outcome of a run and the tree it leaves, from a tree and what is on standard input. -/
def runIn (invocation : Invocation) (clock : Clock) (stdin : Bytes) (t : Tree) : Outcome × Tree :=
  (run invocation clock (pure stdin) : StateM Tree Outcome).run t

variable (invocation : Invocation) (clock : Clock) (stdin : Bytes) (t : Tree)

theorem runIn_of_ending {ending : Ending} (h : invocation.options = .error ending) :
    runIn invocation clock stdin t = (ending.outcome invocation, t) := by
  rw [runIn, run, h]
  rfl

def runParsed (options : Options) (environment : Environment) (directoryName : Bytes)
    (clock : Clock) (stdin : Bytes) (t : Tree) : Outcome × Tree :=
  let stages : Step (StateM Tree) Text := perform options directoryName (pure stdin)
  let ((result, events), after) := (stages.run.run []).run t
  let log := logText options environment clock events
  match result with
  | .ok stdout => (⟨.success, stdout, log⟩, after)
  | .error failure => (⟨failure.status, [], log ++ failure.report options.format⟩, after)

theorem runParsed_eq (options : Options) (environment : Environment) (directoryName : Bytes) :
    runParsed options environment directoryName clock stdin t =
      let stages : Step (StateM Tree) Text := perform options directoryName (pure stdin)
      let log := logText options environment clock ((stages.run.run []).run t).1.2
      match t.perform options directoryName stdin with
      | .ok (text, after) => (⟨.success, text, log⟩, after)
      | .error failure => (⟨failure.status, [], log ++ failure.report options.format⟩, t) := by
  obtain ⟨told, hrun⟩ := commits_perform options directoryName stdin [] t
  rw [runParsed]
  dsimp only
  rw [hrun]
  dsimp only
  cases t.perform options directoryName stdin with
  | ok p => rfl
  | error failure => rfl

theorem runIn_eq_runParsed {options : Options} (h : invocation.options = .ok options) :
    runIn invocation clock stdin t =
      runParsed options invocation.environment invocation.directoryName clock stdin t := by
  rw [runIn, run, h, runParsed]
  dsimp only
  rw [StateT.run_bind]
  generalize StateT.run _ t = ended
  obtain ⟨⟨result, events⟩, after⟩ := ended
  cases result with
  | ok text => rfl
  | error failure => rfl

theorem runIn_of_options {options : Options} (h : invocation.options = .ok options) :
    ∃ told, runIn invocation clock stdin t =
      let log := logText options invocation.environment clock told
      match t.perform options invocation.directoryName stdin with
      | .ok (text, after) => (⟨.success, text, log⟩, after)
      | .error failure => (⟨failure.status, [], log ++ failure.report options.format⟩, t) :=
  ⟨_, (runIn_eq_runParsed invocation clock stdin t h).trans (runParsed_eq clock stdin t _ _ _)⟩

/-- Where the runs take place that are looked at one by one. -/
def home : Location :=
  [Utf8.encode "w".toList]

def homeTree (files : List (Bytes × Bytes)) : Tree :=
  files.foldl (fun t file => t.put (home ++ [file.1]) (.file file.2)) (Tree.empty home)

def plainInvocation (arguments : List Text) : Invocation :=
  ⟨arguments.map Utf8.encode, ⟨none, none, none⟩, Utf8.encode "/w".toList, fun _ => []⟩

end RecordSheet
