import RecordSheet.Proofs.Run.Stages

namespace RecordSheet

open Command Log

def Log.following {α : Type} (x : Except Failure α) (next : α → List Event) : List Event :=
  match x with
  | .ok a => next a
  | .error _ => []

theorem Log.following_append {α : Type} (x : Except Failure α) (f g : α → List Event) :
    following x f ++ following x g = following x fun a => f a ++ g a := by
  cases x with
  | ok a => rfl
  | error failure => rfl

theorem Log.following_bind {α β : Type} (x : Except Failure α) (f : α → Except Failure β)
    (next : β → List Event) :
    following (x >>= f) next = following x fun a => following (f a) next := by
  cases x with
  | ok a => rfl
  | error failure => rfl

def Settings.Source.told : Settings.Source → List Event
  | .found path => [.settingsFound path]
  | _ => []

def toldOfRecords (records : List Record) : List Event :=
  [.recordsRead records.length, .inputRead] ++ (skipped 0 records).map .recordSkipped ++
    [.recordsConverted (convert records).2.rows, .sheetConverted]

def Destination.told (sheet : Text) : Destination → List Event
  | .standardOutput => [.outputWritten]
  | .file path => [.sheetWritten path (Utf8.size sheet), .outputWritten]

namespace Tree

def toldOfSettings (t : Tree) (options : Options) (directory : Bytes) : List Event :=
  (t.source options.config directory).told ++
    following (t.settings options.config directory) fun _ => [.settingsLoaded]

def toldOfOutput (t : Tree) (options : Options) (output : Bytes) (sheet : Text) (counts : Counts) :
    List Event :=
  following (t.deliver options output sheet counts) fun _ => (Destination.ofPath output).told sheet

def plan (t : Tree) (options : Options) (directoryName : Bytes) : Except Failure Plan :=
  t.settings options.config directoryName >>= Plan.resolve options

def told (t : Tree) (options : Options) (directoryName stdin : Bytes) : List Event :=
  .argumentsParsed :: t.toldOfSettings options directoryName ++
    following (t.plan options directoryName) fun plan =>
      following (t.records stdin plan.input) fun records =>
        toldOfRecords records ++
          t.toldOfOutput options plan.output (convert records).1 (convert records).2

end Tree

namespace Step

variable {α β : Type}

/-- What a step tells in a tree, whatever events have been told before. -/
def Tells (x : Step (StateM Tree) α) (e : Tree → List Event) : Prop :=
  ∀ events t, ((x.run.run events).run t).1.2 = events ++ e t

theorem tells_tell (e : Event) : Tells (tell e) fun _ => [e] :=
  fun _ _ => rfl

theorem tells_pure (a : α) : Tells (pure a) fun _ => [] :=
  fun events _ => (List.append_nil events).symm

theorem tells_await (action : StateM Tree (Except Failure α)) : Tells (await action) fun _ => [] :=
  fun events _ => (List.append_nil events).symm

theorem tells_ofExcept (r : Except Failure α) : Tells (ofExcept r) fun _ => [] :=
  fun events _ => (List.append_nil events).symm

variable {x : Step (StateM Tree) α} {y : α → Step (StateM Tree) β} {e : Tree → List Event}

theorem Tells.bind {f : Tree → Except Failure α} {g : α → Tree → List Event} (hx : Tells x e)
    (hreads : Reads x f) (hy : ∀ a, Tells (y a) (g a)) :
    Tells (x >>= y) fun t => e t ++ following (f t) fun a => g a t := by
  intro events t
  obtain ⟨told, hrun⟩ := hreads events t
  have htold := hx events t
  rw [hrun] at htold
  obtain rfl : told = events ++ e t := htold
  rw [ExceptT.run_bind, StateT.run_bind, StateT.run_bind, hrun]
  dsimp only
  cases f t with
  | ok a => exact (hy a (events ++ e t) t).trans (List.append_assoc _ _ _)
  | error failure => exact congrArg _ (List.append_nil _).symm

/-- What is told after a tree has been changed does not depend on the tree. -/
theorem Tells.bind_commits {f : Tree → Except Failure (α × Tree)} {g : α → List Event}
    (hx : Tells x e) (hcommits : Commits x f) (hy : ∀ a, Tells (y a) fun _ => g a) :
    Tells (x >>= y) fun t => e t ++ following (f t) fun p => g p.1 := by
  intro events t
  obtain ⟨told, hrun⟩ := hcommits events t
  have htold := hx events t
  rw [hrun] at htold
  rw [ExceptT.run_bind, StateT.run_bind, StateT.run_bind, hrun]
  dsimp only
  cases hf : f t with
  | ok p =>
    rw [hf] at htold
    obtain rfl : told = events ++ e t := htold
    exact (hy p.1 (events ++ e t) p.2).trans (List.append_assoc _ _ _)
  | error failure =>
    rw [hf] at htold
    obtain rfl : told = events ++ e t := htold
    exact congrArg _ (List.append_nil _).symm

theorem tells_forM {xs : List α} {e : α → Event} :
    Tells (xs.forM fun a => tell (e a)) fun _ => xs.map e := by
  induction xs with
  | nil => exact tells_pure ()
  | cons a xs ih => exact (tells_tell (e a)).bind (reads_tell (e a)) fun _ => ih

end Step

theorem tells_findSettings (options : Options) (directory : Bytes) :
    Step.Tells (findSettings options directory) fun t => t.toldOfSettings options directory := by
  have htell : ∀ settings : Settings, Step.Tells (do
      Step.tell .settingsLoaded
      return settings) fun _ => [.settingsLoaded] := fun settings =>
    (Step.tells_tell _).bind (Step.reads_tell _) fun _ => Step.tells_pure settings
  have hload : ∀ source, Step.Tells (do
      let settings ← Step.await (Settings.ofSource source)
      Step.tell .settingsLoaded
      return settings) fun t => following (t.settingsFrom source) fun _ => [.settingsLoaded] :=
    fun source => (Step.tells_await _).bind (reads_ofSource source) htell
  refine (Step.tells_await _).bind (reads_source options.config directory)
    (g := fun source t => source.told ++ following (t.settingsFrom source) fun _ => [.settingsLoaded])
    fun source => ?_
  cases source with
  | defaults => exact hload .defaults
  | named path => exact hload (.named path)
  | found path =>
    exact (Step.tells_tell (.settingsFound path)).bind (Step.reads_tell _) fun _ => hload _

theorem tells_readRecords (input : Option Bytes) (stdin : Bytes) :
    Step.Tells (readRecords input (pure stdin)) fun t =>
      following (t.records stdin input) fun records =>
        [.recordsRead records.length, .inputRead] := by
  have htell : ∀ records : List Record, Step.Tells (do
      Step.tell (.recordsRead records.length)
      Step.tell .inputRead
      return records) fun _ => [.recordsRead records.length, .inputRead] := fun records =>
    (Step.tells_tell _).bind (Step.reads_tell _) fun _ =>
      (Step.tells_tell _).bind (Step.reads_tell _) fun _ => Step.tells_pure records
  cases input with
  | some path =>
    exact (Step.tells_await _).bind (Step.reads_await (run_load · path)) htell
  | none =>
    exact (Step.tells_await _).bind (f := fun t => t.records stdin none)
      (Step.reads_await fun _ => rfl) htell

theorem tells_makeSheet (records : List Record) :
    Step.Tells (makeSheet records) fun _ => (skipped 0 records).map .recordSkipped ++
      [.recordsConverted (convert records).2.rows, .sheetConverted] :=
  Step.tells_forM.bind Step.reads_forM fun _ => (Step.tells_tell _).bind (Step.reads_tell _) fun _ =>
    (Step.tells_tell _).bind (Step.reads_tell _) fun _ => Step.tells_pure (convert records)

theorem tells_writeOutput (options : Options) (output : Bytes) (sheet : Text) (counts : Counts) :
    Step.Tells (writeOutput options output sheet counts) fun t =>
      t.toldOfOutput options output sheet counts := by
  by_cases houtput : output = Path.dash
  · subst houtput
    exact (Step.tells_tell .outputWritten).bind (Step.reads_tell _) fun _ => Step.tells_pure sheet
  · have hdestination : Destination.ofPath output = .file output := if_neg houtput
    have htell : ∀ u : Unit, Step.Tells (do
        Step.tell (.sheetWritten output (Utf8.size sheet))
        Step.tell .outputWritten
        return report options output counts) fun _ => (Destination.file output).told sheet :=
      fun _ => (Step.tells_tell _).bind (Step.reads_tell _) fun _ =>
        (Step.tells_tell _).bind (Step.reads_tell _) fun _ => Step.tells_pure _
    intro events t
    have htold := (Step.tells_await _).bind_commits (commits_writeSheet output sheet) htell events t
    rw [writeOutput, hdestination]
    refine htold.trans ?_
    dsimp only
    rw [Tree.toldOfOutput, Tree.deliver, if_neg houtput, hdestination]
    cases t.write output (Utf8.encode sheet) with
    | ok after => rfl
    | error e => rfl

theorem tells_perform (options : Options) (directoryName stdin : Bytes) :
    Step.Tells (perform options directoryName (pure stdin)) fun t =>
      t.told options directoryName stdin := by
  intro events t
  have htold := ((Step.tells_tell .argumentsParsed).bind (Step.reads_tell _) fun _ =>
    (tells_findSettings options directoryName).bind (reads_findSettings _ _) fun settings =>
    (Step.tells_ofExcept (Plan.resolve options settings)).bind (Step.reads_ofExcept _) fun plan =>
    (tells_readRecords plan.input stdin).bind (reads_readRecords _ _) fun records =>
    (tells_makeSheet records).bind (reads_makeSheet _) fun p =>
    tells_writeOutput options plan.output p.1 p.2) events t
  refine htold.trans ?_
  dsimp only
  rw [Tree.told, Tree.plan, following_bind]
  simp only [following_append]
  rfl

theorem runParsed_of_told (options : Options) (environment : Environment) (directoryName : Bytes)
    (clock : Clock) (stdin : Bytes) (t : Tree) :
    runParsed options environment directoryName clock stdin t =
      let log := logText options environment clock (t.told options directoryName stdin)
      match t.perform options directoryName stdin with
      | .ok (text, after) => (⟨.success, text, log⟩, after)
      | .error failure => (⟨failure.status, [], log ++ failure.report options.format⟩, t) := by
  have htold := tells_perform options directoryName stdin [] t
  have hrun := runParsed_eq clock stdin t options environment directoryName
  dsimp only at hrun
  rw [htold, List.nil_append] at hrun
  exact hrun

theorem runIn_of_told {options : Options} (invocation : Invocation) (clock : Clock) (stdin : Bytes)
    (t : Tree) (h : invocation.options = .ok options) :
    runIn invocation clock stdin t =
      let log := logText options invocation.environment clock
        (t.told options invocation.directoryName stdin)
      match t.perform options invocation.directoryName stdin with
      | .ok (text, after) => (⟨.success, text, log⟩, after)
      | .error failure => (⟨failure.status, [], log ++ failure.report options.format⟩, t) :=
  (runIn_eq_runParsed invocation clock stdin t h).trans (runParsed_of_told _ _ _ _ _ _)

end RecordSheet
