import RecordSheet.Proofs.Files.Change
import RecordSheet.Proofs.Run.Events
import RecordSheet.Proofs.Run.Faults

namespace RecordSheet

open Command Log

namespace Tree

def delivery (t : Tree) (options : Options) (output : Bytes) (sheet : Text) (counts : Counts) :
    Except Failure (Text × Option Change) :=
  if output = Path.dash then .ok (sheet, none)
  else do
    let location ← (t.target output).mapError (Failure.writing output)
    .ok (report options output counts, some ⟨location, Utf8.encode sheet⟩)

/-- What goes to standard output in a run, and how the run changes its tree. -/
def effect (t : Tree) (options : Options) (directoryName stdin : Bytes) :
    Except Failure (Text × Option Change) := do
  let plan ← t.plan options directoryName
  let records ← t.records stdin plan.input
  t.delivery options plan.output (convert records).1 (convert records).2

section

variable (t : Tree) (invocation : Invocation) (stdin : Bytes)

/-- The paths along which a run reads: that of its settings, even if nothing is there, and its input. -/
def readPaths : List Bytes :=
  match invocation.options with
  | .error _ => []
  | .ok options =>
    options.config.getD (Path.join invocation.directoryName Settings.fileName) ::
      match t.plan options invocation.directoryName with
      | .error _ => []
      | .ok plan => plan.input.toList

def outputPath? : Option Bytes :=
  match invocation.options with
  | .error _ => none
  | .ok options => do
    let plan ← (t.plan options invocation.directoryName).toOption
    let _ ← (t.records stdin plan.input).toOption
    if plan.output = Path.dash then none else some plan.output

def change? : Option Change :=
  match invocation.options with
  | .error _ => none
  | .ok options => (t.effect options invocation.directoryName stdin).toOption.bind Prod.snd

end

variable {t u : Tree} {options : Options} {directoryName stdin output path : Bytes} {sheet : Text}
  {counts : Counts} {invocation : Invocation}

theorem deliver_eq : t.deliver options output sheet counts =
    (t.delivery options output sheet counts).map fun p => (p.1, t.apply p.2) := by
  rw [deliver, delivery]
  split
  · rfl
  · rw [write]
    cases t.target output with
    | error e => rfl
    | ok location => rfl

theorem perform_eq_effect : t.perform options directoryName stdin =
    (t.effect options directoryName stdin).map fun p => (p.1, t.apply p.2) := by
  rw [perform_eq_bind, effect, plan]
  cases t.settings options.config directoryName >>= Plan.resolve options with
  | error failure => rfl
  | ok plan =>
    change (t.records stdin plan.input >>= _) = (t.records stdin plan.input >>= _).map _
    cases t.records stdin plan.input with
    | error failure => rfl
    | ok records => exact deliver_eq

theorem toldOfOutput_eq : t.toldOfOutput options output sheet counts =
    following (t.delivery options output sheet counts) fun _ =>
      (Destination.ofPath output).told sheet := by
  rw [toldOfOutput, deliver_eq]
  cases t.delivery options output sheet counts with
  | error failure => rfl
  | ok p => rfl

theorem isFile_congr (h : u.read path = t.read path) : u.isFile path = t.isFile path := by
  rw [isFile, isFile, h]

theorem settingsAt_congr (h : u.read path = t.read path) :
    u.settingsAt path = t.settingsAt path := by
  rw [settingsAt, settingsAt, readText, readText, h]

theorem source_none_congr {directory : Bytes}
    (h : u.isFile (Path.join directory Settings.fileName) =
      t.isFile (Path.join directory Settings.fileName)) :
    u.source none directory = t.source none directory := by
  change (if u.isFile _ then _ else _) = if t.isFile _ then _ else _
  rw [h]

/-- Of settings that are looked for, only a file that is there is read. -/
theorem settingsFrom_source_none_congr {directory : Bytes}
    (h : t.isFile (Path.join directory Settings.fileName) = true →
      u.read (Path.join directory Settings.fileName) =
        t.read (Path.join directory Settings.fileName)) :
    u.settingsFrom (t.source none directory) = t.settingsFrom (t.source none directory) := by
  change u.settingsFrom (if t.isFile _ then _ else _) = t.settingsFrom (if t.isFile _ then _ else _)
  split
  · rename_i hfile
    exact settingsAt_congr (h hfile)
  · rfl

theorem records_congr {input : Option Bytes} (h : ∀ path ∈ input, u.read path = t.read path) :
    u.records stdin input = t.records stdin input := by
  cases input with
  | none => rfl
  | some path => rw [records, records, readText, readText, h path rfl]

/-- Two trees are the same to a run past its command line, as far as each of its stages comes. -/
structure RunsSame (t u : Tree) (options : Options) (directoryName stdin : Bytes) : Prop where
  toldOfSettings : u.toldOfSettings options directoryName =
    t.toldOfSettings options directoryName
  plan : u.plan options directoryName = t.plan options directoryName
  records : ∀ {p}, t.plan options directoryName = .ok p →
    u.records stdin p.input = t.records stdin p.input
  delivery : ∀ {p rs}, t.plan options directoryName = .ok p → t.records stdin p.input = .ok rs →
    ∀ sheet counts,
      u.delivery options p.output sheet counts = t.delivery options p.output sheet counts

namespace RunsSame

theorem refl (t : Tree) : t.RunsSame t options directoryName stdin :=
  ⟨rfl, rfl, fun _ => rfl, fun _ _ _ _ => rfl⟩

section

variable (h : t.RunsSame u options directoryName stdin)
include h

theorem effect : u.effect options directoryName stdin = t.effect options directoryName stdin := by
  rw [Tree.effect, Tree.effect, h.plan]
  cases hplan : t.plan options directoryName with
  | error failure => rfl
  | ok plan =>
    change (u.records stdin plan.input >>= _) = t.records stdin plan.input >>= _
    rw [h.records hplan]
    cases hrecords : t.records stdin plan.input with
    | error failure => rfl
    | ok records => exact h.delivery hplan hrecords _ _

theorem told : u.told options directoryName stdin = t.told options directoryName stdin := by
  rw [Tree.told, Tree.told, h.toldOfSettings, h.plan]
  apply congrArg
  cases hplan : t.plan options directoryName with
  | error failure => rfl
  | ok plan =>
    change following (u.records stdin plan.input) _ = following (t.records stdin plan.input) _
    rw [h.records hplan]
    cases hrecords : t.records stdin plan.input with
    | error failure => rfl
    | ok records =>
      change _ ++ u.toldOfOutput _ _ _ _ = _ ++ t.toldOfOutput _ _ _ _
      rw [toldOfOutput_eq, toldOfOutput_eq, h.delivery hplan hrecords]

end

theorem change? (h : t.RunsSame u options invocation.directoryName stdin)
    (hoptions : invocation.options = .ok options) :
    u.change? invocation stdin = t.change? invocation stdin := by
  rw [Tree.change?, Tree.change?, hoptions]
  dsimp only
  rw [h.effect]

end RunsSame

/--
A run finds the same in two trees: whatever it reads is the same, and its output would be written to
the same location.
-/
structure FindsSame (t u : Tree) (invocation : Invocation) (stdin : Bytes) : Prop where
  read : ∀ path ∈ t.readPaths invocation, u.read path = t.read path
  target : ∀ path ∈ t.outputPath? invocation stdin, u.target path = t.target path

namespace FindsSame

variable (h : t.FindsSame u invocation stdin)
  (hoptions : invocation.options = .ok options)
include h hoptions

theorem read_settings :
    let path := options.config.getD (Path.join invocation.directoryName Settings.fileName)
    u.read path = t.read path := by
  apply h.read
  rw [readPaths, hoptions]
  exact List.mem_cons_self

theorem source : u.source options.config invocation.directoryName =
    t.source options.config invocation.directoryName := by
  have hread := h.read_settings hoptions
  cases hconfig : options.config with
  | some path => rfl
  | none =>
    rw [hconfig] at hread
    exact source_none_congr (isFile_congr hread)

theorem settings : u.settings options.config invocation.directoryName =
    t.settings options.config invocation.directoryName := by
  have hread := h.read_settings hoptions
  rw [Tree.settings, Tree.settings, h.source hoptions]
  cases hconfig : options.config with
  | some path =>
    rw [hconfig] at hread
    exact settingsAt_congr hread
  | none =>
    rw [hconfig] at hread
    exact settingsFrom_source_none_congr fun _ => hread

theorem plan : u.plan options invocation.directoryName =
    t.plan options invocation.directoryName := by
  rw [Tree.plan, Tree.plan, h.settings hoptions]

variable {p : Plan} (hplan : t.plan options invocation.directoryName = .ok p)
include hplan

theorem records : u.records stdin p.input = t.records stdin p.input := by
  apply records_congr
  intro path hpath
  apply h.read
  rw [readPaths, hoptions]
  dsimp only
  rw [hplan]
  exact List.mem_cons_of_mem _ (Option.mem_toList.2 hpath)

theorem delivery {rs : List Record} (hrecords : t.records stdin p.input = .ok rs) (sheet : Text)
    (counts : Counts) :
    u.delivery options p.output sheet counts = t.delivery options p.output sheet counts := by
  rw [Tree.delivery, Tree.delivery]
  split
  · rfl
  · rename_i houtput
    have htarget : u.target p.output = t.target p.output := by
      apply h.target
      rw [outputPath?, hoptions]
      dsimp only
      rw [hplan]
      simp [Except.toOption, hrecords, houtput]
    rw [htarget]

omit hplan

theorem runsSame : t.RunsSame u options invocation.directoryName stdin where
  toldOfSettings := by
    rw [toldOfSettings, toldOfSettings, h.source hoptions, h.settings hoptions]
  plan := h.plan hoptions
  records := h.records hoptions
  delivery hplan := h.delivery hoptions hplan

end FindsSame

theorem FindsSame.change? (h : t.FindsSame u invocation stdin) :
    u.change? invocation stdin = t.change? invocation stdin := by
  cases hoptions : invocation.options with
  | error ending => rw [Tree.change?, Tree.change?, hoptions]
  | ok options => exact (h.runsSame hoptions).change? hoptions

end Tree

section

variable (options : Options) (environment : Environment) (directoryName : Bytes) (clock : Clock)
  (stdin : Bytes) (t : Tree)

theorem runParsed_of_effect : runParsed options environment directoryName clock stdin t =
    let log := logText options environment clock (t.told options directoryName stdin)
    match t.effect options directoryName stdin with
    | .ok (text, change) => (⟨.success, text, log⟩, t.apply change)
    | .error failure => (⟨failure.status, [], log ++ failure.report options.format⟩, t) := by
  rw [runParsed_of_told, Tree.perform_eq_effect]
  dsimp only
  cases t.effect options directoryName stdin with
  | error failure => rfl
  | ok p => rfl

theorem snd_runParsed : (runParsed options environment directoryName clock stdin t).2 =
    t.apply ((t.effect options directoryName stdin).toOption.bind Prod.snd) := by
  rw [runParsed_of_effect]
  dsimp only
  cases t.effect options directoryName stdin with
  | error failure => rfl
  | ok p => rfl

variable {options directoryName stdin t} {u : Tree}

theorem Tree.RunsSame.fst_runParsed (h : t.RunsSame u options directoryName stdin) :
    (runParsed options environment directoryName clock stdin u).1 =
      (runParsed options environment directoryName clock stdin t).1 := by
  rw [runParsed_of_effect, runParsed_of_effect, h.effect, h.told]
  dsimp only
  cases t.effect options directoryName stdin with
  | error failure => rfl
  | ok p => rfl

end

section

variable (invocation : Invocation) (clock : Clock) (stdin : Bytes) (t : Tree)

/-- A run leaves its tree with the change that it makes, whatever the time. -/
theorem snd_runIn : (runIn invocation clock stdin t).2 = t.apply (t.change? invocation stdin) := by
  rw [Tree.change?]
  cases hoptions : invocation.options with
  | error stop =>
    rw [runIn_of_ending _ _ _ _ hoptions]
    rfl
  | ok options =>
    rw [runIn_eq_runParsed _ _ _ _ hoptions]
    exact snd_runParsed options _ _ clock stdin t

/-- The time has no influence on what a run does; only its log tells of it. -/
theorem runIn_any_clock (clock' : Clock) :
    (runIn invocation clock' stdin t).1.status = (runIn invocation clock stdin t).1.status ∧
      (runIn invocation clock' stdin t).1.stdout = (runIn invocation clock stdin t).1.stdout := by
  cases hoptions : invocation.options with
  | error stop =>
    rw [runIn_of_ending _ _ _ _ hoptions, runIn_of_ending _ _ _ _ hoptions]
    exact ⟨rfl, rfl⟩
  | ok options =>
    rw [runIn_of_told _ _ _ _ hoptions, runIn_of_told _ _ _ _ hoptions]
    cases t.perform options invocation.directoryName stdin with
    | error failure => exact ⟨rfl, rfl⟩
    | ok p => exact ⟨rfl, rfl⟩

variable {invocation stdin t} {u : Tree}

theorem Tree.RunsSame.fst_runIn {options : Options}
    (h : t.RunsSame u options invocation.directoryName stdin)
    (hoptions : invocation.options = .ok options) :
    (runIn invocation clock stdin u).1 = (runIn invocation clock stdin t).1 := by
  rw [runIn_eq_runParsed _ _ _ _ hoptions, runIn_eq_runParsed _ _ _ _ hoptions]
  exact h.fst_runParsed _ clock

theorem Tree.FindsSame.fst_runIn (h : t.FindsSame u invocation stdin) :
    (runIn invocation clock stdin u).1 = (runIn invocation clock stdin t).1 := by
  cases hoptions : invocation.options with
  | error ending => rw [runIn_of_ending _ _ _ _ hoptions, runIn_of_ending _ _ _ _ hoptions]
  | ok options => exact (h.runsSame hoptions).fst_runIn clock hoptions

end

end RecordSheet
