import RecordSheet.Proofs.Run.Effects

namespace RecordSheet

open Command Log

/-- The options with the paths they lack: those of settings, or else standard input to read from. -/
def Command.Options.filled (options : Options) (s : Settings) : Options :=
  { options with
    input := some ((options.input.or s.input).getD Path.dash)
    output := some (options.output.getD s.output) }

def Command.Options.NamesPaths (options : Options) : Prop :=
  (∃ input, options.input = some input) ∧ ∃ output, options.output = some output

theorem Command.Options.namesPaths_filled (options : Options) (s : Settings) :
    (options.filled s).NamesPaths :=
  ⟨⟨_, rfl⟩, _, rfl⟩

namespace Plan

theorem resolve_filled (options : Options) (s other : Settings) :
    resolve (options.filled s) other = resolve options s := by
  rw [resolve, resolve, Options.filled]
  dsimp only [Option.getD_some, Option.some_or]
  cases options.input.or s.input with
  | none => rfl
  | some path => rfl

theorem resolve_congr {options : Options} (h : options.NamesPaths) (s other : Settings) :
    resolve options other = resolve options s := by
  obtain ⟨⟨input, hinput⟩, output, houtput⟩ := h
  rw [resolve, resolve, hinput, houtput]
  rfl

end Plan

theorem Settings.ofText_nil : Settings.ofText [] = .ok .default := by
  decide +kernel

namespace Tree

variable {t : Tree} {options : Options} {directoryName stdin path bytes : Bytes} {text : Text}
  {s : Settings} {location : Location}

theorem isFile_of_read (h : t.read path = .ok bytes) : t.isFile path = true := by
  rw [isFile, h]

theorem SettingsFile.congr {u : Tree} {options' : Options}
    (h : t.SettingsFile options directoryName path)
    (hconfig : options'.config = options.config) (hfile : u.isFile path = true) :
    u.SettingsFile options' directoryName path := by
  cases h with
  | named hnamed => exact .named (hconfig.trans hnamed)
  | found hnone _ => exact .found (hconfig.trans hnone) hfile

theorem SettingsFile.source_congr {u : Tree} (h : t.SettingsFile options directoryName path)
    (hfile : u.isFile path = true) :
    u.source options.config directoryName = t.source options.config directoryName := by
  cases h with
  | named hconfig =>
    rw [hconfig]
    rfl
  | found hconfig hfound =>
    rw [hconfig]
    exact (if_pos hfile).trans (if_pos hfound).symm

theorem settings_of_text (hfile : t.SettingsFile options directoryName path)
    (htext : t.HasText path text) (hs : Settings.ofText text = .ok s) :
    t.settings options.config directoryName = .ok s :=
  settings_eq_ok_iff.2 (.read hfile htext hs)

/-- A run with both paths on its command line is the same with any settings that are valid. -/
theorem SettingsFile.runsSame {content : Text} {other : Settings}
    (hfile : t.SettingsFile options directoryName path) (htext : t.HasText path text)
    (hs : Settings.ofText text = .ok s) (hother : Settings.ofText content = .ok other)
    (hpath : t.find path = .ok location) (hpaths : options.NamesPaths)
    (hinput : ∀ plan, t.HasPlan options directoryName plan →
      ∀ input ∈ plan.input, t.find input ≠ t.find path) :
    t.RunsSame (t.insert location (.file (Utf8.encode content))) options directoryName stdin := by
  obtain ⟨found, hfound, hentry⟩ := read_eq_ok_iff.1 htext
  obtain rfl : location = found := by
    rw [hpath] at hfound
    cases hfound
    rfl
  have hputs : t.Puts location (Utf8.encode content) _ := puts_insert
  have hread := hputs.read_same hentry hpath
  have hisFile := isFile_of_read hread
  have hsettings := settings_of_text hfile htext hs
  have hsettings' := settings_of_text (hfile.congr rfl hisFile) hread hother
  constructor
  · rw [toldOfSettings, toldOfSettings, hfile.source_congr hisFile, hsettings, hsettings']
    rfl
  · rw [plan, plan, hsettings, hsettings']
    exact Plan.resolve_congr hpaths s other
  · intro p hplan
    apply records_congr
    intro input hmem
    have hne := hinput p (resolve_settings_eq_ok_iff.1 hplan) input hmem
    rw [hpath] at hne
    exact hputs.read_other hentry hne
  · intro p rs hplan hrecords sheet counts
    rw [delivery, delivery, hputs.target_eq hentry]

section

variable (hs : t.settings options.config directoryName = .ok s)
include hs

theorem plan_filled : t.plan (options.filled s) directoryName = t.plan options directoryName := by
  have hfilled : t.settings (options.filled s).config directoryName = .ok s := hs
  rw [plan, plan, hfilled, hs]
  exact Plan.resolve_filled options s s

theorem effect_filled :
    t.effect (options.filled s) directoryName stdin = t.effect options directoryName stdin := by
  rw [effect, effect, plan_filled hs]
  rfl

theorem told_filled :
    t.told (options.filled s) directoryName stdin = t.told options directoryName stdin := by
  rw [told, told, plan_filled hs]
  rfl

end

end Tree

/-- Two runs have the same outcome, and leave the same at all locations but one. -/
structure AgreeApart (location : Location) (ran ran' : Outcome × Tree) : Prop where
  outcome : ran'.1 = ran.1
  working : ran'.2.working = ran.2.working
  entries : ∀ l : Location, l ≠ location → ran'.2.entries[l]? = ran.2.entries[l]?

section

variable {t : Tree} {options : Options} {directoryName stdin : Bytes} {location : Location}
  (environment : Environment) (clock : Clock)

theorem runParsed_filled {s : Settings}
    (hs : t.settings options.config directoryName = .ok s) :
    runParsed (options.filled s) environment directoryName clock stdin t =
      runParsed options environment directoryName clock stdin t := by
  rw [runParsed_of_effect, runParsed_of_effect, Tree.effect_filled hs, Tree.told_filled hs]
  rfl

theorem Tree.RunsSame.agreeApart {content : Bytes}
    (h : t.RunsSame (t.insert location (.file content)) options directoryName stdin) :
    AgreeApart location (runParsed options environment directoryName clock stdin t)
      (runParsed options environment directoryName clock stdin
        (t.insert location (.file content))) := by
  refine ⟨h.fst_runParsed environment clock, ?_, fun l hl => ?_⟩
  · rw [snd_runParsed, snd_runParsed, Tree.working_apply, Tree.working_apply]
    rfl
  · rw [snd_runParsed, snd_runParsed, h.effect]
    generalize (t.effect options directoryName stdin).toOption.bind Prod.snd = change
    cases change with
    | none => rw [Tree.apply, Tree.apply, Tree.puts_insert.entries, if_neg hl]
    | some change =>
      simp only [Tree.apply, Tree.puts_insert.entries, if_neg hl]

end

/--
A file of settings does what its paths would do on the command line. A run agrees with the one that
finds the file empty and has the paths of the file in the places that the command line leaves open.
If the command line names both paths, the run agrees with those that find any other valid settings in
the file. If it names standard input, the document is what is there, whatever the settings name.
-/
theorem runIn_filled {invocation : Invocation} {options : Options} {path : Bytes} {text : Text}
    {s : Settings} {t : Tree} (clock : Clock) (stdin : Bytes)
    (hoptions : invocation.options = .ok options)
    (hfile : t.SettingsFile options invocation.directoryName path)
    (htext : t.HasText path text) (hs : Settings.ofText text = .ok s)
    (hinput : ∀ plan, t.HasPlan options invocation.directoryName plan →
      ∀ input ∈ plan.input, t.find input ≠ t.find path) :
    ∃ location, t.find path = .ok location ∧
      let refilled (content : Text) : Tree := t.insert location (.file (Utf8.encode content))
      let ran := runIn invocation clock stdin t
      let filled := runParsed (options.filled s) invocation.environment invocation.directoryName
        clock stdin (refilled [])
      AgreeApart location ran filled ∧
      (∀ arguments, readOptions arguments invocation.environment.config = .ok (options.filled s) →
        runIn { invocation with arguments } clock stdin (refilled []) = filled) ∧
      (options.NamesPaths → ∀ content other, Settings.ofText content = .ok other →
        AgreeApart location ran (runIn invocation clock stdin (refilled content))) ∧
      (options.input = some Path.dash → ∀ plan, t.HasPlan options invocation.directoryName plan →
        ∀ document, t.HasDocument stdin plan.input document ↔ Record.ofBytes stdin = document) := by
  obtain ⟨location, hlocation, -⟩ := Tree.read_eq_ok_iff.1 htext
  have hsettings := Tree.settings_of_text hfile htext hs
  refine ⟨location, hlocation, ?_, ?_, ?_, ?_⟩
  · have hfile' : t.SettingsFile (options.filled s) invocation.directoryName path :=
      hfile.congr rfl (Tree.isFile_of_read htext)
    have hinput' : ∀ plan, t.HasPlan (options.filled s) invocation.directoryName plan →
        ∀ input ∈ plan.input, t.find input ≠ t.find path := by
      intro plan hplan
      apply hinput
      rw [← Tree.resolve_settings_eq_ok_iff] at hplan ⊢
      exact (Tree.plan_filled hsettings).symm.trans hplan
    rw [runIn_eq_runParsed _ _ _ _ hoptions, ← runParsed_filled _ _ hsettings]
    exact (hfile'.runsSame htext hs Settings.ofText_nil hlocation
      (options.namesPaths_filled s) hinput').agreeApart _ clock
  · intro arguments hfilled
    exact runIn_eq_runParsed { invocation with arguments } clock stdin _ hfilled
  · intro hpaths content other hother
    rw [runIn_eq_runParsed _ _ _ _ hoptions, runIn_eq_runParsed _ _ _ _ hoptions]
    exact (hfile.runsSame htext hs hother hlocation hpaths hinput).agreeApart _ clock
  · intro hdash plan hplan document
    cases hplan with
    | of hs' houtput =>
      rw [hdash]
      exact Tree.hasDocument_none_iff

/-- Settings that could not be used if the command line did not name an output. -/
def inputSettings : Text :=
  "input = \"i\"\noutput = \"\"\n".toList

def settingsPath : Bytes :=
  Utf8.encode "/w/custom.toml".toList

def inputSettingsTree : Tree :=
  homeTree [(Utf8.encode "i".toList, Utf8.encode "\x7b\"data\":[]\x7d".toList),
    (Utf8.encode "custom.toml".toList, Utf8.encode inputSettings)]

def outputOptions : Options :=
  { Options.none with config := some settingsPath, output := some (Utf8.encode "x".toList) }

theorem runIn_filled_input :
    let invocation := plainInvocation
      ["--config".toList, "/w/custom.toml".toList, "-o".toList, "x".toList]
    let directory := invocation.directoryName
    let options := outputOptions
    let clock : Clock := ⟨fun _ => [], []⟩
    let s : Settings := ⟨[], some (Utf8.encode "i".toList)⟩
    let t := inputSettingsTree
    invocation.options = .ok options ∧ t.SettingsFile options directory settingsPath ∧
    t.HasText settingsPath inputSettings ∧ Settings.ofText inputSettings = .ok s ∧
    (∀ plan, t.HasPlan options directory plan →
      ∀ input ∈ plan.input, t.find input ≠ t.find settingsPath) ∧
    ∃ location, t.find settingsPath = .ok location ∧
      let refilled (content : Text) : Tree := t.insert location (.file (Utf8.encode content))
      let ran := runIn invocation clock [] t
      let filled := runParsed (options.filled s) invocation.environment directory clock []
        (refilled [])
      AgreeApart location ran filled ∧
      (∀ arguments, readOptions arguments none = .ok (options.filled s) →
        runIn { invocation with arguments } clock [] (refilled []) = filled) ∧
      (options.NamesPaths → ∀ content other, Settings.ofText content = .ok other →
        AgreeApart location ran (runIn invocation clock [] (refilled content))) ∧
      (options.input = some Path.dash → ∀ plan, t.HasPlan options directory plan →
        ∀ document, t.HasDocument [] plan.input document ↔ Record.ofBytes [] = document) := by
  have hoptions : (plainInvocation ["--config".toList, "/w/custom.toml".toList, "-o".toList,
      "x".toList]).options = .ok outputOptions := by
    decide +kernel
  have hfile : inputSettingsTree.SettingsFile outputOptions (Utf8.encode "/w".toList)
      settingsPath :=
    .named rfl
  have htext : inputSettingsTree.HasText settingsPath inputSettings := by
    rw [Tree.HasText]
    decide +kernel
  have hs : Settings.ofText inputSettings = .ok ⟨[], some (Utf8.encode "i".toList)⟩ := by
    decide +kernel
  have hplan : inputSettingsTree.plan outputOptions (Utf8.encode "/w".toList) =
      .ok ⟨some (Utf8.encode "i".toList), Utf8.encode "x".toList⟩ := by
    decide +kernel
  have hinput : ∀ plan, inputSettingsTree.HasPlan outputOptions (Utf8.encode "/w".toList) plan →
      ∀ input ∈ plan.input, inputSettingsTree.find input ≠ inputSettingsTree.find settingsPath := by
    intro plan h input hmem
    obtain rfl := Except.ok.inj (hplan.symm.trans (Tree.resolve_settings_eq_ok_iff.2 h))
    cases hmem
    decide +kernel
  exact ⟨hoptions, hfile, htext, hs, hinput,
    runIn_filled ⟨fun _ => [], []⟩ [] hoptions hfile htext hs hinput⟩

end RecordSheet
