import RecordSheet.Proofs.Command.FormatRequest
import RecordSheet.Proofs.Run.AllOrNothing

namespace RecordSheet

open Command Log

namespace Tree

def HasText (t : Tree) (path : Bytes) (text : Text) : Prop :=
  t.read path = .ok (Utf8.encode text)

theorem exists_readText_eq_error_iff {t : Tree} {path : Bytes} :
    (∃ e, t.readText path = .error e) ↔ ∀ text, ¬t.HasText path text := by
  simp only [HasText, ← readText_eq_ok_iff]
  cases t.readText path with
  | error e => exact ⟨fun _ _ => nofun, fun _ => ⟨e, rfl⟩⟩
  | ok text => exact ⟨nofun, fun h => absurd rfl (h text)⟩

section

variable (t : Tree) (options : Options) (directoryName stdin : Bytes)

/-- The file of the settings: the one that is named, or else one that is there. -/
inductive SettingsFile : (path : Bytes) → Prop
  | named {path : Bytes} (hconfig : options.config = some path) : SettingsFile path
  | found (hconfig : options.config = none)
    (hfile : t.isFile (Path.join directoryName Settings.fileName) = true) :
    SettingsFile (Path.join directoryName Settings.fileName)

/-- The settings of a run: those in their file, or the defaults if there is no file. -/
inductive HasSettings : Settings → Prop
  | defaults (hfile : ∀ path, ¬t.SettingsFile options directoryName path) :
    HasSettings .default
  | read {path : Bytes} {text : Text} {s : Settings}
    (hfile : t.SettingsFile options directoryName path) (htext : t.HasText path text)
    (hs : Settings.ofText text = .ok s) : HasSettings s

/-- What a run is to do: the paths of the command line, or else those of the settings. -/
inductive HasPlan : Plan → Prop
  | of {s : Settings} (hs : t.HasSettings options directoryName s)
    (houtput : options.output.getD s.output ≠ []) :
    HasPlan ⟨(options.input.or s.input).filter (· ≠ Path.dash), options.output.getD s.output⟩

/--
A document that is there to be read, with its records or with what is wrong with it. A file has to
be a text, but standard input may be any bytes.
-/
inductive HasDocument : Option Bytes → Except InvalidDocument (List Record) → Prop
  | file {path : Bytes} {text : Text} (htext : t.HasText path text) :
    HasDocument (some path) (Record.ofText text)
  | standardInput : HasDocument none (Record.ofBytes stdin)

/--
The first stage that fails, with its failure. A fault needs what its own stage finds and that the
stages before are passed, and nothing of the stages after.
-/
inductive FirstFault : Failure → Prop
  | settingsUnread {path : Bytes} {e : FileError}
    (hfile : t.SettingsFile options directoryName path) (htext : t.readText path = .error e) :
    FirstFault (.reading path e)
  | settingsInvalid {path : Bytes} {text : Text} {fault : Toml.Fault}
    (hfile : t.SettingsFile options directoryName path) (htext : t.HasText path text)
    (hs : Settings.ofText text = .error fault) :
    FirstFault (.invalidSettings (fault.render text))
  | outputEmpty {s : Settings} (hs : t.HasSettings options directoryName s)
    (houtput : options.output.getD s.output = []) :
    FirstFault (.usage "output path must not be empty".toList)
  | documentUnread {plan : Plan} {path : Bytes} {e : FileError}
    (hplan : t.HasPlan options directoryName plan) (hinput : plan.input = some path)
    (htext : t.readText path = .error e) : FirstFault (.reading path e)
  | documentInvalid {plan : Plan} {e : InvalidDocument}
    (hplan : t.HasPlan options directoryName plan)
    (hdocument : t.HasDocument stdin plan.input (.error e)) : FirstFault (.ofDocument e)
  | outputUnwritable {plan : Plan} {records : List Record} {e : FileError}
    (hplan : t.HasPlan options directoryName plan)
    (hdocument : t.HasDocument stdin plan.input (.ok records)) (houtput : plan.output ≠ Path.dash)
    (hwrite : t.write plan.output (Utf8.encode (convert records).1) = .error e) :
    FirstFault (.writing plan.output e)

end

variable {t : Tree} {options : Options} {directoryName stdin path : Bytes} {s : Settings}
  {plan : Plan} {failure : Failure} {records : List Record}

theorem settings_of_file (h : t.SettingsFile options directoryName path) :
    t.settings options.config directoryName = t.settingsAt path := by
  cases h with
  | named hconfig =>
    rw [settings, hconfig]
    rfl
  | found hconfig hfile =>
    have hsource : t.source none directoryName =
        .found (Path.join directoryName Settings.fileName) := if_pos hfile
    rw [settings, hconfig, hsource]
    rfl

theorem settings_of_no_file (h : ∀ path, ¬t.SettingsFile options directoryName path) :
    t.settings options.config directoryName = .ok .default := by
  cases hconfig : options.config with
  | some path => exact absurd (.named hconfig) (h path)
  | none =>
    have hsource : t.source none directoryName = .defaults :=
      if_neg fun hfile => h _ (.found hconfig hfile)
    rw [settings, hsource]
    rfl

theorem settings_eq_ok_iff : t.settings options.config directoryName = .ok s ↔
    t.HasSettings options directoryName s := by
  constructor
  · intro h
    by_cases hfile : ∃ path, t.SettingsFile options directoryName path
    · obtain ⟨path, hfile⟩ := hfile
      rw [settings_of_file hfile] at h
      obtain ⟨text, htext, hs⟩ := settingsAt_eq_ok_iff.1 h
      exact .read hfile (readText_eq_ok_iff.1 htext) hs
    · simp only [not_exists] at hfile
      rw [settings_of_no_file hfile] at h
      cases h
      exact .defaults hfile
  · intro h
    cases h with
    | defaults hfile => exact settings_of_no_file hfile
    | read hfile htext hs =>
      rw [settings_of_file hfile]
      exact settingsAt_eq_ok_iff.2 ⟨_, readText_eq_ok_iff.2 htext, hs⟩

theorem settingsAt_eq_error_iff : t.settingsAt path = .error failure ↔
    (∃ e, t.readText path = .error e ∧ .reading path e = failure) ∨
    ∃ text, t.readText path = .ok text ∧ ∃ fault, Settings.ofText text = .error fault ∧
      .invalidSettings (fault.render text) = failure := by
  simp only [settingsAt, Settings.ofFileText, bind_eq_error_iff, mapError_eq_error_iff,
    mapError_eq_ok_iff]

theorem settings_eq_error_iff : t.settings options.config directoryName = .error failure ↔
    ∃ path, t.SettingsFile options directoryName path ∧ t.settingsAt path = .error failure := by
  constructor
  · intro h
    by_cases hfile : ∃ path, t.SettingsFile options directoryName path
    · obtain ⟨path, hfile⟩ := hfile
      exact ⟨path, hfile, settings_of_file hfile ▸ h⟩
    · simp only [not_exists] at hfile
      rw [settings_of_no_file hfile] at h
      cases h
  · rintro ⟨path, hfile, h⟩
    rw [settings_of_file hfile, h]

theorem resolve_settings_eq_ok_iff :
    t.settings options.config directoryName >>= Plan.resolve options = .ok plan ↔
      t.HasPlan options directoryName plan := by
  simp only [bind_eq_ok_iff, settings_eq_ok_iff]
  constructor
  · rintro ⟨s, hs, h⟩
    unfold Plan.resolve at h
    dsimp only at h
    split at h
    · cases h
    · rename_i houtput
      cases h
      exact .of hs fun hempty => houtput (List.isEmpty_iff.2 hempty)
  · rintro ⟨hs, houtput⟩
    exact ⟨_, hs, if_neg fun hempty => houtput (List.isEmpty_iff.1 hempty)⟩

theorem resolve_eq_error_iff : Plan.resolve options s = .error failure ↔
    options.output.getD s.output = [] ∧
      failure = .usage "output path must not be empty".toList := by
  unfold Plan.resolve
  dsimp only
  split
  · rename_i houtput
    rw [List.isEmpty_iff] at houtput
    simp only [houtput, Except.error.injEq, true_and, @eq_comm _ failure]
  · rename_i houtput
    rw [List.isEmpty_iff] at houtput
    simp only [houtput, false_and, reduceCtorEq]

theorem hasDocument_some_iff {document : Except InvalidDocument (List Record)} :
    t.HasDocument stdin (some path) document ↔
      ∃ text, t.HasText path text ∧ Record.ofText text = document := by
  constructor
  · rintro ⟨htext⟩
    exact ⟨_, htext, rfl⟩
  · rintro ⟨text, htext, rfl⟩
    exact .file htext

theorem hasDocument_none_iff {document : Except InvalidDocument (List Record)} :
    t.HasDocument stdin none document ↔ Record.ofBytes stdin = document := by
  constructor
  · rintro ⟨⟩
    rfl
  · rintro rfl
    exact .standardInput

theorem records_eq_ok_iff {input : Option Bytes} :
    t.records stdin input = .ok records ↔ t.HasDocument stdin input (.ok records) := by
  cases input with
  | some path =>
    simp only [Tree.records, bind_eq_ok_iff, mapError_eq_ok_iff, readText_eq_ok_iff,
      hasDocument_some_iff, HasText]
  | none => simp only [Tree.records, mapError_eq_ok_iff, hasDocument_none_iff]

theorem records_eq_error_iff {input : Option Bytes} :
    t.records stdin input = .error failure ↔
      (∃ path e, input = some path ∧ t.readText path = .error e ∧ .reading path e = failure) ∨
      ∃ e, t.HasDocument stdin input (.error e) ∧ .ofDocument e = failure := by
  cases input with
  | some path =>
    simp only [Tree.records, bind_eq_error_iff, mapError_eq_error_iff, mapError_eq_ok_iff,
      readText_eq_ok_iff, hasDocument_some_iff, HasText, Option.some.injEq, ↓existsAndEq,
      true_and]
    apply or_congr_right
    constructor
    · rintro ⟨text, htext, e, he, hfailure⟩
      exact ⟨e, ⟨text, htext, he⟩, hfailure⟩
    · rintro ⟨e, ⟨text, htext, he⟩, hfailure⟩
      exact ⟨text, htext, e, he, hfailure⟩
  | none =>
    simp only [Tree.records, mapError_eq_error_iff, hasDocument_none_iff, reduceCtorEq, false_and,
      exists_false, false_or]

theorem deliver_eq_error_iff {output : Bytes} {sheet : Text} {counts : Counts} :
    t.deliver options output sheet counts = .error failure ↔ output ≠ Path.dash ∧
      ∃ e, t.write output (Utf8.encode sheet) = .error e ∧ .writing output e = failure := by
  rw [deliver]
  split
  · rename_i houtput
    simp only [houtput, reduceCtorEq, ne_eq, not_true_eq_false, false_and]
  · rename_i houtput
    simp only [bind_eq_error_iff, mapError_eq_error_iff, reduceCtorEq, and_false, exists_false,
      or_false, ne_eq, houtput, not_false_eq_true, true_and]

theorem perform_eq_bind : t.perform options directoryName stdin =
    (t.settings options.config directoryName >>= Plan.resolve options) >>= fun plan =>
      t.records stdin plan.input >>= fun records =>
        t.deliver options plan.output (convert records).1 (convert records).2 :=
  (bind_assoc _ _ _).symm

/-- A run fails at the first stage that finds a fault. -/
theorem firstFault_iff : t.FirstFault options directoryName stdin failure ↔
    t.perform options directoryName stdin = .error failure := by
  rw [perform_eq_bind, bind_eq_error_iff]
  simp only [resolve_settings_eq_ok_iff, bind_eq_error_iff (e := failure), records_eq_ok_iff,
    settings_eq_ok_iff, settings_eq_error_iff, settingsAt_eq_error_iff, resolve_eq_error_iff,
    records_eq_error_iff, deliver_eq_error_iff]
  constructor
  · intro h
    cases h with
    | settingsUnread hfile htext => exact .inl (.inl ⟨_, hfile, .inl ⟨_, htext, rfl⟩⟩)
    | settingsInvalid hfile htext hs =>
      exact .inl (.inl ⟨_, hfile, .inr ⟨_, readText_eq_ok_iff.2 htext, _, hs, rfl⟩⟩)
    | outputEmpty hs houtput => exact .inl (.inr ⟨_, hs, houtput, rfl⟩)
    | documentUnread hplan hinput htext =>
      exact .inr ⟨_, hplan, .inl (.inl ⟨_, _, hinput, htext, rfl⟩)⟩
    | documentInvalid hplan hdocument => exact .inr ⟨_, hplan, .inl (.inr ⟨_, hdocument, rfl⟩)⟩
    | outputUnwritable hplan hdocument houtput hwrite =>
      exact .inr ⟨_, hplan, .inr ⟨_, hdocument, houtput, _, hwrite, rfl⟩⟩
  · rintro ((⟨path, hfile, h⟩ | ⟨s, hs, houtput, rfl⟩) | ⟨plan, hplan, h⟩)
    · rcases h with ⟨e, htext, rfl⟩ | ⟨text, htext, fault, hs, rfl⟩
      · exact .settingsUnread hfile htext
      · exact .settingsInvalid hfile (readText_eq_ok_iff.1 htext) hs
    · exact .outputEmpty hs houtput
    · rcases h with (⟨path, e, hinput, htext, rfl⟩ | ⟨e, hdocument, rfl⟩) |
        ⟨records, hdocument, houtput, e, hwrite, rfl⟩
      · exact .documentUnread hplan hinput htext
      · exact .documentInvalid hplan hdocument
      · exact .outputUnwritable hplan hdocument houtput hwrite

end Tree

theorem Status.code_inj {a b : Status} : a.code = b.code ↔ a = b := by
  cases a <;> cases b <;> decide

theorem Failure.status_ne_aborted (failure : Failure) : failure.status ≠ .aborted := by
  cases failure with
  | _ => exact nofun

section

variable (invocation : Invocation) (clock : Clock) (stdin : Bytes) (t : Tree) {options : Options}
  {failure : Failure}
  (hoptions : invocation.options = .ok options)
include hoptions

theorem runIn_of_fault (h : t.FirstFault options invocation.directoryName stdin failure) :
    ∃ log, runIn invocation clock stdin t =
      (⟨failure.status, [], log ++ failure.report options.format⟩, t) := by
  obtain ⟨told, hrun⟩ := runIn_of_options invocation clock stdin t hoptions
  rw [Tree.firstFault_iff.1 h] at hrun
  exact ⟨_, hrun⟩

theorem status_runIn_eq_iff (status : Status) (hstatus : status ≠ .success) :
    (runIn invocation clock stdin t).1.status = status ↔ ∃ failure,
      t.FirstFault options invocation.directoryName stdin failure ∧ failure.status = status := by
  obtain ⟨told, hrun⟩ := runIn_of_options invocation clock stdin t hoptions
  simp only [hrun, Tree.firstFault_iff]
  cases t.perform options invocation.directoryName stdin with
  | ok p => exact ⟨fun h => absurd h.symm hstatus, nofun⟩
  | error failure => simp only [Except.error.injEq, ↓existsAndEq, true_and]

theorem status_runIn_ne_aborted : (runIn invocation clock stdin t).1.status ≠ .aborted := by
  rw [ne_eq, status_runIn_eq_iff invocation clock stdin t hoptions .aborted (by decide)]
  rintro ⟨failure, -, hfailure⟩
  exact failure.status_ne_aborted hfailure

end

theorem Command.Ending.status_outcome_eq_aborted_iff {ending : Ending} {invocation : Invocation} :
    (ending.outcome invocation).status = .aborted ↔ ∃ argument, ending = .aborted argument := by
  cases ending with
  | aborted argument => exact ⟨fun _ => ⟨argument, rfl⟩, fun _ => rfl⟩
  | stopped inJson stop =>
    refine iff_of_false (fun h => ?_) nofun
    cases stop with
    | _ => cases h

theorem exists_aborted_iff {invocation : Invocation} :
    (∃ argument, invocation.options = .error (.aborted argument)) ↔ Aborts invocation.arguments := by
  simp only [Invocation.options, readOptions_eq_aborted_iff, Aborts]

theorem status_runIn_eq_aborted_iff (invocation : Invocation) (clock : Clock) (stdin : Bytes)
    (t : Tree) :
    (runIn invocation clock stdin t).1.status = .aborted ↔ Aborts invocation.arguments := by
  rw [← exists_aborted_iff]
  cases hoptions : invocation.options with
  | error ending =>
    rw [runIn_of_ending _ _ _ _ hoptions, Ending.status_outcome_eq_aborted_iff]
    simp only [Except.error.injEq]
  | ok options =>
    exact iff_of_false (status_runIn_ne_aborted invocation clock stdin t hoptions) nofun

theorem runIn_of_aborts (invocation : Invocation) (clock : Clock) (stdin : Bytes) (t : Tree)
    (h : Aborts invocation.arguments) :
    ∃ message, runIn invocation clock stdin t = (⟨.aborted, [], message⟩, t) := by
  obtain ⟨argument, hoptions⟩ := exists_aborted_iff.2 h
  exact ⟨_, runIn_of_ending invocation clock stdin t hoptions⟩

theorem runIn_aborted (invocation : Invocation) (clock : Clock) (stdin : Bytes) (t : Tree)
    (h : Aborts invocation.arguments) :
    let (outcome, after) := runIn invocation clock stdin t
    outcome.status.code = 101 ∧ outcome.stdout = [] ∧ after = t := by
  obtain ⟨message, hrun⟩ := runIn_of_aborts invocation clock stdin t h
  rw [hrun]
  exact ⟨rfl, rfl, rfl⟩

theorem options_of_not_aborts (invocation : Invocation) (h : ¬Aborts invocation.arguments) :
    ∃ inJson, invocation.options =
      (parse invocation.arguments invocation.environment.config).mapError
        (Ending.stopped inJson) := by
  obtain ⟨inJson, hrequest⟩ := not_aborts_iff.1 h
  refine ⟨inJson, ?_⟩
  rw [Invocation.options, readOptions, hrequest]
  rfl

end RecordSheet
