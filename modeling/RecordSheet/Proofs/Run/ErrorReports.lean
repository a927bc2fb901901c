import RecordSheet.Proofs.Json.Printable
import RecordSheet.Proofs.Json.RoundTrip
import RecordSheet.Proofs.Run.Faults

namespace RecordSheet

open Command Log

namespace Failure

theorem reread_envelope (f : Failure) (room : Nat) :
    Json.reread (room + 2) f.envelope = some f.envelope := by
  have hkeys : ["code".toList, "type".toList, "message".toList].Nodup := by decide
  rw [envelope, Json.reread_object, Json.rereadMembers, Json.reread_object]
  · simp only [Json.rereadMembers, Json.reread, Json.ofCount, Number.number?_integer,
      Option.bind_some, Option.map_some]
  · exact hkeys
  · exact List.nodup_singleton _

theorem parse_render_envelope (f : Failure) : Json.parse f.envelope.render = .ok f.envelope :=
  toOption_eq_some_iff.1 ((Json.toOption_parse_render _).trans (f.reread_envelope _))

end Failure

namespace Log

theorem Event.rank_warn_lt (e : Event) : Level.warn.rank < e.level.rank := by
  cases e <;> exact Nat.lt_of_sub_ne_zero nofun

/-- No event is as bad as a warning, so a filter for warnings lets none through. -/
theorem Filter.enables_eq_false {f : Filter} (h : ∀ d ∈ f.directives, d.verbosity = some .warn)
    (e : Event) : f.enables e = false := by
  rw [enables]
  split
  · rename_i d hd
    rw [h d (List.mem_of_find?_eq_some hd)]
    exact decide_eq_false (Nat.not_le.2 e.rank_warn_lt)
  · rfl

theorem Filter.choose_default : Filter.choose [none, none] false none =
    (⟨[⟨some .warn, some "jsontocsv_core".toList, [], false⟩,
      ⟨some .warn, some "jsontocsv".toList, [], false⟩]⟩, []) := by
  decide

end Log

theorem logText_eq_nil {options : Options} {environment : Environment} (clock : Clock)
    (events : List Event) (hlog : environment.log = none) (hgeneral : environment.generalLog = none)
    (hverbose : options.verbose = false) (hlevel : options.logLevel = none) :
    logText options environment clock events = [] := by
  rw [logText, hlog, hgeneral, hverbose, hlevel, Filter.choose_default]
  dsimp only
  rw [List.filter_eq_nil_iff.2, List.flatMap_nil, List.flatMap_nil, List.append_nil]
  intro e he
  rw [Filter.enables_eq_false (by decide)]
  exact Bool.false_ne_true

/--
A run whose failure is to be told in JSON, and which is not asked to tell anything else. An aborted run
is none of these: its command line has neither been read nor been found to be misused.
-/
inductive ReportsJson (invocation : Invocation) : Prop
  | parsed {options : Options} (hoptions : invocation.options = .ok options)
    (hformat : options.format = .json) (hverbose : options.verbose = false)
    (hlevel : options.logLevel = none)
  | misused {wrong : Misuse} (hparse :
      Command.parse invocation.arguments invocation.environment.config = .error (.misuse wrong))
    (hrequest : requestsJson invocation.arguments = .ok true)

/-- The failure of a run: its command line is misused, or one of its stages finds a fault. -/
inductive Fails (invocation : Invocation) (stdin : Bytes) (t : Tree) : Failure → Prop
  | misused {wrong : Misuse} (hparse :
      Command.parse invocation.arguments invocation.environment.config = .error (.misuse wrong)) :
    Fails invocation stdin t (.usage wrong.message)
  | fault {options : Options} {failure : Failure} (hoptions : invocation.options = .ok options)
    (hfault : t.FirstFault options invocation.directoryName stdin failure) :
    Fails invocation stdin t failure

section

variable (invocation : Invocation) (clock : Clock) (stdin : Bytes) (t : Tree)
  (hlog : invocation.environment.log = none)
  (hgeneral : invocation.environment.generalLog = none) (hjson : ReportsJson invocation)
  (hcode : (runIn invocation clock stdin t).1.status.code ≠ 0)
include hlog hgeneral hjson hcode

theorem exists_fails :
    ∃ failure, Fails invocation stdin t failure ∧
      runIn invocation clock stdin t = (⟨failure.status, [], failure.report .json⟩, t) := by
  cases hjson with
  | @parsed options hoptions hformat hverbose hlevel =>
    obtain ⟨told, hrun⟩ := runIn_of_options invocation clock stdin t hoptions
    rw [logText_eq_nil clock told hlog hgeneral hverbose hlevel] at hrun
    cases hperform : t.perform options invocation.directoryName stdin with
    | ok p =>
      rw [hrun, hperform] at hcode
      exact absurd rfl hcode
    | error failure =>
      refine ⟨failure, .fault hoptions (Tree.firstFault_iff.2 hperform), ?_⟩
      rw [hrun, hperform, hformat]
      rfl
  | misused hparse hrequest =>
    refine ⟨_, .misused hparse, ?_⟩
    rw [runIn_of_ending _ _ _ _ (readOptions_eq_stopped_iff.2 ⟨hrequest, hparse⟩)]
    rfl

/--
A run that fails and is to tell so in JSON writes one line of JSON, with the exit code, a type that
goes with this code, and the whole message, whatever characters there are in it.
-/
theorem runIn_error_line :
    ∃ failure line, Fails invocation stdin t failure ∧
      failure.status.code = (runIn invocation clock stdin t).1.status.code ∧
      (runIn invocation clock stdin t).1.stderr = line ++ ['\n'] ∧ '\n' ∉ line ∧
      Json.parse line = .ok (.object [("error".toList, .object [
        ("code".toList, .ofCount (runIn invocation clock stdin t).1.status.code),
        ("type".toList, .string failure.kind), ("message".toList, .string failure.message)])]) := by
  obtain ⟨failure, hfails, hrun⟩ := exists_fails invocation clock stdin t hlog hgeneral hjson hcode
  rw [hrun]
  exact ⟨failure, failure.envelope.render, hfails, rfl, rfl,
    Json.newline_notMem_render _, failure.parse_render_envelope⟩

end

def missingSettingsRun : Invocation :=
  plainInvocation ["--format=json".toList, "--config".toList, "\"\n".toList]

def missingSettingsOptions : Options :=
  { Options.none with config := some (Utf8.encode "\"\n".toList), format := .json }

theorem runIn_error_line_missing_settings :
    let clock : Clock := ⟨fun _ => [], []⟩
    let (outcome, _) := runIn missingSettingsRun clock [] (Tree.empty home)
    missingSettingsRun.environment.log = none ∧
      missingSettingsRun.environment.generalLog = none ∧
      ReportsJson missingSettingsRun ∧ outcome.status.code ≠ 0 ∧
      ∃ failure line, Fails missingSettingsRun [] (Tree.empty home) failure ∧
        failure.status.code = outcome.status.code ∧ outcome.stderr = line ++ ['\n'] ∧
        '\n' ∉ line ∧ Json.parse line = .ok (.object [("error".toList, .object [
          ("code".toList, .ofCount outcome.status.code), ("type".toList, .string failure.kind),
          ("message".toList, .string failure.message)])]) := by
  have hoptions : missingSettingsRun.options = .ok missingSettingsOptions := by
    decide +kernel
  have hjson : ReportsJson missingSettingsRun := .parsed hoptions rfl rfl rfl
  have hcode :
      (runIn missingSettingsRun ⟨fun _ => [], []⟩ [] (Tree.empty home)).1.status.code ≠ 0 := by
    decide +kernel
  exact ⟨rfl, rfl, hjson, hcode, runIn_error_line _ _ _ _ rfl rfl hjson hcode⟩

end RecordSheet
