import RecordSheet.Proofs.Run.Faults

namespace RecordSheet

open Log

namespace Command

/-- JSON is asked for by an option, in one argument or in two, in front of the end of the options. -/
def AsksForJson (arguments : List Bytes) : Prop :=
  let options := arguments.takeWhile (· ≠ endOfOptions)
  jsonFlag ∈ options ∨ [formatFlag, jsonName] <:+: options

instance (arguments : List Bytes) : Decidable (AsksForJson arguments) :=
  inferInstanceAs (Decidable (_ ∨ _))

theorem takeWhile_append_endOfOptions {arguments : List Bytes} (h : endOfOptions ∉ arguments)
    (rest : List Bytes) :
    (arguments ++ endOfOptions :: rest).takeWhile (· ≠ endOfOptions) = arguments := by
  rw [List.takeWhile_append_of_pos, List.takeWhile_cons_of_neg, List.append_nil]
  · simp
  · intro argument hargument
    rw [decide_eq_true_iff]
    rintro rfl
    exact h hargument

def Misuse.printed (wrong : Misuse) : Format → Text
  | .json => (Failure.usage wrong.message).report .json
  | .human => wrong.message

theorem Misuse.head_printed (wrong : Misuse) (format : Format) :
    (wrong.printed format).head? = some (if format = .json then '\x7b' else 'e') := by
  cases format with
  | json => rfl
  | human => rfl

theorem Misuse.format_eq_of_printed_eq {wrong wrong' : Misuse} {format format' : Format}
    (h : wrong.printed format = wrong'.printed format') : format = format' := by
  have hhead := congrArg List.head? h
  rw [wrong.head_printed, wrong'.head_printed, Option.some.injEq] at hhead
  cases format with
  | json =>
    cases format' with
    | json => rfl
    | human => exact absurd hhead (by decide)
  | human =>
    cases format' with
    | json => exact absurd hhead (by decide)
    | human => rfl

def formatOf (inJson : Bool) : Format :=
  if inJson then .json else .human

theorem formatOf_inj {inJson inJson' : Bool} : formatOf inJson = formatOf inJson' ↔
    inJson = inJson' := by
  cases inJson <;> cases inJson' <;> decide

theorem exists_format_iff {first second : Except Bytes Bool} :
    (∃ format, (∃ asked, first = .ok asked ∧ formatOf asked = format) ∧
      ∃ asked, second = .ok asked ∧ formatOf asked = format) ↔
    ∃ asked, first = .ok asked ∧ second = .ok asked := by
  constructor
  · rintro ⟨_, ⟨asked, hfirst, rfl⟩, asked', hsecond, hformat⟩
    rw [formatOf_inj.1 hformat] at hsecond
    exact ⟨asked, hfirst, hsecond⟩
  · rintro ⟨asked, hfirst, hsecond⟩
    exact ⟨_, ⟨asked, hfirst, rfl⟩, asked, hsecond, rfl⟩

theorem Ending.outcome_misuse (inJson : Bool) (wrong : Misuse) (invocation : Invocation) :
    (Ending.stopped inJson (.misuse wrong)).outcome invocation =
      ⟨.usage, [], wrong.printed (formatOf inJson)⟩ := by
  cases inJson with
  | true => rfl
  | false => rfl

end Command

open Command

/-- A misuse is told in the form that the arguments ask for, if they can be looked through. -/
theorem runIn_misuse_eq_iff {invocation : Invocation} {arguments : List Bytes} {wrong : Misuse}
    {format : Format} (clock : Clock) (stdin : Bytes) (t : Tree)
    (hwrong : parse arguments invocation.environment.config = .error (.misuse wrong)) :
    (runIn { invocation with arguments } clock stdin t).1 = ⟨.usage, [], wrong.printed format⟩ ↔
      ∃ inJson, requestsJson arguments = .ok inJson ∧ formatOf inJson = format := by
  by_cases h : Aborts arguments
  · obtain ⟨message, hrun⟩ := runIn_of_aborts { invocation with arguments } clock stdin t h
    rw [hrun]
    obtain ⟨argument, hargument⟩ := h
    rw [hargument]
    exact iff_of_false nofun nofun
  · obtain ⟨inJson, hrequest⟩ := not_aborts_iff.1 h
    have hending : ({ invocation with arguments } : Invocation).options =
        .error (.stopped inJson (.misuse wrong)) := readOptions_eq_stopped_iff.2 ⟨hrequest, hwrong⟩
    rw [runIn_of_ending _ clock stdin t hending, Ending.outcome_misuse, hrequest]
    simp only [Except.ok.injEq, ↓existsAndEq, true_and, Outcome.mk.injEq]
    exact ⟨Misuse.format_eq_of_printed_eq, fun h => by rw [h]⟩

theorem code_runIn_misuse {invocation : Invocation} {arguments : List Bytes} {wrong : Misuse}
    (clock : Clock) (stdin : Bytes) (t : Tree)
    (hwrong : parse arguments invocation.environment.config = .error (.misuse wrong)) :
    let outcome := (runIn { invocation with arguments } clock stdin t).1
    (Aborts arguments → outcome.status.code = 101) ∧
      (¬Aborts arguments → outcome.status.code = 2) := by
  refine ⟨fun h => ?_, fun h => ?_⟩
  · exact (runIn_aborted { invocation with arguments } clock stdin t h).1
  · obtain ⟨inJson, hrequest⟩ := not_aborts_iff.1 h
    rw [(runIn_misuse_eq_iff clock stdin t hwrong).2 ⟨inJson, hrequest, rfl⟩]
    rfl

/--
Two misused command lines that are the same up to `--`. What is wrong with them is told in the same
form exactly if JSON is asked for in front of `--`, or behind it in both or in none of them; a command
line that comes to an argument that is no text in the search for this is aborted, and nothing is told
of the misuse. It is told in JSON only if an option asks for it, or if the values behind `--` look as
if they did.
-/
theorem runIn_misuse_form {invocation : Invocation} {arguments rest rest' : List Bytes}
    {wrong wrong' : Misuse} (clock : Clock) (stdin : Bytes) (t : Tree)
    (hoptions : endOfOptions ∉ arguments)
    (hwrong : Command.parse (arguments ++ endOfOptions :: rest) invocation.environment.config =
      .error (.misuse wrong))
    (hwrong' : Command.parse (arguments ++ endOfOptions :: rest') invocation.environment.config =
      .error (.misuse wrong')) :
    let first :=
      (runIn { invocation with arguments := arguments ++ endOfOptions :: rest } clock stdin t).1
    let second :=
      (runIn { invocation with arguments := arguments ++ endOfOptions :: rest' } clock stdin t).1
    ((∃ format, first = ⟨.usage, [], wrong.printed format⟩ ∧
        second = ⟨.usage, [], wrong'.printed format⟩) ↔
      requestsJson arguments = .ok true ∨ requestsJson arguments = .ok false ∧
        ∃ asked, requestsJson rest = .ok asked ∧ requestsJson rest' = .ok asked) ∧
    (first = ⟨.usage, [], wrong.printed .json⟩ →
      AsksForJson (arguments ++ endOfOptions :: rest) ∨ requestsJson rest = .ok true) ∧
    (Aborts (arguments ++ endOfOptions :: rest) → first.status.code = 101) ∧
    (¬Aborts (arguments ++ endOfOptions :: rest) → first.status.code = 2) ∧
    (Aborts (arguments ++ endOfOptions :: rest') → second.status.code = 101) ∧
    (¬Aborts (arguments ++ endOfOptions :: rest') → second.status.code = 2) := by
  obtain ⟨haborted, hcode⟩ := code_runIn_misuse clock stdin t hwrong
  obtain ⟨haborted', hcode'⟩ := code_runIn_misuse clock stdin t hwrong'
  refine ⟨?_, fun h => ?_, haborted, hcode, haborted', hcode'⟩
  · simp only [runIn_misuse_eq_iff clock stdin t hwrong, runIn_misuse_eq_iff clock stdin t hwrong',
      exists_format_iff, requestsJson_append_endOfOptions]
    cases requestsJson arguments with
    | error argument => exact iff_of_false nofun nofun
    | ok asked =>
      cases asked with
      | true => exact iff_of_true ⟨true, rfl, rfl⟩ (.inl rfl)
      | false => exact ⟨fun h => .inr ⟨rfl, h⟩, fun h => (h.resolve_left nofun).2⟩
  · obtain ⟨inJson, hrequest, hformat⟩ := (runIn_misuse_eq_iff clock stdin t hwrong).1 h
    obtain rfl : inJson = true := formatOf_inj.1 hformat
    rw [requestsJson_append_endOfOptions] at hrequest
    obtain ⟨asked, harguments, hrest⟩ := exists_of_bind_eq_ok hrequest
    cases asked with
    | true =>
      rw [AsksForJson, takeWhile_append_endOfOptions hoptions]
      exact .inl (mem_or_isInfix_of_requestsJson harguments)
    | false => exact .inr hrest

theorem runIn_misuse_form_repeated_format :
    let arguments := ["--format=json".toList, "f".toList].map Utf8.encode
    let rest := ["x".toList].map Utf8.encode
    let rest' := ["--format".toList, "human".toList].map Utf8.encode
    let wrong := Misuse.unexpectedArgument "x".toList .none []
    let wrong' := Misuse.unexpectedArgument "--format".toList .none []
    let clock : Clock := ⟨fun _ => [], []⟩
    let first := (runIn { plainInvocation [] with
      arguments := arguments ++ endOfOptions :: rest } clock [] (homeTree [])).1
    let second := (runIn { plainInvocation [] with
      arguments := arguments ++ endOfOptions :: rest' } clock [] (homeTree [])).1
    endOfOptions ∉ arguments ∧
    Command.parse (arguments ++ endOfOptions :: rest) none = .error (.misuse wrong) ∧
    Command.parse (arguments ++ endOfOptions :: rest') none = .error (.misuse wrong') ∧
    ((∃ format, first = ⟨.usage, [], wrong.printed format⟩ ∧
        second = ⟨.usage, [], wrong'.printed format⟩) ↔
      requestsJson arguments = .ok true ∨ requestsJson arguments = .ok false ∧
        ∃ asked, requestsJson rest = .ok asked ∧ requestsJson rest' = .ok asked) ∧
    (first = ⟨.usage, [], wrong.printed .json⟩ →
      AsksForJson (arguments ++ endOfOptions :: rest) ∨ requestsJson rest = .ok true) ∧
    (Aborts (arguments ++ endOfOptions :: rest) → first.status.code = 101) ∧
    (¬Aborts (arguments ++ endOfOptions :: rest) → first.status.code = 2) ∧
    (Aborts (arguments ++ endOfOptions :: rest') → second.status.code = 101) ∧
    (¬Aborts (arguments ++ endOfOptions :: rest') → second.status.code = 2) := by
  have hoptions : endOfOptions ∉ ["--format=json".toList, "f".toList].map Utf8.encode := by decide
  have hwrong : Command.parse (["--format=json".toList, "f".toList].map Utf8.encode ++
      endOfOptions :: ["x".toList].map Utf8.encode) none =
        .error (.misuse (.unexpectedArgument "x".toList .none [])) := by
    decide +kernel
  have hwrong' : Command.parse (["--format=json".toList, "f".toList].map Utf8.encode ++
      endOfOptions :: ["--format".toList, "human".toList].map Utf8.encode) none =
        .error (.misuse (.unexpectedArgument "--format".toList .none [])) := by
    decide +kernel
  exact ⟨hoptions, hwrong, hwrong', @runIn_misuse_form (plainInvocation []) _ _ _ _ _
    ⟨fun _ => [], []⟩ [] (homeTree []) hoptions hwrong hwrong'⟩

/-- Values behind `--` that look like the option for JSON decide in which form the same misuse is told. -/
theorem misuse_form_by_value :
    let arguments := ["a".toList, "b".toList].map Utf8.encode
    let rest := ["c".toList].map Utf8.encode
    let rest' := ["--format".toList, "json".toList].map Utf8.encode
    let wrong := Misuse.unexpectedArgument "b".toList .none []
    let clock : Clock := ⟨fun _ => [], []⟩
    let first := (runIn { plainInvocation [] with
      arguments := arguments ++ endOfOptions :: rest } clock [] (homeTree [])).1
    let second := (runIn { plainInvocation [] with
      arguments := arguments ++ endOfOptions :: rest' } clock [] (homeTree [])).1
    endOfOptions ∉ arguments ∧
    Command.parse (arguments ++ endOfOptions :: rest) none = .error (.misuse wrong) ∧
    Command.parse (arguments ++ endOfOptions :: rest') none = .error (.misuse wrong) ∧
    first.stderr = wrong.printed .human ∧ second.stderr = wrong.printed .json ∧
    (¬∃ format, first.stderr = wrong.printed format ∧ second.stderr = wrong.printed format) ∧
    ¬AsksForJson (arguments ++ endOfOptions :: rest') := by
  have hfirst : (runIn (plainInvocation ["a".toList, "b".toList, "--".toList, "c".toList])
      ⟨fun _ => [], []⟩ [] (homeTree [])).1.stderr =
        (Misuse.unexpectedArgument "b".toList .none []).printed .human := by
    decide +kernel
  have hsecond : (runIn (plainInvocation
      ["a".toList, "b".toList, "--".toList, "--format".toList, "json".toList])
      ⟨fun _ => [], []⟩ [] (homeTree [])).1.stderr =
        (Misuse.unexpectedArgument "b".toList .none []).printed .json := by
    decide +kernel
  refine ⟨by decide, by decide +kernel, by decide +kernel, hfirst, hsecond, ?_, by decide⟩
  rintro ⟨format, h, h'⟩
  have hhuman := Misuse.format_eq_of_printed_eq (hfirst.symm.trans h)
  have hjson := Misuse.format_eq_of_printed_eq (hsecond.symm.trans h')
  rw [← hhuman] at hjson
  cases hjson

end RecordSheet
