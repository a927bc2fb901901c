import RecordSheet.Proofs.Records.Bytes
import RecordSheet.Proofs.Run.Faults

namespace RecordSheet

open Command Log

def Command.Options.withInput (options : Options) (path : Bytes) : Options :=
  { options with input := some path }

theorem Plan.resolve_withInput (options : Options) (path : Bytes) (s : Settings) :
    Plan.resolve (options.withInput path) s = (Plan.resolve options s).map fun plan =>
      { plan with input := if path = Path.dash then none else some path } := by
  unfold Plan.resolve Options.withInput
  dsimp only
  split
  · rfl
  · by_cases hpath : path = Path.dash
    · simp [Except.map, hpath]
    · simp [Except.map, hpath]

namespace Tree

variable {t : Tree} {options : Options} {directoryName stdin path bytes : Bytes}

/-- What there is of a run besides its messages: its status, its output and the tree it leaves. -/
def result (t : Tree) : Except Failure (Text × Tree) → Status × Text × Tree
  | .ok (text, after) => (.success, text, after)
  | .error failure => (failure.status, [], t)

theorem perform_withInput (input : Bytes) :
    t.perform (options.withInput input) directoryName stdin =
      (t.settings options.config directoryName >>= Plan.resolve options) >>= fun plan =>
        t.records stdin (if input = Path.dash then none else some input) >>= fun records =>
          t.deliver options plan.output (convert records).1 (convert records).2 := by
  rw [perform_eq_bind, bind_assoc, bind_assoc]
  apply bind_congr
  intro s
  rw [Plan.resolve_withInput]
  cases Plan.resolve options s with
  | error failure => rfl
  | ok plan => rfl

theorem readText_of_read (hread : t.read path = .ok bytes) :
    t.readText path = match Utf8.decode? bytes with
      | some text => .ok text
      | none => .error .notUtf8 := by
  rw [readText, hread]
  rfl

/-- It makes no difference to what follows whether a document is taken as text or as bytes. -/
theorem result_bind_ofText (text : Text) (next : List Record → Except Failure (Text × Tree)) :
    t.result ((Record.ofText text).mapError Failure.ofDocument >>= next) =
      t.result ((Record.ofBytes (Utf8.encode text)).mapError Failure.ofDocument >>= next) := by
  rcases Record.ofBytes_encode text with h | ⟨reason, reason', htext, hbytes, -⟩
  · rw [h]
  · rw [htext, hbytes]
    rfl

theorem result_perform_text {text : Text} (hpath : path ≠ Path.dash)
    (hread : t.read path = .ok (Utf8.encode text)) :
    t.result (t.perform (options.withInput path) directoryName stdin) =
      t.result (t.perform (options.withInput Path.dash) directoryName (Utf8.encode text)) := by
  rw [perform_withInput, perform_withInput, if_neg hpath, if_pos rfl]
  cases t.settings options.config directoryName >>= Plan.resolve options with
  | error failure => rfl
  | ok plan =>
    have hrecords : t.records stdin (some path) =
        (Record.ofText text).mapError Failure.ofDocument := by
      rw [Tree.records, readText_eq_ok_iff.2 hread]
      rfl
    change t.result (t.records stdin (some path) >>= _) = _
    rw [hrecords]
    exact result_bind_ofText text _

theorem exists_perform_eq_error (h : ∀ plan, ¬t.HasPlan options directoryName plan) :
    ∃ failure, ∀ input stdin,
      t.perform (options.withInput input) directoryName stdin = .error failure := by
  simp only [perform_withInput, ← resolve_settings_eq_ok_iff] at h ⊢
  cases hplan : t.settings options.config directoryName >>= Plan.resolve options with
  | error failure => exact ⟨failure, fun _ _ => rfl⟩
  | ok plan => exact absurd hplan (h plan)

theorem result_perform_not_text {plan : Plan} (hplan : t.HasPlan options directoryName plan)
    (hpath : path ≠ Path.dash) (hread : t.read path = .ok bytes)
    (hdecode : Utf8.decode? bytes = none) :
    t.result (t.perform (options.withInput path) directoryName stdin) = (.failure, [], t) := by
  have hrecords : t.records stdin (some path) = .error (.reading path .notUtf8) := by
    rw [Tree.records, readText_of_read hread, hdecode]
    rfl
  rw [perform_withInput, if_neg hpath, resolve_settings_eq_ok_iff.2 hplan]
  change t.result (t.records stdin (some path) >>= _) = _
  rw [hrecords]
  rfl

theorem result_perform_invalid {plan : Plan} (hplan : t.HasPlan options directoryName plan)
    (hbytes : ∀ records, Record.ofBytes bytes ≠ .ok records) :
    t.result (t.perform (options.withInput Path.dash) directoryName bytes) = (.data, [], t) := by
  rw [perform_withInput, if_pos rfl, resolve_settings_eq_ok_iff.2 hplan]
  cases hrecords : Record.ofBytes bytes with
  | ok records => exact absurd hrecords (hbytes records)
  | error e =>
    change t.result ((Record.ofBytes bytes).mapError Failure.ofDocument >>= _) = _
    rw [hrecords]
    rfl

/-- The same bytes in a file and on standard input differ in the status of the run at most. -/
theorem result_perform_input (options : Options) (directoryName stdin : Bytes)
    (hpath : path ≠ Path.dash) (hread : t.read path = .ok bytes) :
    let ofFile := t.result (t.perform (options.withInput path) directoryName stdin)
    let ofStdin := t.result (t.perform (options.withInput Path.dash) directoryName bytes)
    ofFile.2 = ofStdin.2 ∧
      (ofFile.1 = ofStdin.1 ↔ bytes.toByteArray.IsValidUTF8 ∨
        ¬∃ plan, t.HasPlan options directoryName plan) ∧
      ((∃ plan, t.HasPlan options directoryName plan) →
        (∀ records, Record.ofBytes bytes ≠ .ok records) → ofStdin.1 = .data ∧
          (¬bytes.toByteArray.IsValidUTF8 → ofFile.1 = .failure)) := by
  dsimp only
  rw [Utf8.isValidUTF8_iff]
  by_cases hplanned : ∃ plan, t.HasPlan options directoryName plan
  · obtain ⟨plan, hplan⟩ := hplanned
    have hstdin := @result_perform_invalid _ _ _ bytes _ hplan
    cases hdecode : Utf8.decode? bytes with
    | some text =>
      obtain rfl := Utf8.decode?_eq_some_iff.1 hdecode
      have htext : ∃ u, Utf8.encode u = Utf8.encode text := ⟨text, rfl⟩
      rw [result_perform_text hpath hread]
      refine ⟨rfl, iff_of_true rfl (.inl htext), fun _ hbytes => ⟨?_, fun h => absurd htext h⟩⟩
      rw [hstdin hbytes]
    | none =>
      have hnone : ¬∃ text, Utf8.encode text = bytes := by
        rintro ⟨text, htext⟩
        rw [Utf8.decode?_eq_some_iff.2 htext] at hdecode
        cases hdecode
      rw [result_perform_not_text hplan hpath hread hdecode,
        hstdin fun records hrecords => hnone (Record.exists_text_of_ofBytes hrecords)]
      refine ⟨rfl, iff_of_false nofun ?_, fun _ _ => ⟨rfl, fun _ => rfl⟩⟩
      rintro (h | h)
      · exact hnone h
      · exact h ⟨plan, hplan⟩
  · obtain ⟨failure, hperform⟩ := exists_perform_eq_error (not_exists.1 hplanned)
    rw [hperform, hperform]
    exact ⟨rfl, iff_of_true rfl (.inr hplanned), fun h => absurd h hplanned⟩

end Tree

theorem result_runIn {options : Options} (invocation : Invocation) (clock : Clock)
    (stdin : Bytes) (t : Tree) (hoptions : invocation.options = .ok options) :
    ((runIn invocation clock stdin t).1.status, (runIn invocation clock stdin t).1.stdout,
      (runIn invocation clock stdin t).2) =
        t.result (t.perform options invocation.directoryName stdin) := by
  obtain ⟨told, hrun⟩ := runIn_of_options invocation clock stdin t hoptions
  rw [hrun]
  cases t.perform options invocation.directoryName stdin with
  | error failure => rfl
  | ok p => rfl

theorem Command.Ending.outcome_stopped (stop : Stop) (inJson inJson' : Bool)
    (invocation : Invocation) (arguments arguments' : List Bytes) :
    let first := (stopped inJson stop).outcome { invocation with arguments }
    let second := (stopped inJson' stop).outcome { invocation with arguments := arguments' }
    first.status = second.status ∧ first.stdout = second.stdout := by
  cases stop with
  | help long => exact ⟨rfl, rfl⟩
  | version => exact ⟨rfl, rfl⟩
  | misuse wrong => exact ⟨rfl, rfl⟩

section

variable {invocation : Invocation} {arguments arguments' : List Bytes} {path bytes : Bytes}
  {t : Tree} (clock : Clock) (stdin : Bytes)

theorem result_runIn_of_parse {options : Options}
    (hparse : parse arguments invocation.environment.config = .ok options)
    (harguments : ¬Aborts arguments) :
    let (outcome, after) := runIn { invocation with arguments } clock stdin t
    (outcome.status, outcome.stdout, after) =
      t.result (t.perform options invocation.directoryName stdin) := by
  obtain ⟨inJson, hoptions⟩ := options_of_not_aborts { invocation with arguments } harguments
  rw [hparse] at hoptions
  exact result_runIn _ clock stdin t hoptions

theorem runIn_input_of_not_aborts {parsed : Except Stop Options}
    (hfile : parse arguments invocation.environment.config =
      parsed.map fun options => options.withInput path)
    (hstdin : parse arguments' invocation.environment.config =
      parsed.map fun options => options.withInput Path.dash)
    (hpath : path ≠ Path.dash) (hread : t.read path = .ok bytes)
    (harguments : ¬Aborts arguments) (harguments' : ¬Aborts arguments') :
    let ofFile := runIn { invocation with arguments } clock stdin t
    let ofStdin := runIn { invocation with arguments := arguments' } clock bytes t
    let planned := ∃ options, parsed = .ok options ∧
      ∃ plan, t.HasPlan options invocation.directoryName plan
    ofFile.1.stdout = ofStdin.1.stdout ∧ ofFile.2 = ofStdin.2 ∧
      (ofFile.1.status = ofStdin.1.status ↔ bytes.toByteArray.IsValidUTF8 ∨ ¬planned) := by
  dsimp only
  cases parsed with
  | error stop =>
    obtain ⟨inJson, hleft⟩ := options_of_not_aborts { invocation with arguments } harguments
    obtain ⟨inJson', hright⟩ := options_of_not_aborts { invocation with arguments := arguments' }
      harguments'
    rw [hfile] at hleft
    rw [hstdin] at hright
    obtain ⟨hstatus, hstdout⟩ :=
      Ending.outcome_stopped stop inJson inJson' invocation arguments arguments'
    rw [runIn_of_ending _ clock stdin t hleft, runIn_of_ending _ clock bytes t hright]
    refine ⟨hstdout, rfl, iff_of_true hstatus (.inr ?_)⟩
    rintro ⟨_, h, _⟩
    cases h
  | ok options =>
    obtain ⟨hsame, hstatus, -⟩ :=
      Tree.result_perform_input options invocation.directoryName stdin hpath hread
    have hofFile := result_runIn_of_parse (t := t) clock stdin hfile harguments
    have hofStdin := result_runIn_of_parse (t := t) clock bytes hstdin harguments'
    rw [← hofFile, ← hofStdin] at hsame hstatus
    obtain ⟨hstdout, hafter⟩ := Prod.mk.inj hsame
    simp only [Except.ok.injEq, ↓existsAndEq, true_and]
    exact ⟨hstdout, hafter, hstatus⟩

/-- A file that is of no use is bad data if it is UTF-8, and cannot be read if it is not. -/
theorem code_runIn_of_unusable_file {options : Options}
    (hfile : parse arguments invocation.environment.config = .ok (options.withInput path))
    (hpath : path ≠ Path.dash) (hread : t.read path = .ok bytes) (harguments : ¬Aborts arguments)
    (hplan : ∃ plan, t.HasPlan options invocation.directoryName plan)
    (hbytes : ∀ records, Record.ofBytes bytes ≠ .ok records) :
    let code := (runIn { invocation with arguments } clock stdin t).1.status.code
    (bytes.toByteArray.IsValidUTF8 → code = 3) ∧ (¬bytes.toByteArray.IsValidUTF8 → code = 1) := by
  obtain ⟨-, hsame, hinvalid⟩ :=
    Tree.result_perform_input options invocation.directoryName stdin hpath hread
  obtain ⟨hdata, hfailure⟩ := hinvalid hplan hbytes
  have hofFile := result_runIn_of_parse (t := t) clock stdin hfile harguments
  rw [← hofFile] at hsame hfailure
  exact ⟨fun h => congrArg Status.code ((hsame.2 (.inl h)).trans hdata),
    fun h => congrArg Status.code (hfailure h)⟩

theorem code_runIn_of_unusable_stdin {options : Options}
    (hstdin : parse arguments invocation.environment.config = .ok (options.withInput Path.dash))
    (harguments : ¬Aborts arguments)
    (hplan : ∃ plan, t.HasPlan options invocation.directoryName plan)
    (hbytes : ∀ records, Record.ofBytes bytes ≠ .ok records) :
    (runIn { invocation with arguments } clock bytes t).1.status.code = 3 := by
  obtain ⟨plan, hplan⟩ := hplan
  have hofStdin := result_runIn_of_parse (t := t) clock bytes hstdin harguments
  rw [Tree.result_perform_invalid hplan hbytes] at hofStdin
  exact congrArg (fun seen => Status.code seen.1) hofStdin

end

/--
Two command lines that ask for the same, but for the document: one names a file, and the other one
standard input. With the same bytes in both, the runs have the same output and leave the same tree,
if both or neither are aborted. Not aborted, they have the same exit code too, unless the document is
looked at and is not UTF-8: then a file cannot be read, which is no fault of the data. All other
documents that are of no use are bad data. A run that is aborted does nothing.
-/
theorem runIn_file_or_stdin {invocation : Invocation} {arguments arguments' : List Bytes}
    {parsed : Except Stop Options} {path bytes : Bytes} {t : Tree} (clock : Clock) (stdin : Bytes)
    (hfile : parse arguments invocation.environment.config =
      parsed.map fun options => options.withInput path)
    (hstdin : parse arguments' invocation.environment.config =
      parsed.map fun options => options.withInput Path.dash)
    (hpath : path ≠ Path.dash) (hread : t.read path = .ok bytes) :
    let ofFile := runIn { invocation with arguments } clock stdin t
    let ofStdin := runIn { invocation with arguments := arguments' } clock bytes t
    let planned := ∃ options, parsed = .ok options ∧
      ∃ plan, t.HasPlan options invocation.directoryName plan
    ((Aborts arguments ↔ Aborts arguments') →
      ofFile.1.stdout = ofStdin.1.stdout ∧ ofFile.2 = ofStdin.2) ∧
    (ofFile.1.status.code = ofStdin.1.status.code ↔ (Aborts arguments ∧ Aborts arguments') ∨
      ¬Aborts arguments ∧ ¬Aborts arguments' ∧ (bytes.toByteArray.IsValidUTF8 ∨ ¬planned)) ∧
    (planned → (∀ records, Record.ofBytes bytes ≠ .ok records) →
      (¬Aborts arguments' → ofStdin.1.status.code = 3) ∧
      (¬Aborts arguments → bytes.toByteArray.IsValidUTF8 → ofFile.1.status.code = 3) ∧
      (¬Aborts arguments → ¬bytes.toByteArray.IsValidUTF8 → ofFile.1.status.code = 1)) ∧
    (Aborts arguments → ofFile.1.status.code = 101 ∧ ofFile.1.stdout = [] ∧ ofFile.2 = t) ∧
    (Aborts arguments' → ofStdin.1.status.code = 101 ∧ ofStdin.1.stdout = [] ∧ ofStdin.2 = t) := by
  have haborted := runIn_aborted { invocation with arguments } clock stdin t
  have haborted' := runIn_aborted { invocation with arguments := arguments' } clock bytes t
  have hstatus := status_runIn_eq_aborted_iff { invocation with arguments } clock stdin t
  have hstatus' := status_runIn_eq_aborted_iff { invocation with arguments := arguments' } clock
    bytes t
  have hneither := runIn_input_of_not_aborts (t := t) clock stdin hfile hstdin hpath hread
  dsimp only at haborted haborted' hstatus hstatus' hneither ⊢
  refine ⟨fun hiff => ?_, ?_, ?_, haborted, haborted'⟩
  · by_cases h : Aborts arguments
    · obtain ⟨-, hstdout, hafter⟩ := haborted h
      obtain ⟨-, hstdout', hafter'⟩ := haborted' (hiff.1 h)
      exact ⟨hstdout.trans hstdout'.symm, hafter.trans hafter'.symm⟩
    · obtain ⟨hstdout, hafter, -⟩ := hneither h (h ∘ hiff.2)
      exact ⟨hstdout, hafter⟩
  · rw [Status.code_inj]
    by_cases h : Aborts arguments
    · simp only [hstatus.2 h, h, not_true, true_and, false_and, or_false]
      rw [eq_comm, hstatus']
    · by_cases h' : Aborts arguments'
      · simp only [hstatus'.2 h', h, h', not_true, false_and, and_false, or_false, hstatus]
      · simp only [(hneither h h').2.2, h, h', not_false_eq_true, true_and, false_and, false_or]
  · rintro ⟨options, rfl, hplan⟩ hbytes
    have hcodes := fun h =>
      code_runIn_of_unusable_file clock stdin hfile hpath hread h hplan hbytes
    exact ⟨fun h => code_runIn_of_unusable_stdin clock hstdin h hplan hbytes,
      fun h => (hcodes h).1, fun h => (hcodes h).2⟩

def oneByteTree : Tree :=
  homeTree [(Utf8.encode "f".toList, [0xFF])]

theorem read_oneByteTree : oneByteTree.read (Utf8.encode "/w/f".toList) = .ok [0xFF] := by
  decide +kernel

theorem runIn_file_or_stdin_one_byte :
    let clock : Clock := ⟨fun _ => [], []⟩
    let arguments := ["/w/f".toList].map Utf8.encode
    let arguments' := ["-".toList].map Utf8.encode
    let ofFile := runIn (plainInvocation ["/w/f".toList]) clock [] oneByteTree
    let ofStdin := runIn (plainInvocation ["-".toList]) clock [0xFF] oneByteTree
    let planned := ∃ options, (.ok .none : Except Stop Options) = .ok options ∧
      ∃ plan, oneByteTree.HasPlan options (Utf8.encode "/w".toList) plan
    oneByteTree.read (Utf8.encode "/w/f".toList) = .ok [0xFF] ∧
    ((Aborts arguments ↔ Aborts arguments') →
      ofFile.1.stdout = ofStdin.1.stdout ∧ ofFile.2 = ofStdin.2) ∧
    (ofFile.1.status.code = ofStdin.1.status.code ↔ (Aborts arguments ∧ Aborts arguments') ∨
      ¬Aborts arguments ∧ ¬Aborts arguments' ∧
        (([0xFF] : Bytes).toByteArray.IsValidUTF8 ∨ ¬planned)) ∧
    (planned → (∀ records, Record.ofBytes [0xFF] ≠ .ok records) →
      (¬Aborts arguments' → ofStdin.1.status.code = 3) ∧
      (¬Aborts arguments → ([0xFF] : Bytes).toByteArray.IsValidUTF8 →
        ofFile.1.status.code = 3) ∧
      (¬Aborts arguments → ¬([0xFF] : Bytes).toByteArray.IsValidUTF8 →
        ofFile.1.status.code = 1)) ∧
    (Aborts arguments →
      ofFile.1.status.code = 101 ∧ ofFile.1.stdout = [] ∧ ofFile.2 = oneByteTree) ∧
    (Aborts arguments' →
      ofStdin.1.status.code = 101 ∧ ofStdin.1.stdout = [] ∧ ofStdin.2 = oneByteTree) := by
  have hfile : parse [Utf8.encode "/w/f".toList] none =
      (Except.ok Options.none).map fun options => options.withInput (Utf8.encode "/w/f".toList) := by
    decide +kernel
  have hstdin : parse [Path.dash] none =
      (Except.ok Options.none).map fun options => options.withInput Path.dash := by
    decide +kernel
  exact ⟨read_oneByteTree, @runIn_file_or_stdin (plainInvocation []) _ _ _ _ _ _
    ⟨fun _ => [], []⟩ [] hfile hstdin (by decide) read_oneByteTree⟩

/-- The byte in the file is a failure to read it, and on standard input it is bad data. -/
theorem codes_one_byte :
    let clock : Clock := ⟨fun _ => [], []⟩
    (runIn (plainInvocation ["f".toList]) clock [] oneByteTree).1.status.code = 1 ∧
      (runIn (plainInvocation ["-".toList]) clock [0xFF] oneByteTree).1.status.code = 3 := by
  decide +kernel

end RecordSheet
