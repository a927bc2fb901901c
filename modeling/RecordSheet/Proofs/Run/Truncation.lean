import RecordSheet.Proofs.Json.RoundTrip
import RecordSheet.Proofs.Records.Continuation
import RecordSheet.Proofs.Run.Faults

namespace RecordSheet

open Command Log

namespace Tree

variable {t : Tree} {options : Options} {directoryName stdin bytes : Bytes} {plan : Plan}

/-- The bytes that a document is to be read from: those of a file, or those on standard input. -/
inductive HasBytes (t : Tree) (stdin : Bytes) : Option Bytes → Bytes → Prop
  | file {path bytes : Bytes} (hread : t.read path = .ok bytes) : HasBytes t stdin (some path) bytes
  | standardInput : HasBytes t stdin none stdin

theorem exists_fault_of_bytes (hplan : t.HasPlan options directoryName plan)
    (hbytes : t.HasBytes stdin plan.input bytes)
    (hinvalid : ∀ records, Record.ofBytes bytes ≠ .ok records) :
    ∃ failure, t.FirstFault options directoryName stdin failure ∧
      (bytes.toByteArray.IsValidUTF8 ∨ plan.input = none → failure.status = .data) := by
  rw [Utf8.isValidUTF8_iff]
  cases hinput : plan.input with
  | none =>
    rw [hinput] at hbytes
    cases hbytes with
    | standardInput =>
      cases hrecords : Record.ofBytes stdin with
      | ok records => exact absurd hrecords (hinvalid records)
      | error e =>
        have hdocument : t.HasDocument stdin plan.input (.error e) := by
          rw [hinput, ← hrecords]
          exact .standardInput
        exact ⟨_, .documentInvalid hplan hdocument, fun _ => rfl⟩
  | some path =>
    rw [hinput] at hbytes
    cases hbytes with
    | file hread =>
      by_cases htext : ∃ text, Utf8.encode text = bytes
      · obtain ⟨text, rfl⟩ := htext
        cases hrecords : Record.ofText text with
        | ok records => exact absurd (Record.ofBytes_eq_ok_iff.2 ⟨text, rfl, hrecords⟩) (hinvalid _)
        | error e =>
          have hdocument : t.HasDocument stdin plan.input (.error e) := by
            rw [hinput, ← hrecords]
            exact .file hread
          exact ⟨_, .documentInvalid hplan hdocument, fun _ => rfl⟩
      · have hunread : ∀ text, ¬t.HasText path text := by
          intro text hhas
          rw [HasText, hread] at hhas
          cases hhas
          exact htext ⟨text, rfl⟩
        obtain ⟨e, he⟩ := exists_readText_eq_error_iff.2 hunread
        refine ⟨_, .documentUnread hplan hinput he, ?_⟩
        rintro (h | h)
        · exact absurd h htext
        · cases h

end Tree

/--
A document with something behind it is a document exactly if this is white space, and then it has the
same records. Otherwise it is invalid input, and so is a document that is cut before its last
character that is not white space. A run that finds such bytes, even if a character is cut, fails and
writes nothing.
-/
theorem document_prefix_free {text : Text} {records : List Record}
    (h : Record.ofText text = .ok records) :
    (∀ more others, Record.ofText (text ++ more) = .ok others ↔
      Json.Space more ∧ others = records) ∧
    (∀ other, Record.CutOrContinued Json.Space text other → ∃ reason,
      (Record.ofText other).mapError Failure.ofDocument = .error (.invalidInput reason)) ∧
    ∀ bytes, Record.CutOrContinued Json.SpaceBytes (Utf8.encode text) bytes →
      ∀ (invocation : Invocation) (clock : Clock) (stdin : Bytes) (t : Tree) (options : Options)
        (plan : Plan),
        Command.parse invocation.arguments invocation.environment.config = .ok options →
        t.HasPlan options invocation.directoryName plan → t.HasBytes stdin plan.input bytes →
        let (outcome, after) := runIn invocation clock stdin t
        after = t ∧ outcome.stdout = [] ∧ outcome.status.code ≠ 0 ∧
          (¬Aborts invocation.arguments → bytes.toByteArray.IsValidUTF8 ∨ plan.input = none →
            outcome.status.code = 3) := by
  refine ⟨fun more others => Record.ofText_append_eq_ok_iff h, ?_, ?_⟩
  · intro other hother
    cases hresult : Record.ofText other with
    | ok found => exact absurd hresult (Record.ofText_ne_ok_of_cutOrContinued h hother)
    | error e => exact ⟨e.message, rfl⟩
  · intro bytes hbytes invocation clock stdin t options plan hparse hplan hfound
    by_cases haborts : Aborts invocation.arguments
    · obtain ⟨hcode, hstdout, hafter⟩ := runIn_aborted invocation clock stdin t haborts
      exact ⟨hafter, hstdout, hcode ▸ Nat.succ_ne_zero _, fun hnot => absurd haborts hnot⟩
    · have hoptions : invocation.options = .ok options :=
        readOptions_eq_ok_iff.2 ⟨not_aborts_iff.1 haborts, hparse⟩
      have hinvalid : ∀ found, Record.ofBytes bytes ≠ .ok found := fun _ =>
        Record.ofBytes_ne_ok_of_cutOrContinued h hbytes
      obtain ⟨failure, hfault, hstatus⟩ := Tree.exists_fault_of_bytes hplan hfound hinvalid
      obtain ⟨log, hrun⟩ := runIn_of_fault invocation clock stdin t hoptions hfault
      rw [hrun]
      exact ⟨rfl, rfl, failure.code_status_ne_zero,
        fun _ hvalid => congrArg Status.code (hstatus hvalid)⟩

def umlautDocument : Text :=
  "\x7b\"data\":[\x7b\"uri\":\"ä\"\x7d]\x7d\n".toList

theorem document_prefix_free_umlaut :
    let records := [Record.mk (.object [(uriKey, .string "ä".toList)])]
    Record.ofText umlautDocument = .ok records ∧
    (∀ more others, Record.ofText (umlautDocument ++ more) = .ok others ↔
      Json.Space more ∧ others = records) ∧
    (∀ other, Record.CutOrContinued Json.Space umlautDocument other → ∃ reason,
      (Record.ofText other).mapError Failure.ofDocument = .error (.invalidInput reason)) ∧
    ∀ bytes, Record.CutOrContinued Json.SpaceBytes (Utf8.encode umlautDocument) bytes →
      ∀ (invocation : Invocation) (clock : Clock) (stdin : Bytes) (t : Tree) (options : Options)
        (plan : Plan),
        Command.parse invocation.arguments invocation.environment.config = .ok options →
        t.HasPlan options invocation.directoryName plan → t.HasBytes stdin plan.input bytes →
        let (outcome, after) := runIn invocation clock stdin t
        after = t ∧ outcome.stdout = [] ∧ outcome.status.code ≠ 0 ∧
          (¬Aborts invocation.arguments → bytes.toByteArray.IsValidUTF8 ∨ plan.input = none →
            outcome.status.code = 3) := by
  have h : Record.ofText umlautDocument =
      .ok [Record.mk (.object [(uriKey, .string "ä".toList)])] := by
    let j := Json.object [(dataKey, .array [.object [(uriKey, .string "ä".toList)]])]
    have hj : Json.parse j.render = .ok j :=
      toOption_eq_some_iff.1 ((Json.toOption_parse_render j).trans rfl)
    have hrecords := Record.ofText_eq_ok_iff.2 ⟨j, hj, rfl⟩
    have hspace : Json.Space ['\n'] := List.forall_mem_singleton.2 (by decide)
    exact (Record.ofText_append_eq_ok_iff hrecords).2 ⟨hspace, rfl⟩
  exact ⟨h, document_prefix_free h⟩

end RecordSheet
