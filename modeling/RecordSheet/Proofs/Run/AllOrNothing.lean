import RecordSheet.Proofs.Files.Tree
import RecordSheet.Proofs.Run.Stages

namespace RecordSheet

open Command Log

theorem Failure.code_status_ne_zero (failure : Failure) : failure.status.code ≠ 0 := by
  cases failure with
  | usage _ => exact Nat.succ_ne_zero _
  | invalidInput _ => exact Nat.succ_ne_zero _
  | invalidSettings _ => exact Nat.succ_ne_zero _
  | system _ => exact Nat.succ_ne_zero _
  | json _ => exact Nat.succ_ne_zero _
  | operation _ _ _ => exact Nat.succ_ne_zero _
  | other _ => exact Nat.succ_ne_zero _

namespace Tree

variable {t after : Tree} {options : Options} {output stdin directoryName : Bytes}
  {sheet text : Text} {counts : Counts}

theorem of_deliver (h : t.deliver options output sheet counts = .ok (text, after)) :
    if output = Path.dash then after = t else t.Replaces output (Utf8.encode sheet) after := by
  rw [deliver] at h
  split at h
  · rename_i houtput
    cases h
    rw [if_pos houtput]
  · rename_i houtput
    obtain ⟨written, hwrite, h⟩ := exists_of_bind_eq_ok h
    cases h
    rw [if_neg houtput]
    exact replaces_of_write (eq_ok_of_mapError_eq_ok hwrite)

theorem exists_of_perform (h : t.perform options directoryName stdin = .ok (text, after)) :
    ∃ settings plan records,
      t.settings options.config directoryName = .ok settings ∧
      Plan.resolve options settings = .ok plan ∧ t.records stdin plan.input = .ok records ∧
      if plan.output = Path.dash then after = t
      else t.Replaces plan.output (Utf8.encode (convert records).1) after := by
  obtain ⟨settings, hsettings, h⟩ := exists_of_bind_eq_ok h
  obtain ⟨plan, hplan, h⟩ := exists_of_bind_eq_ok h
  obtain ⟨records, hrecords, h⟩ := exists_of_bind_eq_ok h
  exact ⟨settings, plan, records, hsettings, hplan, hrecords, of_deliver h⟩

end Tree

/--
A run that fails, or is aborted, leaves its tree as it is, and so does one that shows help or the
version. Any other run has settings, a plan and the records of a document; if it does not print the
sheet, the tree it leaves has the bytes of the sheet at the output path and is otherwise as it was.
-/
theorem runIn_all_or_nothing (invocation : Invocation) (clock : Clock) (stdin : Bytes) (t : Tree) :
    let (outcome, after) := runIn invocation clock stdin t
    let options := invocation.options
    (outcome.status.code ≠ 0 ∧ after = t ∧
      ((∃ argument, options = .error (.aborted argument)) ∨
        (∃ inJson wrong, options = .error (.stopped inJson (.misuse wrong))) ∨
        ∃ o failure, options = .ok o ∧
          t.perform o invocation.directoryName stdin = .error failure)) ∨
    (outcome.status.code = 0 ∧ after = t ∧ ∃ inJson,
      options = .error (.stopped inJson .version) ∨
        ∃ long, options = .error (.stopped inJson (.help long))) ∨
    (outcome.status.code = 0 ∧ ∃ o settings plan records,
      options = .ok o ∧
      t.settings o.config invocation.directoryName = .ok settings ∧
      Plan.resolve o settings = .ok plan ∧
      t.records stdin plan.input = .ok records ∧
      if plan.output = Path.dash then after = t
      else t.Replaces plan.output (Utf8.encode (convert records).1) after) := by
  dsimp only
  cases hoptions : invocation.options with
  | error ending =>
    rw [runIn_of_ending _ _ _ _ hoptions]
    cases ending with
    | aborted argument => exact .inl ⟨Nat.succ_ne_zero _, rfl, .inl ⟨argument, rfl⟩⟩
    | stopped inJson stop =>
      cases stop with
      | help long => exact .inr (.inl ⟨rfl, rfl, inJson, .inr ⟨long, rfl⟩⟩)
      | version => exact .inr (.inl ⟨rfl, rfl, inJson, .inl rfl⟩)
      | misuse wrong =>
        exact .inl ⟨Nat.succ_ne_zero _, rfl, .inr (.inl ⟨inJson, wrong, rfl⟩)⟩
  | ok options =>
    obtain ⟨log, hrun⟩ := runIn_of_options invocation clock stdin t hoptions
    rw [hrun]
    cases hperform : t.perform options invocation.directoryName stdin with
    | error failure =>
      exact .inl ⟨failure.code_status_ne_zero, rfl, .inr (.inr ⟨options, failure, rfl, hperform⟩)⟩
    | ok p =>
      obtain ⟨settings, plan, records, h⟩ := Tree.exists_of_perform hperform
      exact .inr (.inr ⟨rfl, options, settings, plan, records, rfl, h⟩)

end RecordSheet
