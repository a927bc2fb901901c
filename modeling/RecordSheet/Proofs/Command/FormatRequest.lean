import Mathlib.Data.List.Infix
import RecordSheet.Command.Parser
import RecordSheet.Proofs.Except
import RecordSheet.Proofs.Text.Utf8

namespace RecordSheet.Command

variable {argument : Bytes} {arguments : List Bytes} {named : Bool} {t : Text}

theorem argumentText_encode (t : Text) : argumentText (Utf8.encode t) = .ok t := by
  rw [argumentText, Utf8.decode?_encode]

theorem eq_encode_of_argumentText (h : argumentText argument = .ok t) :
    argument = Utf8.encode t := by
  rw [argumentText] at h
  split at h
  · rename_i u hu
    cases h
    exact (Utf8.decode?_eq_some_iff.1 hu).symm
  · cases h

def formatFlag : Bytes :=
  Utf8.encode "--format".toList

def jsonName : Bytes :=
  Utf8.encode "json".toList

def jsonFlag : Bytes :=
  Utf8.encode "--format=json".toList

def endOfOptions : Bytes :=
  Utf8.encode "--".toList

def wanted (named : Bool) : Text :=
  if named then "json".toList else "--format=json".toList

/-- The search for the option, argument by argument; its name may have come just before. -/
def search (named : Bool) : List Bytes → Except Bytes Bool
  | [] => .ok false
  | argument :: rest => do
    let t ← argumentText argument
    if t = wanted named then .ok true else search (!named && t == "--format".toList) rest

theorem search_encode (named : Bool) (t : Text) (rest : List Bytes) :
    search named (Utf8.encode t :: rest) =
      if t = wanted named then .ok true else search (!named && t == "--format".toList) rest := by
  rw [search, argumentText_encode]
  rfl

theorem requestsJson_eq_search (arguments : List Bytes) :
    requestsJson arguments = search false arguments := by
  induction arguments using requestsJson.induct with
  | case1 => rfl
  | case2 argument =>
    rw [requestsJson, search]
    cases argumentText argument with
    | error argument => rfl
    | ok t =>
      change Except.ok (t == "--format=json".toList) =
        if t = "--format=json".toList then .ok true else .ok false
      split
      · rename_i h
        rw [h]
        rfl
      · rename_i h
        exact congrArg Except.ok (beq_eq_false_iff_ne.2 h)
  | case3 argument value rest ihrest ihvalue =>
    rw [requestsJson, search]
    cases argumentText argument with
    | error argument => rfl
    | ok t =>
      change (if t = "--format".toList then _ else if t = "--format=json".toList then _ else _) =
        if t = "--format=json".toList then _ else _
      by_cases hname : t = "--format".toList
      · subst hname
        rw [if_pos rfl, if_neg (by decide), ihrest]
        rfl
      · rw [if_neg hname, ihvalue, beq_eq_false_iff_ne.2 hname]
        rfl

theorem search_endOfOptions (named : Bool) (rest : List Bytes) :
    search named (endOfOptions :: rest) = search false rest := by
  rw [endOfOptions, search_encode]
  cases named with
  | true => exact if_neg (by decide)
  | false => exact if_neg (by decide)

/-- JSON is asked for in front of `--` or behind it, and an option cut off by `--` asks for nothing. -/
theorem search_append_endOfOptions (arguments rest : List Bytes) :
    search named (arguments ++ endOfOptions :: rest) =
      search named arguments >>= fun asked => if asked then .ok true else search false rest := by
  induction arguments generalizing named with
  | nil => exact search_endOfOptions named rest
  | cons argument arguments ih =>
    rw [List.cons_append, search, search]
    cases argumentText argument with
    | error argument => rfl
    | ok t =>
      change (if t = wanted named then Except.ok true else _) =
        (if t = wanted named then Except.ok true else _) >>= _
      by_cases hwanted : t = wanted named
      · rw [if_pos hwanted, if_pos hwanted]
        rfl
      · rw [if_neg hwanted, if_neg hwanted]
        exact ih

theorem mem_or_isInfix_of_search (h : search named arguments = .ok true) :
    jsonFlag ∈ arguments ∨
      [formatFlag, jsonName] <:+: if named then formatFlag :: arguments else arguments := by
  induction arguments generalizing named with
  | nil => cases h
  | cons argument arguments ih =>
    obtain ⟨t, ht, -⟩ := exists_of_bind_eq_ok h
    obtain rfl := eq_encode_of_argumentText ht
    rw [search_encode] at h
    split at h
    · rename_i hwanted
      rw [hwanted]
      cases named with
      | true => exact .inr ⟨[], arguments, rfl⟩
      | false => exact .inl List.mem_cons_self
    · rcases ih h with hmem | hinfix
      · exact .inl (List.mem_cons_of_mem _ hmem)
      · refine .inr ?_
        cases named with
        | true => exact List.infix_cons (List.infix_cons hinfix)
        | false =>
          by_cases hname : t = "--format".toList
          · subst hname
            exact hinfix
          · rw [beq_eq_false_iff_ne.2 hname] at hinfix
            exact List.infix_cons hinfix

section

variable {inJson : Bool} {stop : Stop} {options : Options} {config : Option Bytes}

/-- A command line with an argument that is no text, and that is looked at. -/
def Aborts (arguments : List Bytes) : Prop :=
  ∃ argument, requestsJson arguments = .error argument

theorem not_aborts_iff : ¬Aborts arguments ↔ ∃ inJson, requestsJson arguments = .ok inJson := by
  rw [Aborts]
  cases requestsJson arguments with
  | error argument => exact ⟨fun h => absurd ⟨argument, rfl⟩ h, nofun⟩
  | ok inJson => exact ⟨fun _ => ⟨inJson, rfl⟩, fun _ => nofun⟩

theorem requestsJson_append_endOfOptions (arguments rest : List Bytes) :
    requestsJson (arguments ++ endOfOptions :: rest) =
      requestsJson arguments >>= fun asked => if asked then .ok true else requestsJson rest := by
  simp only [requestsJson_eq_search, search_append_endOfOptions]

theorem mem_or_isInfix_of_requestsJson (h : requestsJson arguments = .ok true) :
    jsonFlag ∈ arguments ∨ [formatFlag, jsonName] <:+: arguments :=
  @mem_or_isInfix_of_search arguments false (requestsJson_eq_search arguments ▸ h)

theorem readOptions_eq_ok_iff : readOptions arguments config = .ok options ↔
    (∃ inJson, requestsJson arguments = .ok inJson) ∧ parse arguments config = .ok options := by
  simp only [readOptions, bind_eq_ok_iff, mapError_eq_ok_iff, exists_and_right]

theorem readOptions_eq_aborted_iff : readOptions arguments config = .error (.aborted argument) ↔
    requestsJson arguments = .error argument := by
  simp only [readOptions, bind_eq_error_iff, mapError_eq_error_iff, Ending.aborted.injEq,
    exists_eq_right, reduceCtorEq, and_false, exists_false, or_false]

theorem readOptions_eq_stopped_iff :
    readOptions arguments config = .error (.stopped inJson stop) ↔
      requestsJson arguments = .ok inJson ∧ parse arguments config = .error stop := by
  simp only [readOptions, bind_eq_error_iff, mapError_eq_error_iff, mapError_eq_ok_iff,
    reduceCtorEq, and_false, exists_false, false_or, Ending.stopped.injEq, ↓existsAndEq, and_true]

end

end RecordSheet.Command
