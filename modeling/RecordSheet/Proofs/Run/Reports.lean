import RecordSheet.Proofs.Records.Bytes
import RecordSheet.Proofs.Run.ErrorReports

namespace RecordSheet

open Command Log

/-- An object with a string for its URI that is more than white space. -/
def Json.HasUri (j : Json) : Prop :=
  ∃ members uri, j = .object members ∧ members.lookup uriKey = some (.string uri) ∧
    ∃ c ∈ uri, isBlank c = false

theorem Record.hasUri_mk_iff (j : Json) : (Record.mk j).hasUri = true ↔ j.HasUri := by
  simp only [hasUri_eq_true_iff, uri?_eq_some_iff]
  constructor
  · rintro ⟨uri, ⟨members, rfl, hlookup⟩, hblank⟩
    exact ⟨members, uri, rfl, hlookup, hblank⟩
  · rintro ⟨members, uri, rfl, hlookup, hblank⟩
    exact ⟨uri, ⟨members, rfl, hlookup⟩, hblank⟩

instance : DecidablePred Json.HasUri := fun j => decidable_of_iff _ (Record.hasUri_mk_iff j)

section

variable (items : List Json)

/-- The lines of a sheet after its header, one for each item of the document that has a URI. -/
def rowLines : List Text :=
  (items.filter fun j => j.HasUri).map fun j => (Row.ofRecord ⟨j⟩).line

def sheetText : Text :=
  if items.isEmpty then [] else joinWith Sheet.lineBreak (Sheet.header :: rowLines items)

theorem length_rowLines : (rowLines items).length = items.countP fun j => j.HasUri := by
  rw [rowLines, List.length_map, List.countP_eq_length_filter]

theorem rows_items : (Sheet.ofRecords (items.map Record.mk)).rows.map Row.line = rowLines items := by
  have hkeep : (Record.hasUri ∘ Record.mk) = fun j => decide j.HasUri := by
    funext j
    rw [Function.comp_apply, Bool.eq_iff_iff, decide_eq_true_iff]
    exact Record.hasUri_mk_iff j
  rw [Sheet.ofRecords, rowLines, List.filter_map, hkeep, List.map_map, List.map_map]
  rfl

/-- The counts of a sheet are true: those of the items, and of the lines of the rows. -/
theorem convert_items : convert (items.map Record.mk) =
    (sheetText items, ⟨items.length, items.countP fun j => j.HasUri⟩) := by
  have hrows := rows_items items
  have hlength := congrArg List.length hrows
  rw [List.length_map, length_rowLines] at hlength
  cases items with
  | nil => rfl
  | cons j items =>
    rw [sheetText, ← hrows, ← hlength, ← List.length_map (f := Record.mk)]
    rfl

variable (options : Options) (output : Bytes)

/--
A report on a sheet that has been written: how many items the document has, how many of them have a
URI, and where the sheet is. A list that is held in memory has a length of at most 64 bits.
-/
inductive Reports : Text → Prop
  | quiet (hformat : options.format = .human) (hquiet : options.quiet = true) : Reports []
  | human (hformat : options.format = .human) (hquiet : options.quiet = false) :
    Reports ("read ".toList ++ decimal items.length ++ " records\n".toList ++
      "wrote ".toList ++ decimal (items.countP fun j => j.HasUri) ++ " rows\n".toList ++
      "CSV file saved as ".toList ++ Path.display output ++ ['\n'])
  | json {line : Text} {records rows : Integer64} (hformat : options.format = .json)
    (hline : '\n' ∉ line)
    (hparse : Json.parse line = .ok (.object [
      ("output".toList, .string (Path.display output)),
      ("input_records".toList, .number (.integer records)),
      ("output_rows".toList, .number (.integer rows))]))
    (hcounts : items.length ≤ 0xFFFFFFFFFFFFFFFF → records.value = items.length ∧
      rows.value = items.countP fun j => j.HasUri) : Reports (line ++ ['\n'])

end

theorem Json.parse_render_report (output : Text) (records rows : Integer64) :
    let j := Json.object [("output".toList, .string output),
      ("input_records".toList, .number (.integer records)),
      ("output_rows".toList, .number (.integer rows))]
    Json.parse j.render = .ok j := by
  have hkeys : ["output".toList, "input_records".toList, "output_rows".toList].Nodup := by decide
  refine toOption_eq_some_iff.1 ((toOption_parse_render _).trans ?_)
  rw [depthLimit, reread_object]
  · simp only [rereadMembers, reread, Number.number?_integer, Option.bind_some, Option.map_some]
  · exact hkeys

section

variable (options : Options) (output : Bytes)

theorem reports_report (items : List Json) : Reports items options output
    (report options output ⟨items.length, items.countP fun j => j.HasUri⟩) := by
  unfold report
  cases hformat : options.format with
  | human =>
    cases hquiet : options.quiet with
    | true => exact .quiet hformat hquiet
    | false => exact .human hformat hquiet
  | json =>
    refine .json hformat (Json.newline_notMem_render _) (Json.parse_render_report _ _ _) fun h => ?_
    have hrows : items.countP (fun j => j.HasUri) ≤ items.length := List.countP_le_length
    dsimp only
    omega

/-- A report is not taken for a sheet: it begins with another character, if it is not empty. -/
theorem not_header_isPrefix_report (counts : Counts) :
    ¬Sheet.header <+: report options output counts := by
  have hhead : (report options output counts).head? ≠ some 'e' := by
    unfold report
    cases options.format with
    | human =>
      cases options.quiet with
      | true => exact nofun
      | false => exact fun h => absurd (Option.some.inj h) (by decide)
    | json => exact fun h => absurd (Option.some.inj h) (by decide)
  rintro ⟨rest, h⟩
  rw [← h] at hhead
  exact hhead rfl

end

/-- A text is that of an object whose `data` is an array with some items. -/
def IsDocument (text : Text) (items : List Json) : Prop :=
  ∃ members, Json.parse text = .ok (.object members) ∧
    members.lookup dataKey = some (.array items)

theorem exists_items_of_ofText {text : Text} {records : List Record}
    (h : Record.ofText text = .ok records) :
    ∃ items, records = items.map Record.mk ∧ IsDocument text items := by
  obtain ⟨j, hparse, hrecords⟩ := Record.ofText_eq_ok_iff.1 h
  obtain ⟨members, items, rfl, hdata, hitems⟩ := Record.ofJson_eq_ok_iff.1 hrecords
  exact ⟨items, hitems, members, hparse, hdata⟩

namespace Tree

variable {t : Tree} {options : Options} {output stdin : Bytes} {sheet text : Text}
  {counts : Counts} {after : Tree}

inductive HasItems (t : Tree) (stdin : Bytes) : Option Bytes → List Json → Prop
  | file {path : Bytes} {text : Text} {items : List Json} (htext : t.HasText path text)
    (hitems : IsDocument text items) : HasItems t stdin (some path) items
  | standardInput {text : Text} {items : List Json} (htext : Utf8.encode text = stdin)
    (hitems : IsDocument text items) : HasItems t stdin none items

theorem exists_items_of_hasDocument {input : Option Bytes} {records : List Record}
    (h : t.HasDocument stdin input (.ok records)) :
    ∃ items, records = items.map Record.mk ∧ t.HasItems stdin input items := by
  cases input with
  | some path =>
    obtain ⟨text, htext, hrecords⟩ := hasDocument_some_iff.1 h
    obtain ⟨items, hitems, hdocument⟩ := exists_items_of_ofText hrecords
    exact ⟨items, hitems, .file htext hdocument⟩
  | none =>
    obtain ⟨text, htext, hrecords⟩ := Record.ofBytes_eq_ok_iff.1 (hasDocument_none_iff.1 h)
    obtain ⟨items, hitems, hdocument⟩ := exists_items_of_ofText hrecords
    exact ⟨items, hitems, .standardInput htext hdocument⟩

theorem text_of_deliver (h : t.deliver options output sheet counts = .ok (text, after)) :
    (output = Path.dash → text = sheet) ∧
      (output ≠ Path.dash → after.read output = .ok (Utf8.encode sheet) ∧
        text = report options output counts) := by
  have hplace := of_deliver h
  rw [deliver] at h
  split at h
  · rename_i houtput
    cases h
    exact ⟨fun _ => rfl, fun hne => absurd houtput hne⟩
  · rename_i houtput
    rw [if_neg houtput] at hplace
    obtain ⟨location, -, -, hread⟩ := hplace
    obtain ⟨written, -, h⟩ := exists_of_bind_eq_ok h
    cases h
    exact ⟨fun heq => absurd heq houtput, fun _ => ⟨hread, rfl⟩⟩

end Tree

/--
What a run prints, whose command line has been read. Nothing, if it fails. If it succeeds, its document
has an array of items. With a dash for the output it prints the sheet of these items. With any other
output it writes this sheet there, and prints at most a report, whose counts are those of the items and
of the lines in the sheet.
-/
theorem runIn_stdout {options : Options} (invocation : Invocation) (clock : Clock) (stdin : Bytes)
    (t : Tree) (hoptions : invocation.options = .ok options) :
    let outcome := (runIn invocation clock stdin t).1
    let after := (runIn invocation clock stdin t).2
    (outcome.status.code ≠ 0 → outcome.stdout = []) ∧
    (outcome.status.code = 0 → ∃ plan items,
      t.HasPlan options invocation.directoryName plan ∧ t.HasItems stdin plan.input items ∧
      (plan.output = Path.dash → outcome.stdout = sheetText items) ∧
      (plan.output ≠ Path.dash → after.read plan.output = .ok (Utf8.encode (sheetText items)) ∧
        (rowLines items).length = items.countP (fun j => j.HasUri) ∧
        ¬Sheet.header <+: outcome.stdout ∧ Reports items options plan.output outcome.stdout)) := by
  obtain ⟨log, hrun⟩ := runIn_of_options invocation clock stdin t hoptions
  rw [hrun]
  cases hperform : t.perform options invocation.directoryName stdin with
  | error failure => exact ⟨fun _ => rfl, fun h => absurd h failure.code_status_ne_zero⟩
  | ok p =>
    refine ⟨fun h => absurd rfl h, fun _ => ?_⟩
    rw [Tree.perform_eq_bind] at hperform
    obtain ⟨plan, hplan, hrest⟩ := exists_of_bind_eq_ok hperform
    obtain ⟨records, hrecords, hdeliver⟩ := exists_of_bind_eq_ok hrest
    obtain ⟨items, rfl, hitems⟩ :=
      Tree.exists_items_of_hasDocument (Tree.records_eq_ok_iff.1 hrecords)
    rw [convert_items] at hdeliver
    obtain ⟨hprinted, hwritten⟩ := Tree.text_of_deliver hdeliver
    refine ⟨plan, items, Tree.resolve_settings_eq_ok_iff.1 hplan, hitems, hprinted, fun hne => ?_⟩
    obtain ⟨hread, htext⟩ := hwritten hne
    refine ⟨hread, length_rowLines items, ?_⟩
    dsimp only
    rw [htext]
    exact ⟨not_header_isPrefix_report options plan.output _, reports_report options plan.output items⟩

def twoRecordsTree : Tree :=
  let document := "\x7b\"data\":[\x7b\"uri\":\"u\"\x7d,\x7b\"uri\":\" \"\x7d]\x7d"
  homeTree [(Utf8.encode "i".toList, Utf8.encode document.toList)]

/-- A run whose output path has a quote and a line break, and leads out of the directory and back. -/
def quotedOutputRun : Invocation :=
  plainInvocation ["/w/i".toList, "--format=json".toList, "-o".toList, "../w/\"\n".toList]

def quotedOutputOptions : Options :=
  { Options.none with
    input := some (Utf8.encode "/w/i".toList)
    output := some (Utf8.encode "../w/\"\n".toList)
    format := .json }

theorem runIn_stdout_quoted_output :
    let outcome := (runIn quotedOutputRun ⟨fun _ => [], []⟩ [] twoRecordsTree).1
    let after := (runIn quotedOutputRun ⟨fun _ => [], []⟩ [] twoRecordsTree).2
    quotedOutputRun.options = .ok quotedOutputOptions ∧
    outcome.status.code = 0 ∧ ∃ plan items,
      twoRecordsTree.HasPlan quotedOutputOptions quotedOutputRun.directoryName plan ∧
      twoRecordsTree.HasItems [] plan.input items ∧
      (plan.output = Path.dash → outcome.stdout = sheetText items) ∧
      (plan.output ≠ Path.dash → after.read plan.output = .ok (Utf8.encode (sheetText items)) ∧
        (rowLines items).length = items.countP (fun j => j.HasUri) ∧
        ¬Sheet.header <+: outcome.stdout ∧
        Reports items quotedOutputOptions plan.output outcome.stdout) := by
  have hoptions : quotedOutputRun.options = .ok quotedOutputOptions := by
    decide +kernel
  have hcode :
      (runIn quotedOutputRun ⟨fun _ => [], []⟩ [] twoRecordsTree).1.status.code = 0 := by
    decide +kernel
  exact ⟨hoptions, hcode,
    (runIn_stdout quotedOutputRun ⟨fun _ => [], []⟩ [] twoRecordsTree hoptions).2 hcode⟩

end RecordSheet
