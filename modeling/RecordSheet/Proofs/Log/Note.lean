import RecordSheet.Proofs.Json.Printable
import RecordSheet.Proofs.Json.RoundTrip
import RecordSheet.Proofs.Log.Time
import Mathlib.Data.List.DropRight

namespace RecordSheet.Log

/-- The messages that come with a number, and the field that the number is in. -/
def numbered : List (Text × Text) :=
  [("read records".toList, "input_records".toList),
    ("skipping record without uri".toList, "index".toList),
    ("converted records".toList, "output_rows".toList),
    ("wrote csv".toList, "bytes".toList)]

def lastNumber? (field t : Text) : Option Nat :=
  let digits := t.rtakeWhile Char.isDigit
  if !digits.isEmpty && (' ' :: field ++ ['=']).isSuffixOf (t.rdropWhile Char.isDigit) then
    some (digitsValue digits)
  else none

def naturalNumber? : Json → Option Nat
  | .number (.integer n) => some n.value.toNat
  | _ => none

def number? (style : Style) (line message field : Text) : Option Nat :=
  match style with
  | .compact =>
    -- in front of the message stand the time and the level, and the level takes five characters
    (((line.dropWhile (· ≠ ' ')).drop 7).dropPrefix? message).bind (lastNumber? field)
  | .json =>
    (Json.parse line).toOption.bind fun j => (j.field? "fields".toList).bind fun fields =>
      if (fields.field? "message".toList).bind Json.text? = some message then
        (fields.field? field).bind naturalNumber?
      else none

/-- What is read off a line: its message and its number, if the message comes with one. -/
def note? (style : Style) (line : Text) : Option (Text × Nat) :=
  (numbered.filterMap fun (message, field) =>
    (number? style line message field).map (message, ·)).head?

def notes (style : Style) (log : Text) : List (Text × Nat) :=
  (log.splitOn '\n').filterMap (note? style)

namespace Event

def count? : Event → Option Nat
  | .recordsRead count => some count
  | .recordSkipped index => some index
  | .recordsConverted rows => some rows
  | .sheetWritten _ size => some size
  | _ => none

def path? : Event → Option Bytes
  | .settingsFound path => some path
  | .sheetWritten path _ => some path
  | _ => none

/-- The message of an event with its number, if it has one. -/
def note? (e : Event) : Option (Text × Nat) :=
  e.count?.map (e.message, ·)

def body (clock : Clock) (style : Style) (e : Event) : Text :=
  match style with
  | .compact => e.compact clock
  | .json => (e.toJson clock).render

theorem line_eq (clock : Clock) (style : Style) (e : Event) :
    e.line clock style = e.body clock style ++ ['\n'] := by
  cases style with
  | compact => rfl
  | json => rfl

end Event

section

variable {clock : Clock} {field t : Text} {n : Nat}

theorem lastNumber?_append (field t : Text) (n : Nat) :
    lastNumber? field (t ++ ' ' :: field ++ '=' :: decimal n) = some n := by
  have hdigits : ∀ c ∈ (decimal n).reverse, c.isDigit = true := fun c hc =>
    isDigit_of_mem_decimal (List.mem_reverse.1 hc)
  have hequals : ('=' : Char).isDigit = false := rfl
  have htake : (t ++ ' ' :: field ++ '=' :: decimal n).rtakeWhile Char.isDigit = decimal n := by
    rw [List.rtakeWhile, List.reverse_append, List.reverse_cons, List.append_assoc,
      List.takeWhile_append_of_pos hdigits, List.singleton_append, List.takeWhile_cons, hequals]
    simp
  have hdrop : (t ++ ' ' :: field ++ '=' :: decimal n).rdropWhile Char.isDigit =
      t ++ ' ' :: field ++ ['='] := by
    rw [List.rdropWhile, List.reverse_append, List.reverse_cons, List.append_assoc,
      List.dropWhile_append_of_pos hdigits, List.singleton_append, List.dropWhile_cons, hequals]
    simp
  have hsuffix : (' ' :: field ++ ['=']).isSuffixOf (t ++ ' ' :: field ++ ['=']) = true := by
    rw [List.isSuffixOf_iff_suffix]
    exact ⟨t, by simp⟩
  rw [lastNumber?, htake, hdrop, hsuffix, digitsValue_decimal]
  simp [decimal_ne_nil]

def Event.fieldsText (clock : Clock) (e : Event) : Text :=
  e.fields.flatMap fun f => ' ' :: f.1 ++ '=' :: f.2.render clock

theorem told_compact (hclock : clock.Legible) (e : Event) :
    ((e.compact clock).dropWhile (· ≠ ' ')).drop 7 = e.message ++ e.fieldsText clock := by
  have hnow : ∀ c ∈ clock.now .compact, decide (c ≠ ' ') = true := fun c hc =>
    decide_eq_true fun h => hclock.now.1 (h ▸ hc)
  rw [Event.compact, List.append_assoc, List.append_assoc, List.dropWhile_append_of_pos hnow]
  cases e with
  | _ => rfl

theorem lastNumber?_fieldsText {e : Event} (front : List (Text × FieldValue))
    (h : e.fields = front ++ [(field, .count n)]) :
    lastNumber? field (e.fieldsText clock) = some n := by
  rw [Event.fieldsText, h, List.flatMap_append, List.flatMap_singleton, FieldValue.render,
    ← List.append_assoc]
  exact lastNumber?_append field _ n

theorem naturalNumber?_ofCount (h : n ≤ 0xFFFFFFFFFFFFFFFF) :
    naturalNumber? (.ofCount n) = some n := by
  have hvalue : (min (n : Int) 0xFFFFFFFFFFFFFFFF).toNat = n := by omega
  exact congrArg some hvalue

theorem number?_compact (hclock : clock.Legible) (e : Event) :
    (numbered.map fun f => number? .compact (e.compact clock) f.1 f.2) =
      numbered.map fun f => if f.1 = e.message then e.count? else none := by
  simp only [number?, told_compact hclock]
  -- any other message differs from the line before the line gets to a path or a time
  cases e with
  | argumentsParsed => rfl
  | settingsFound path => rfl
  | settingsLoaded => rfl
  | recordsRead count =>
    exact congrArg (fun x => [x, none, none, none])
      (lastNumber?_fieldsText (e := .recordsRead count) [] rfl)
  | inputRead => rfl
  | recordSkipped index =>
    exact congrArg (fun x => [none, x, none, none])
      (lastNumber?_fieldsText (e := .recordSkipped index) [] rfl)
  | recordsConverted rows =>
    exact congrArg (fun x => [none, none, x, none])
      (lastNumber?_fieldsText (e := .recordsConverted rows) [] rfl)
  | sheetConverted => rfl
  | sheetWritten path size =>
    exact congrArg (fun x => [none, none, none, x])
      (lastNumber?_fieldsText (e := .sheetWritten path size) [_] rfl)
  | outputWritten => rfl

theorem reread_toJson (room : Nat) (v : FieldValue) :
    Json.reread room (v.toJson clock) = some (v.toJson clock) := by
  cases v with
  | count n =>
    rw [FieldValue.toJson, Json.ofCount, Json.reread, Number.number?_integer, Option.map_some]
  | text t => rw [FieldValue.toJson, Json.reread]
  | elapsed => rw [FieldValue.toJson, Json.reread]

theorem parse_toJson (clock : Clock) (e : Event) :
    Json.parse (e.toJson clock).render = .ok (e.toJson clock) := by
  have hkeys : ["timestamp".toList, "level".toList, "fields".toList, "target".toList].Nodup := by
    decide
  have hfields : ("message".toList :: e.fields.map Prod.fst).Nodup := by
    cases e <;>
      · simp only [Event.fields, List.map_cons, List.map_nil]
        decide
  have hstring : ∀ (room : Nat) (t : Text), Json.reread room (.string t) = some (.string t) :=
    fun room t => by rw [Json.reread]
  refine toOption_eq_some_iff.1 ((Json.toOption_parse_render _).trans ?_)
  refine Json.reread_object_self hkeys (List.forall_mem_cons.2 ⟨hstring _ _, List.forall_mem_cons.2
    ⟨hstring _ _, List.forall_mem_cons.2 ⟨Json.reread_object_self ?_ ?_, List.forall_mem_singleton.2
      (hstring _ _)⟩⟩⟩)
  · rwa [List.map_cons, List.map_map]
  · refine List.forall_mem_cons.2 ⟨hstring _ _, fun m hm => ?_⟩
    obtain ⟨f, -, rfl⟩ := List.mem_map.1 hm
    exact reread_toJson _ f.2

theorem number?_json (e : Event) (h : ∀ n ∈ e.count?, n ≤ 0xFFFFFFFFFFFFFFFF) :
    (numbered.map fun f => number? .json (e.toJson clock).render f.1 f.2) =
      numbered.map fun f => if f.1 = e.message then e.count? else none := by
  simp only [number?, parse_toJson]
  cases e with
  | argumentsParsed => rfl
  | settingsFound path => rfl
  | settingsLoaded => rfl
  | recordsRead count =>
    exact congrArg (fun x => [x, none, none, none]) (naturalNumber?_ofCount (h count rfl))
  | inputRead => rfl
  | recordSkipped index =>
    exact congrArg (fun x => [none, x, none, none]) (naturalNumber?_ofCount (h index rfl))
  | recordsConverted rows =>
    exact congrArg (fun x => [none, none, x, none]) (naturalNumber?_ofCount (h rows rfl))
  | sheetConverted => rfl
  | sheetWritten path size =>
    exact congrArg (fun x => [none, none, none, x]) (naturalNumber?_ofCount (h size rfl))
  | outputWritten => rfl

theorem note?_eq {style : Style} {line : Text} {e : Event}
    (h : (numbered.map fun f => number? style line f.1 f.2) =
      numbered.map fun f => if f.1 = e.message then e.count? else none) :
    note? style line = e.note? := by
  have hnumber := List.map_inj_left.1 h
  have hnote : note? style line = (numbered.filterMap fun f =>
      (if f.1 = e.message then e.count? else none).map (f.1, ·)).head? :=
    congrArg List.head? (List.filterMap_congr fun f hf => congrArg (Option.map _) (hnumber f hf))
  rw [hnote]
  cases e with
  | _ => rfl

theorem note?_body {style : Style} (hclock : clock.Legible) (e : Event)
    (h : style = .json → ∀ n ∈ e.count?, n ≤ 0xFFFFFFFFFFFFFFFF) :
    note? style (e.body clock style) = e.note? := by
  cases style with
  | compact => exact note?_eq (number?_compact hclock e)
  | json => exact note?_eq (number?_json e (h rfl))

theorem newline_notMem_render (hclock : clock.Legible) {e : Event}
    (hpath : ∀ path ∈ e.path?, '\n' ∉ Path.display path) :
    ∀ f ∈ e.fields, '\n' ∉ f.2.render clock := by
  have htext : ∀ f ∈ e.fields, ∀ t, f.2 = .text t → ∃ path ∈ e.path?, t = Path.display path := by
    cases e <;> simp [Event.fields, Event.path?]
  intro f hf
  cases hvalue : f.2 with
  | count n => exact fun h => absurd (isDigit_of_mem_decimal h) (by decide)
  | text t =>
    obtain ⟨path, hp, rfl⟩ := htext f hf t hvalue
    exact hpath path hp
  | elapsed => exact hclock.elapsed

theorem newline_notMem_compact (hclock : clock.Legible) {e : Event}
    (hpath : ∀ path ∈ e.path?, '\n' ∉ Path.display path) : '\n' ∉ e.compact clock := by
  have hlevel : (rightAligned 5 e.level.name).contains '\n' = false := by
    cases e with
    | _ => rfl
  have hmessage : e.message.contains '\n' = false := by
    cases e with
    | _ => rfl
  have hnames : (e.fields.all fun f => !f.1.contains '\n') = true := by
    cases e with
    | _ => rfl
  simp only [List.all_eq_true, Bool.not_eq_true', ← Bool.not_eq_true, List.contains_iff_mem]
    at hlevel hmessage hnames
  have hspace : '\n' ≠ ' ' := by decide
  have hequals : '\n' ≠ '=' := by decide
  rw [Event.compact]
  simp only [List.mem_append, List.mem_cons, List.mem_flatMap]
  rintro (((h | h | h) | h | h) | ⟨f, hf, (h | h) | h | h⟩)
  · exact hclock.now.2 h
  · exact hspace h
  · exact hlevel h
  · exact hspace h
  · exact hmessage h
  · exact hspace h
  · exact hnames f hf h
  · exact hequals h
  · exact newline_notMem_render hclock hpath f hf h

theorem newline_notMem_body {style : Style} (hclock : clock.Legible) {e : Event}
    (hpath : ∀ path ∈ e.path?, '\n' ∉ Path.display path) : '\n' ∉ e.body clock style := by
  cases style with
  | compact => exact newline_notMem_compact hclock hpath
  | json => exact Json.newline_notMem_render _

theorem note?_nil (style : Style) : note? style [] = none := by
  cases style with
  | compact => rfl
  | json => rfl

theorem splitOn_lines {ls : List Text} (h : ∀ l ∈ ls, '\n' ∉ l) :
    (ls.flatMap (· ++ ['\n'])).splitOn '\n' = ls ++ [[]] := by
  induction ls with
  | nil => rfl
  | cons l ls ih =>
    obtain ⟨hl, hls⟩ := List.forall_mem_cons.1 h
    rw [List.flatMap_cons, List.append_assoc, List.singleton_append, List.cons_append,
      List.splitOn_append_cons_self_of_not_mem hl, ih hls]

/-- The notes of the lines of some events are the messages and numbers of these events. -/
theorem notes_lines {style : Style} (hclock : clock.Legible) {es : List Event}
    (hpaths : ∀ e ∈ es, ∀ path ∈ e.path?, '\n' ∉ Path.display path)
    (hcounts : style = .json → ∀ e ∈ es, ∀ n ∈ e.count?, n ≤ 0xFFFFFFFFFFFFFFFF) :
    notes style (es.flatMap fun e => e.line clock style) = es.filterMap Event.note? := by
  have hbodies : ∀ l ∈ es.map (Event.body clock style), '\n' ∉ l := by
    intro l hl
    obtain ⟨e, he, rfl⟩ := List.mem_map.1 hl
    exact newline_notMem_body hclock (hpaths e he)
  have hlines : (es.flatMap fun e => e.line clock style) =
      (es.map (Event.body clock style)).flatMap (· ++ ['\n']) := by
    simp only [Event.line_eq, List.flatMap_map]
  rw [notes, hlines, splitOn_lines hbodies, List.filterMap_append, List.filterMap_map,
    List.filterMap_cons, note?_nil, List.filterMap_nil, List.append_nil]
  exact List.filterMap_congr fun e he => note?_body hclock e fun hjson => hcounts hjson e he

end

end RecordSheet.Log
