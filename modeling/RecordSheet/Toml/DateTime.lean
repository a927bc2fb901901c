import RecordSheet.Text.Basic

namespace RecordSheet.Toml.DateTime

inductive Mark where
  | digits (text : Text)
  | dash
  | colon
  | letterT
  | space
  | letterZ
  | plus
  | dot
  | unknown
  deriving DecidableEq, Repr

def marks : (fuel : Nat) → Text → List Mark
  | _, [] => []
  | 0, _ => []
  | fuel + 1, c :: t =>
    if c.isDigit then
      .digits (c :: t.takeWhile Char.isDigit) :: marks fuel (t.dropWhile Char.isDigit)
    else
      match c with
      | '-' => .dash :: marks fuel t
      | ':' => .colon :: marks fuel t
      | 'T' => .letterT :: marks fuel t
      | 't' => .letterT :: marks fuel t
      | ' ' => .space :: marks fuel t
      | 'Z' => .letterZ :: marks fuel t
      | 'z' => .letterZ :: marks fuel t
      | '+' => .plus :: marks fuel t
      | '.' => .dot :: marks fuel t
      | _ => [.unknown]

structure Problem where
  part : Option String
  expected : Option String
  deriving DecidableEq, Repr

def Problem.message (p : Problem) : String :=
  "invalid " ++ p.part.getD "datetime" ++
    match p.expected with
    | none => ""
    | some e => ", expected " ++ e

def wrong {α : Type} (part expected : String) : Except Problem α :=
  .error ⟨some part, some expected⟩

def takeDigits (part expected : String) : List Mark → Except Problem (Text × List Mark)
  | .digits ds :: ms => .ok (ds, ms)
  | _ => wrong part expected

def take (mark : Mark) (part expected : String) : List Mark → Except Problem (List Mark)
  | m :: ms => if m = mark then .ok ms else wrong part expected
  | [] => wrong part expected

def demand (holds : Bool) (part expected : String) : Except Problem Unit :=
  if holds then .ok () else wrong part expected

def isLeap (year : Nat) : Bool :=
  year % 4 == 0 && (year % 100 != 0 || year % 400 == 0)

def monthDays (year month : Nat) : Nat :=
  if month = 2 then (if isLeap year then 29 else 28)
  else if month = 4 ∨ month = 6 ∨ month = 9 ∨ month = 11 then 30
  else 31

def takeDate (year : Text) (ms : List Mark) : Except Problem (List Mark) := do
  let (month, ms) ← takeDigits "date" "month" ms
  let ms ← take .dash "date" "`-` (MM-DD)" ms
  let (day, ms) ← takeDigits "date" "day" ms
  demand (year.length == 4) "date" "a four-digit year (YYYY)"
  demand (month.length == 2) "date" "a two-digit month (MM)"
  demand (day.length == 2) "date" "a two-digit day (DD)"
  let m := digitsValue month
  let d := digitsValue day
  demand (1 ≤ m && m ≤ 12) "date" "month between 01 and 12"
  let days := monthDays (digitsValue year) m
  demand (1 ≤ d && d ≤ days) "date" ("day between 01 and " ++ String.ofList (decimal days))
  .ok ms

def takeSeconds (ms : List Mark) : Except Problem (Option Text × List Mark) :=
  match ms with
  | .colon :: ms => do
    let (second, ms) ← takeDigits "time" "second" ms
    match ms with
    | .dot :: ms => do
      let (_, ms) ← takeDigits "time" "nanosecond" ms
      .ok (some second, ms)
    | ms => .ok (some second, ms)
  | ms => .ok (none, ms)

def takeTime (ms : List Mark) : Except Problem (List Mark) := do
  let (hour, ms) ← takeDigits "time" "hour" ms
  let ms ← take .colon "time" "`:` (HH:MM)" ms
  let (minute, ms) ← takeDigits "time" "minute" ms
  let (second, ms) ← takeSeconds ms
  demand (hour.length == 2) "time" "a two-digit hour (HH)"
  demand (minute.length == 2) "time" "a two-digit minute (MM)"
  demand (second.all fun s => s.length == 2) "time" "a two-digit second (SS)"
  demand (digitsValue hour ≤ 23) "time" "hour between 00 and 23"
  demand (digitsValue minute ≤ 59) "time" "minute between 00 and 59"
  demand (second.all fun s => digitsValue s ≤ 60) "time" "second between 00 and 60"
  .ok ms

def takeDistance (ms : List Mark) : Except Problem (List Mark) := do
  let (hours, ms) ← takeDigits "offset" "hour" ms
  let ms ← take .colon "offset" "`:` (HH:MM)" ms
  let (minutes, ms) ← takeDigits "offset" "minute" ms
  demand (hours.length == 2) "offset" "a two-digit hour (HH)"
  demand (minutes.length == 2) "offset" "a two-digit minute (MM)"
  demand (digitsValue hours ≤ 23) "offset" "hours between 00 and 23"
  demand (digitsValue minutes ≤ 59) "offset" "minutes between 00 and 59"
  .ok ms

def takeOffset : List Mark → Except Problem (List Mark)
  | [] => .ok []
  | .letterZ :: ms => .ok ms
  | .plus :: ms => takeDistance ms
  | .dash :: ms => takeDistance ms
  | _ => wrong "offset" "`Z`, +OFFSET, -OFFSET"

def takeEnd (ms : List Mark) : Except Problem Unit :=
  if ms.isEmpty then .ok () else .error ⟨none, none⟩

def check (t : Text) : Except Problem Unit :=
  match marks t.length t with
  | .digits year :: .dash :: ms => do
    let ms ← takeDate year ms
    match ms with
    | [] => .ok ()
    | m :: ms =>
      if m = .letterT ∨ m = .space then do
        let ms ← takeTime ms
        let ms ← takeOffset ms
        takeEnd ms
      else wrong "date-time" "`T` between date and time"
  | .digits hour :: .colon :: ms => do
    let ms ← takeTime (.digits hour :: .colon :: ms)
    takeEnd ms
  | .digits _ :: _ => .error ⟨none, some "`-` (YYYY-MM) or `:` (HH:MM)"⟩
  | _ => .error ⟨none, some "year or hour"⟩

end RecordSheet.Toml.DateTime
