import RecordSheet.Log.Line

namespace RecordSheet.Log

def padded (width n : Nat) : Text :=
  let ds := decimal n
  List.replicate (width - ds.length) '0' ++ ds

def dateOfDay (day : Nat) : Nat × Nat × Nat :=
  let shifted := day + 719468
  let era := shifted / 146097
  let inEra := shifted % 146097
  let year := (inEra - inEra / 1460 + inEra / 36524 - inEra / 146096) / 365
  let inYear := inEra - (365 * year + year / 4 - year / 100)
  let march := (5 * inYear + 2) / 153
  let month := if march < 10 then march + 3 else march - 9
  let dayOfMonth := inYear - (153 * march + 2) / 5 + 1
  (year + era * 400 + (if month ≤ 2 then 1 else 0), month, dayOfMonth)

def renderTime (nanoseconds : Nat) : Text :=
  let seconds := nanoseconds / 1000000000
  let (year, month, day) := dateOfDay (seconds / 86400)
  let ofDay := seconds % 86400
  padded 4 year ++ '-' :: padded 2 month ++ '-' :: padded 2 day ++ 'T' ::
    padded 2 (ofDay / 3600) ++ ':' :: padded 2 (ofDay / 60 % 60) ++ ':' :: padded 2 (ofDay % 60) ++
    '.' :: padded 6 (nanoseconds / 1000 % 1000000) ++ ['Z']

/-- A number of units with its fraction, without zeros at its end. -/
def withFraction (nanoseconds places : Nat) : Text :=
  let fraction := padded places (nanoseconds % Nat.pow 10 places)
  let kept := (fraction.reverse.dropWhile (· == '0')).reverse
  decimal (nanoseconds / Nat.pow 10 places) ++ if kept.isEmpty || places = 0 then [] else '.' :: kept

def renderElapsed (nanoseconds : Nat) : Text :=
  if 1000000000 ≤ nanoseconds then withFraction nanoseconds 9 ++ ['s']
  else if 1000000 ≤ nanoseconds then withFraction nanoseconds 6 ++ "ms".toList
  else if 1000 ≤ nanoseconds then withFraction nanoseconds 3 ++ "µs".toList
  else withFraction nanoseconds 0 ++ "ns".toList

end RecordSheet.Log
