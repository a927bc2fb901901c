import RecordSheet.Text.Basic

namespace RecordSheet

def doubleQuotes (t : Text) : Text :=
  t.flatMap fun c => if c = '"' then ['"', '"'] else [c]

/-- A text with each two double quotes in a row read as one, from left to right. -/
def undoubleQuotes : Text → Text
  | '"' :: '"' :: t => '"' :: undoubleQuotes t
  | c :: t => c :: undoubleQuotes t
  | [] => []

@[simp] theorem doubleQuotes_nil : doubleQuotes [] = [] := rfl

@[simp] theorem doubleQuotes_quote (t : Text) :
    doubleQuotes ('"' :: t) = '"' :: '"' :: doubleQuotes t := by
  simp [doubleQuotes]

theorem doubleQuotes_cons {c : Char} (h : c ≠ '"') (t : Text) :
    doubleQuotes (c :: t) = c :: doubleQuotes t := by
  simp [doubleQuotes, h]

theorem undoubleQuotes_cons {c : Char} (h : c ≠ '"') (t : Text) :
    undoubleQuotes (c :: t) = c :: undoubleQuotes t := by
  rw [undoubleQuotes]
  intro u hc
  exact absurd (by simpa using hc) (by simp [h])

theorem undoubleQuotes_doubleQuotes (t : Text) : undoubleQuotes (doubleQuotes t) = t := by
  induction t with
  | nil => rfl
  | cons c t ih =>
    by_cases h : c = '"'
    · subst h
      simp [undoubleQuotes, ih]
    · rw [doubleQuotes_cons h, undoubleQuotes_cons h, ih]

end RecordSheet
