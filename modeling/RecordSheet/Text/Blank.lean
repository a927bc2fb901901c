import RecordSheet.Text.Basic

namespace RecordSheet

/-- The code points with the property White_Space, as ranges. -/
def blankRanges : List (Nat × Nat) :=
  [(0x09, 0x0D), (0x20, 0x20), (0x85, 0x85), (0xA0, 0xA0), (0x1680, 0x1680), (0x2000, 0x200A),
    (0x2028, 0x2029), (0x202F, 0x202F), (0x205F, 0x205F), (0x3000, 0x3000)]

def isBlank (c : Char) : Bool :=
  blankRanges.any fun range => range.1 ≤ c.toNat && c.toNat ≤ range.2

def trim (t : Text) : Text :=
  ((t.dropWhile isBlank).reverse.dropWhile isBlank).reverse

theorem dropWhile_isBlank_eq_nil_iff (t : Text) :
    t.dropWhile isBlank = [] ↔ ∀ c ∈ t, isBlank c := by
  induction t with
  | nil => simp
  | cons c t ih => by_cases h : isBlank c <;> simp [h, ih]

theorem forall_mem_dropWhile_isBlank_iff (t : Text) :
    (∀ c ∈ t.dropWhile isBlank, isBlank c) ↔ ∀ c ∈ t, isBlank c := by
  induction t with
  | nil => simp
  | cons c t ih => by_cases h : isBlank c <;> simp [h, ih]

theorem trim_eq_nil_iff (t : Text) : trim t = [] ↔ ∀ c ∈ t, isBlank c := by
  simp only [trim, List.reverse_eq_nil_iff, dropWhile_isBlank_eq_nil_iff, List.mem_reverse,
    forall_mem_dropWhile_isBlank_iff]

end RecordSheet
