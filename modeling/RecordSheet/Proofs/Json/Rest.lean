import RecordSheet.Json.Parser
import RecordSheet.Proofs.Text.Digits
import Mathlib.Data.Bool.AllAny
import Mathlib.Data.List.Basic
import Mathlib.Data.List.DropRight

namespace RecordSheet.Json

open Utf8

def chars (t : Text) : Rest :=
  t.map .char

@[simp] theorem chars_nil : chars [] = [] := rfl

@[simp] theorem chars_cons (c : Char) (t : Text) : chars (c :: t) = .char c :: chars t := rfl

@[simp] theorem chars_append (t u : Text) : chars (t ++ u) = chars t ++ chars u :=
  List.map_append

theorem chars_injective : Function.Injective chars :=
  List.map_injective_iff.2 fun _ _ h => Piece.char.inj h

/-- A rest that a number in front of it does not go on with. -/
def Delimits (s : Rest) : Prop :=
  ∀ c, s.head? = some (.char c) → c.isDigit = false ∧ c ≠ '.' ∧ c ≠ 'e' ∧ c ≠ 'E'

theorem delimits_nil : Delimits [] := by
  intro c h
  cases h

theorem delimits_cons {c : Char} {s : Rest} (hd : c.isDigit = false) (hp : c ≠ '.') (he : c ≠ 'e')
    (hE : c ≠ 'E') : Delimits (.char c :: s) := by
  intro d h
  cases h
  exact ⟨hd, hp, he, hE⟩

theorem delimits_of_mem {c : Char} {s : Rest} (h : c ∈ [',', ']', '\x7d']) :
    Delimits (.char c :: s) := by
  have hall : ∀ c ∈ [',', ']', '\x7d'], c.isDigit = false ∧ c ≠ '.' ∧ c ≠ 'e' ∧ c ≠ 'E' :=
    List.all_iff_forall_prop.1 (by decide)
  obtain ⟨hd, hp, he, hE⟩ := hall c h
  exact delimits_cons hd hp he hE

def Space (w : Text) : Prop :=
  ∀ c ∈ w, c ∈ [' ', '\t', '\n', '\r']

theorem isSpace_char_iff {c : Char} : isSpace (.char c) = true ↔ c ∈ [' ', '\t', '\n', '\r'] := by
  simp only [isSpace, Bool.or_eq_true, beq_iff_eq, Piece.char.injEq, List.mem_cons,
    List.not_mem_nil, or_false, or_assoc, or_left_comm]

theorem space_nil : Space [] :=
  fun _ hc => absurd hc List.not_mem_nil

theorem Space.append {v w : Text} (hv : Space v) (hw : Space w) : Space (v ++ w) :=
  List.forall_mem_append.2 ⟨hv, hw⟩

theorem skipSpace_append {w : Text} (hw : Space w) (s : Rest) :
    skipSpace (chars w ++ s) = skipSpace s := by
  induction w with
  | nil => rfl
  | cons c w ih =>
    obtain ⟨hc, hw⟩ := List.forall_mem_cons.1 hw
    rw [chars_cons, List.cons_append, skipSpace, List.dropWhile_cons_of_pos (isSpace_char_iff.2 hc)]
    exact ih hw

theorem exists_space (s : Rest) : ∃ w, Space w ∧ s = chars w ++ skipSpace s := by
  induction s with
  | nil => exact ⟨[], space_nil, rfl⟩
  | cons p s ih =>
    rw [skipSpace]
    by_cases hp : isSpace p = true
    · obtain ⟨w, hw, hs⟩ := ih
      cases p with
      | broken bytes => cases hp
      | char c =>
        refine ⟨c :: w, List.forall_mem_cons.2 ⟨isSpace_char_iff.1 hp, hw⟩, ?_⟩
        rw [List.dropWhile_cons_of_pos hp, chars_cons, List.cons_append]
        exact congrArg (Piece.char c :: ·) hs
    · exact ⟨[], space_nil, by rw [List.dropWhile_cons_of_neg hp]; rfl⟩

variable {s : Rest}

theorem skipSpace_cons {p : Piece} (h : isSpace p = false) : skipSpace (p :: s) = p :: s := by
  rw [skipSpace, List.dropWhile_cons_of_neg (by rw [h]; exact Bool.false_ne_true)]

theorem skipSpace_append_cons {w : Text} (hw : Space w) {p : Piece} (h : isSpace p = false)
    (s : Rest) : skipSpace (chars w ++ p :: s) = p :: s :=
  (skipSpace_append hw _).trans (skipSpace_cons h)

theorem skipSpace_skipSpace (s : Rest) : skipSpace (skipSpace s) = skipSpace s :=
  List.dropWhile_idempotent _ s

theorem isSpace_of_isDigit {c : Char} (h : c.isDigit) : isSpace (.char c) = false := by
  rw [Bool.eq_false_iff, ne_eq, isSpace_char_iff]
  simp only [List.mem_cons, List.not_mem_nil, or_false, not_or]
  exact ⟨ne_of_isDigit h rfl, ne_of_isDigit h rfl, ne_of_isDigit h rfl, ne_of_isDigit h rfl⟩

theorem delimits_space_append {w : Text} (hw : Space w) (hs : Delimits s) :
    Delimits (chars w ++ s) := by
  cases w with
  | nil => exact hs
  | cons c w =>
    have hspace : ∀ c ∈ [' ', '\t', '\n', '\r'],
        c.isDigit = false ∧ c ≠ '.' ∧ c ≠ 'e' ∧ c ≠ 'E' :=
      List.all_iff_forall_prop.1 (by decide)
    obtain ⟨hd, hp, he, hE⟩ := hspace c (List.forall_mem_cons.1 hw).1
    exact delimits_cons hd hp he hE

theorem refuseOrEnd_ne_ok {α : Type} {cause ending : Cause} {a : α} :
    refuseOrEnd cause ending s ≠ .ok a :=
  nofun

theorem readWord_append (value : Json) (word : Text) :
    readWord value word (chars word ++ s) = .ok (value, s) := by
  induction word with
  | nil => rfl
  | cons c word ih => rw [chars_cons, List.cons_append, readWord, if_pos rfl, ih]

theorem readValueWith_digit {lookahead fuel : Nat} {inner : Option (Reader Json)} {c : Char}
    (h : c.isDigit) : readValueWith lookahead fuel inner (.char c :: s) =
      readNumber lookahead false (.char c :: s) := by
  rw [readValueWith, skipSpace_cons (isSpace_of_isDigit h)]
  dsimp only
  split
  · cases h
  · cases h
  · cases h
  · cases h
  · cases h
  · cases h
  · cases h
  · rw [if_pos h]

theorem exists_inner (lookahead fuel room : Nat) :
    ∃ inner, readValue lookahead fuel room = readValueWith lookahead fuel inner := by
  cases room with
  | zero => exact ⟨_, rfl⟩
  | succ room => exact ⟨_, rfl⟩

/-- Whatever a reader reads has been taken off the front of the rest, and is a text. -/
def Takes {α : Type} (reader : Reader α) (p : Text → α → Prop) : Prop :=
  ∀ s a r, reader s = .ok (a, r) → ∃ t, s = chars t ++ r ∧ p t a

end RecordSheet.Json
