import RecordSheet.Proofs.Json.Latest
import RecordSheet.Proofs.Json.Numeral

namespace RecordSheet.Json

/-- What is written for a character, or for half of one: the character, or a number of 16 bits. -/
inductive StringUnit where
  | char (c : Char)
  | word (n : Nat)
  deriving DecidableEq, Repr

inductive Form where
  | null
  | boolean (value : Bool)
  | number (literal : Literal)
  | string (units : List StringUnit)
  | array (items : List Form)
  | object (members : List (List StringUnit × Form))

def shortEscapes : List (Char × Char) :=
  [('"', '"'), ('\\', '\\'), ('/', '/'), ('b', '\x08'), ('f', '\x0c'), ('n', '\n'), ('r', '\r'),
    ('t', '\t')]

def IsHexDigit (c : Char) (n : Nat) : Prop :=
  n < 16 ∧ (c = hexDigit n ∨ c = (hexDigit n).toUpper)

inductive UnitText : Text → StringUnit → Prop
  | plain {c : Char} : c ≠ '"' → c ≠ '\\' → 0x20 ≤ c.toNat → UnitText [c] (.char c)
  | short {e c : Char} : (e, c) ∈ shortEscapes → UnitText ['\\', e] (.char c)
  | long {a b c d : Char} {i j k l : Nat} :
      IsHexDigit a i → IsHexDigit b j → IsHexDigit c k → IsHexDigit d l →
      UnitText ['\\', 'u', a, b, c, d] (.word (((i * 16 + j) * 16 + k) * 16 + l))

inductive UnitsText : Text → List StringUnit → Prop
  | nil : UnitsText [] []
  | cons {t ts : Text} {u : StringUnit} {us : List StringUnit} :
      UnitText t u → UnitsText ts us → UnitsText (t ++ ts) (u :: us)

inductive StringText : Text → List StringUnit → Prop
  | mk {t : Text} {us : List StringUnit} : UnitsText t us → StringText ('"' :: t ++ ['"']) us

section

variable {α : Type}

inductive PaddedText (part : Text → α → Prop) : Text → α → Prop
  | mk {v t w : Text} {a : α} : Space v → part t a → Space w → PaddedText part (v ++ t ++ w) a

inductive SequenceText (part : Text → α → Prop) : Text → List α → Prop
  | one {t : Text} {a : α} : part t a → SequenceText part t [a]
  | more {t ts : Text} {a : α} {as : List α} :
      part t a → SequenceText part ts as → SequenceText part (t ++ ',' :: ts) (a :: as)

inductive BracketedText (left right : Char) (part : Text → α → Prop) : Text → List α → Prop
  | empty {w : Text} : Space w → BracketedText left right part (left :: w ++ [right]) []
  | parts {t : Text} {as : List α} : SequenceText part t as →
      BracketedText left right part (left :: t ++ [right]) as

end

inductive MemberText (value : Text → Form → Prop) : Text → List StringUnit × Form → Prop
  | mk {key t : Text} {us : List StringUnit} {f : Form} : PaddedText StringText key us →
      PaddedText value t f → MemberText value (key ++ ':' :: t) (us, f)

inductive ValueText : Text → Form → Prop
  | null : ValueText "null".toList .null
  | true : ValueText "true".toList (.boolean true)
  | false : ValueText "false".toList (.boolean false)
  | number {t : Text} {l : Literal} : Literal.NumberText t l → ValueText t (.number l)
  | string {t : Text} {us : List StringUnit} : StringText t us → ValueText t (.string us)
  | array {t : Text} {items : List Form} :
      BracketedText '[' ']' (PaddedText ValueText) t items → ValueText t (.array items)
  | object {t : Text} {members : List (List StringUnit × Form)} :
      BracketedText '\x7b' '\x7d' (MemberText ValueText) t members → ValueText t (.object members)

/-- A JSON text: one value, with space around it. -/
def JsonText : Text → Form → Prop :=
  PaddedText ValueText

namespace Form

mutual

def depth : Form → Nat
  | .array items => depthItems items + 1
  | .object members => depthMembers members + 1
  | _ => 0

def depthItems : List Form → Nat
  | [] => 0
  | item :: items => max (depth item) (depthItems items)

def depthMembers : List (List StringUnit × Form) → Nat
  | [] => 0
  | (_, value) :: members => max (depth value) (depthMembers members)

end

end Form

def isHighSurrogate (n : Nat) : Bool :=
  0xD800 ≤ n && n < 0xDC00

def isLowSurrogate (n : Nat) : Bool :=
  0xDC00 ≤ n && n < 0xE000

def surrogatePair (high low : Nat) : Char :=
  Char.ofNat (0x10000 + (high - 0xD800) * 0x400 + (low - 0xDC00))

/-- The text that units stand for, unless a surrogate stands alone. -/
def decode? : List StringUnit → Option Text
  | [] => some []
  | .char c :: us => (decode? us).map (c :: ·)
  | .word n :: us =>
    if isHighSurrogate n then
      match us with
      | .word m :: us =>
        if isLowSurrogate m then (decode? us).map (surrogatePair n m :: ·) else none
      | _ => none
    else if isLowSurrogate n then none
    else (decode? us).map (Char.ofNat n :: ·)

end Json

namespace Literal

def whole? (l : Literal) : Option Int :=
  if l.fraction.isSome || l.exponent.isSome then none
  else some (if l.negative then -digitsValue l.whole else digitsValue l.whole)

/-- The whole number that is written, if 64 bits hold it; `-0` is none. -/
def fitting? (l : Literal) : Option Integer64 :=
  l.whole?.bind fun z =>
    if h : (-0x8000000000000000 ≤ z ∧ z < 0x10000000000000000) ∧ ¬(l.negative ∧ z = 0) then
      some ⟨z, h.1⟩
    else none

def rounded? (l : Literal) : Option Binary64 :=
  Binary64.ofMagnitude? l.negative (magnitude l.scaled.1 l.scaled.2)

def value? (l : Literal) : Option Number :=
  (l.fitting?.map .integer).or (l.rounded?.map .float)

theorem fitting?_eq_integer? (l : Literal) : l.fitting? = l.integer? := by
  obtain ⟨negative, whole, fraction, exponent⟩ := l
  rw [fitting?, whole?, integer?]
  dsimp only
  by_cases h : (fraction.isSome || exponent.isSome) = true
  · rw [if_pos h, if_pos h, Option.bind_none]
  · rw [if_neg h, if_neg h, Option.bind_some]
    cases negative with
    | true =>
      simp only [↓reduceIte, true_and]
      split
      · rw [dif_pos (by omega)]
      · rw [dif_neg (by omega)]
    | false =>
      simp only [Bool.false_eq_true, ↓reduceIte, false_and, not_false_eq_true, and_true]
      split
      · rw [dif_pos (by omega)]
      · rw [dif_neg (by omega)]

theorem value?_eq_number? (l : Literal) : l.value? = l.number? := by
  rw [value?, fitting?_eq_integer?, number?]
  cases l.integer? with
  | some z => rfl
  | none => rfl

end Literal

namespace Json.Form

mutual

/-- The value that a form stands for, if each string and each number in it stands for one. -/
def value? : Form → Option Json
  | .null => some .null
  | .boolean value => some (.boolean value)
  | .number l => l.value?.map .number
  | .string us => (decode? us).map .string
  | .array items => (values? items).map .array
  | .object members => (pairs? members).map fun pairs => .object (latest pairs)

def values? : List Form → Option (List Json)
  | [] => some []
  | item :: items => (value? item).bind fun j => (values? items).map (j :: ·)

def pairs? : List (List StringUnit × Form) → Option (List (Text × Json))
  | [] => some []
  | (key, value) :: members =>
    (decode? key).bind fun t => (value? value).bind fun j => (pairs? members).map ((t, j) :: ·)

end

@[elab_as_elim, induction_eliminator]
theorem induction {motive : Form → Prop} (null : motive .null)
    (boolean : ∀ value, motive (.boolean value)) (number : ∀ literal, motive (.number literal))
    (string : ∀ units, motive (.string units))
    (array : ∀ items, (∀ f ∈ items, motive f) → motive (.array items))
    (object : ∀ members, (∀ m ∈ members, motive m.2) → motive (.object members)) (f : Form) :
    motive f :=
  @Form.rec motive (fun items => ∀ f ∈ items, motive f) (fun members => ∀ m ∈ members, motive m.2)
    (fun m => motive m.2) null boolean number string array object
    (fun _ h => absurd h List.not_mem_nil) (fun _ _ hf hfs => List.forall_mem_cons.2 ⟨hf, hfs⟩)
    (fun _ h => absurd h List.not_mem_nil) (fun _ _ hm hms => List.forall_mem_cons.2 ⟨hm, hms⟩)
    (fun _ _ hv => hv) f

variable {room : Nat} {items : List Form} {members : List (List StringUnit × Form)} {j : Json}

theorem depthItems_le : depthItems items ≤ room ↔ ∀ f ∈ items, depth f ≤ room := by
  induction items with
  | nil => simp [depthItems]
  | cons f items ih => rw [depthItems, Nat.max_le, ih, List.forall_mem_cons]

theorem depthMembers_le : depthMembers members ≤ room ↔ ∀ m ∈ members, depth m.2 ≤ room := by
  induction members with
  | nil => simp [depthMembers]
  | cons m members ih =>
    obtain ⟨key, value⟩ := m
    rw [depthMembers, Nat.max_le, ih, List.forall_mem_cons]

/-- A form stands for a value, and not too many arrays and objects are nested in it. -/
def Denotes (room : Nat) (f : Form) (j : Json) : Prop :=
  depth f ≤ room ∧ value? f = some j

def DenotesMember (room : Nat) (m : List StringUnit × Form) (pair : Text × Json) : Prop :=
  decode? m.1 = some pair.1 ∧ Denotes room m.2 pair.2

theorem forall₂_denotes_iff {js : List Json} : List.Forall₂ (Denotes room) items js ↔
    depthItems items ≤ room ∧ values? items = some js := by
  induction items generalizing js with
  | nil => simp [depthItems, values?, eq_comm]
  | cons f items ih =>
    simp only [List.forall₂_cons_left_iff, ih, depthItems, values?, Nat.max_le,
      Option.bind_eq_some_iff, Option.map_eq_some_iff, Denotes]
    constructor
    · rintro ⟨j, js, ⟨hdepth, hj⟩, ⟨hdepths, hjs⟩, rfl⟩
      exact ⟨⟨hdepth, hdepths⟩, j, hj, js, hjs, rfl⟩
    · rintro ⟨⟨hdepth, hdepths⟩, j, hj, js, hjs, rfl⟩
      exact ⟨j, js, ⟨hdepth, hj⟩, ⟨hdepths, hjs⟩, rfl⟩

theorem forall₂_denotesMember_iff {pairs : List (Text × Json)} :
    List.Forall₂ (DenotesMember room) members pairs ↔
      depthMembers members ≤ room ∧ pairs? members = some pairs := by
  induction members generalizing pairs with
  | nil => simp [depthMembers, pairs?, eq_comm]
  | cons m members ih =>
    obtain ⟨key, f⟩ := m
    simp only [List.forall₂_cons_left_iff, ih, depthMembers, pairs?, Nat.max_le,
      Option.bind_eq_some_iff, Option.map_eq_some_iff, DenotesMember, Denotes]
    constructor
    · rintro ⟨⟨t, j⟩, pairs, ⟨ht, hdepth, hj⟩, ⟨hdepths, hpairs⟩, rfl⟩
      exact ⟨⟨hdepth, hdepths⟩, t, ht, j, hj, pairs, hpairs, rfl⟩
    · rintro ⟨⟨hdepth, hdepths⟩, t, ht, j, hj, pairs, hpairs, rfl⟩
      exact ⟨(t, j), pairs, ⟨ht, hdepth, hj⟩, ⟨hdepths, hpairs⟩, rfl⟩

theorem denotes_array_iff : Denotes (room + 1) (.array items) j ↔
    ∃ js, List.Forall₂ (Denotes room) items js ∧ .array js = j := by
  simp only [Denotes, depth, value?, forall₂_denotes_iff, Nat.add_le_add_iff_right,
    Option.map_eq_some_iff, and_assoc, exists_and_left]

theorem denotes_object_iff : Denotes (room + 1) (.object members) j ↔
    ∃ pairs, List.Forall₂ (DenotesMember room) members pairs ∧ .object (latest pairs) = j := by
  simp only [Denotes, depth, value?, forall₂_denotesMember_iff, Nat.add_le_add_iff_right,
    Option.map_eq_some_iff, and_assoc, exists_and_left]

end Json.Form

end RecordSheet
