import RecordSheet.Sheet.Quotes
import Mathlib.Data.List.Basic

namespace RecordSheet

def separator : Text :=
  ['"', ',', '"']

/-- Every run of quotes in a text, as long as it gets, is of even length. -/
def EvenRuns (t : Text) : Prop :=
  ∀ a n b, t = a ++ List.replicate n '"' ++ b → a.getLast? ≠ some '"' → b.head? ≠ some '"' →
    n % 2 = 0

theorem evenRuns_nil : EvenRuns [] := by
  intro a n b h _ _
  have hn := (List.append_eq_nil_iff.1 (List.append_eq_nil_iff.1 h.symm).1).2
  rw [List.replicate_eq_nil_iff] at hn
  rw [hn]

theorem EvenRuns.cons {c : Char} {t : Text} (hc : c ≠ '"') (ht : EvenRuns t) :
    EvenRuns (c :: t) := by
  intro a n b h ha hb
  cases a with
  | nil =>
    cases n with
    | zero => rfl
    | succ n => exact absurd (List.cons.inj h).1 hc
  | cons d a =>
    refine ht a n b (List.cons.inj h).2 ?_ hb
    cases a with
    | nil => exact (Option.some_ne_none _).symm
    | cons e a => exact ha

theorem EvenRuns.cons_cons {t : Text} (ht : EvenRuns t) : EvenRuns ('"' :: '"' :: t) := by
  intro a n b h ha hb
  cases a with
  | nil =>
    match n, h with
    | 0, _ => rfl
    | 1, h =>
      have hb' : '"' :: t = b := (List.cons.inj h).2
      rw [← hb'] at hb
      exact absurd rfl hb
    | n + 2, h =>
      rw [Nat.add_mod_right]
      exact ht [] n b (List.cons.inj (List.cons.inj h).2).2 ha hb
  | cons d a =>
    cases a with
    | nil =>
      rw [← (List.cons.inj h).1] at ha
      exact absurd rfl ha
    | cons e a =>
      cases a with
      | nil =>
        rw [← (List.cons.inj (List.cons.inj h).2).1] at ha
        exact absurd rfl ha
      | cons f a => exact ht (f :: a) n b (List.cons.inj (List.cons.inj h).2).2 ha hb

theorem evenRuns_doubleQuotes (t : Text) : EvenRuns (doubleQuotes t) := by
  induction t with
  | nil => exact evenRuns_nil
  | cons c t ih =>
    by_cases hc : c = '"'
    · rw [hc, doubleQuotes_quote]
      exact ih.cons_cons
    · rw [doubleQuotes_cons hc]
      exact ih.cons hc

theorem EvenRuns.of_cons {c : Char} {t : Text} (hc : c ≠ '"') (h : EvenRuns (c :: t)) :
    EvenRuns t := by
  intro a n b ht ha hb
  refine h (c :: a) n b (congrArg (c :: ·) ht) ?_ hb
  cases a with
  | nil => exact fun hlast => hc (Option.some.inj hlast)
  | cons d a => exact ha

theorem EvenRuns.of_cons_cons {t : Text} (h : EvenRuns ('"' :: '"' :: t)) : EvenRuns t := by
  intro a n b ht ha hb
  cases a with
  | nil =>
    -- the two quotes make the run at the front of the text longer by two
    have hlonger := h [] (n + 2) b (congrArg ('"' :: '"' :: ·) ht) nofun hb
    rwa [Nat.add_mod_right] at hlonger
  | cons c a => exact h ('"' :: '"' :: c :: a) n b (congrArg ('"' :: '"' :: ·) ht) ha hb

theorem EvenRuns.head_of_cons {t : Text} (h : EvenRuns ('"' :: t)) : t.head? = some '"' := by
  by_contra hhead
  exact absurd (h [] 1 t rfl nofun hhead) (by decide)

theorem doubleQuotes_undoubleQuotes {t : Text} (h : EvenRuns t) :
    doubleQuotes (undoubleQuotes t) = t := by
  induction t using undoubleQuotes.induct with
  | case1 t ih => rw [undoubleQuotes, doubleQuotes_quote, ih h.of_cons_cons]
  | case2 c t hpair ih =>
    have hc : c ≠ '"' := by
      rintro rfl
      obtain ⟨u, rfl⟩ := List.head?_eq_some_iff.1 h.head_of_cons
      exact hpair u rfl rfl
    rw [undoubleQuotes_cons hc, doubleQuotes_cons hc, ih (h.of_cons hc)]
  | case3 => rfl

theorem evenRuns_iff {t : Text} : EvenRuns t ↔ doubleQuotes (undoubleQuotes t) = t := by
  constructor
  · exact doubleQuotes_undoubleQuotes
  · intro h
    rw [← h]
    exact evenRuns_doubleQuotes _

theorem doubleQuotes_injective : Function.Injective doubleQuotes :=
  Function.LeftInverse.injective undoubleQuotes_doubleQuotes

theorem doubleQuotes_of_notMem {t : Text} (h : '"' ∉ t) : doubleQuotes t = t := by
  induction t with
  | nil => rfl
  | cons c t ih =>
    rw [List.mem_cons, not_or] at h
    rw [doubleQuotes_cons (Ne.symm h.1), ih h.2]

/-- Once a quote has been doubled, the quotes never come to stand even with those of the text. -/
theorem quotes_append_ne (k : Nat) (t v w : Text) :
    List.replicate (k + 1) '"' ++ (doubleQuotes t ++ '"' :: v) ≠ t ++ '"' :: ',' :: w := by
  induction t generalizing k with
  | nil =>
    intro h
    cases k with
    | zero => exact absurd (List.cons.inj (List.cons.inj h).2).1 (by decide)
    | succ k => exact absurd (List.cons.inj (List.cons.inj h).2).1 (by decide)
  | cons c t ih =>
    intro h
    by_cases hc : c = '"'
    · subst c
      have htail : List.replicate k '"' ++ (doubleQuotes ('"' :: t) ++ '"' :: v) =
          t ++ '"' :: ',' :: w :=
        (List.cons.inj h).2
      apply ih (k + 1)
      rw [← htail, doubleQuotes_quote, List.replicate_succ', List.replicate_succ']
      simp
    · exact hc (List.cons.inj h).1.symm

/-- A text in front of a quote and a comma reads as itself only if it has no quotes. -/
theorem notMem_of_doubleQuotes_append {t v w : Text}
    (h : doubleQuotes t ++ '"' :: v = t ++ '"' :: ',' :: w) : '"' ∉ t := by
  induction t with
  | nil => exact List.not_mem_nil
  | cons c t ih =>
    by_cases hc : c = '"'
    · subst c
      rw [doubleQuotes_quote] at h
      exact absurd (List.cons.inj h).2 (quotes_append_ne 0 t v w)
    · rw [doubleQuotes_cons hc] at h
      rw [List.mem_cons, not_or]
      exact ⟨Ne.symm hc, ih (List.cons.inj h).2⟩

variable {a p p' d d' : Text}

theorem eq_nil_of_separator_append (hd : EvenRuns d) (hhead : d.head? = some '\x7b')
    (hhead' : d'.head? = some '\x7b') (h : separator ++ d = a ++ (separator ++ d')) : a = [] := by
  match a, h with
  | [], _ => rfl
  | [_], h => exact absurd (List.cons.inj (List.cons.inj h).2).1 (by decide)
  | [_, _], h =>
    have hcomma : d = ',' :: '"' :: d' := (List.cons.inj (List.cons.inj (List.cons.inj h).2).2).2
    rw [hcomma] at hhead
    exact absurd (Option.some.inj hhead) (by decide)
  | _ :: _ :: _ :: a, h =>
    -- the last quote of the separator would be a run of its own within the field
    have hfield : d = a ++ ['"', ','] ++ List.replicate 1 '"' ++ d' := by
      have htail : d = a ++ (separator ++ d') :=
        (List.cons.inj (List.cons.inj (List.cons.inj h).2).2).2
      rw [htail]
      simp [separator]
    have hodd := hd _ _ _ hfield (by simp) (by rw [hhead']; decide)
    exact absurd hodd (by decide)

/-- From its end a line can be read in one way only. -/
theorem append_separator_inj (hd : EvenRuns d) (hd' : EvenRuns d') (hhead : d.head? = some '\x7b')
    (hhead' : d'.head? = some '\x7b') (h : p ++ (separator ++ d) = p' ++ (separator ++ d')) :
    p = p' ∧ d = d' := by
  rcases List.append_eq_append_iff.1 h with ⟨a, rfl, ha⟩ | ⟨a, rfl, ha⟩
  · have hnil := eq_nil_of_separator_append hd hhead hhead' ha
    subst hnil
    exact ⟨(List.append_nil p).symm, List.append_cancel_left ha⟩
  · have hnil := eq_nil_of_separator_append hd' hhead' hhead ha
    subst hnil
    exact ⟨List.append_nil p', (List.append_cancel_left ha).symm⟩

end RecordSheet
