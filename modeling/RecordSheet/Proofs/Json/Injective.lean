import RecordSheet.Proofs.Json.Delimited

namespace RecordSheet.Json

inductive Shape where
  | null
  | boolean
  | number
  | string
  | array
  | object

def shape : Json → Shape
  | .null => .null
  | .boolean _ => .boolean
  | .number _ => .number
  | .string _ => .string
  | .array _ => .array
  | .object _ => .object

def leadShape? (c : Char) : Option Shape :=
  if c = 'n' then some .null
  else if c = 't' ∨ c = 'f' then some .boolean
  else if c = '"' then some .string
  else if c = '[' then some .array
  else if c = '\x7b' then some .object
  else if c = '-' ∨ c.isDigit then some .number
  else none

theorem leadShape?_digit {c : Char} (h : c.isDigit) : leadShape? c = some .number := by
  rw [leadShape?, if_neg (ne_of_isDigit h rfl),
    if_neg (not_or.2 ⟨ne_of_isDigit h rfl, ne_of_isDigit h rfl⟩), if_neg (ne_of_isDigit h rfl),
    if_neg (ne_of_isDigit h rfl), if_neg (ne_of_isDigit h rfl), if_pos (.inr h)]

theorem render_head (j : Json) : ∃ c t, render j = c :: t ∧ leadShape? c = some j.shape := by
  cases j with
  | null => exact ⟨_, _, rfl, rfl⟩
  | boolean value =>
    cases value
    · exact ⟨_, _, rfl, rfl⟩
    · exact ⟨_, _, rfl, rfl⟩
  | number value =>
    obtain ⟨c, t, hc, hd⟩ := Literal.head_unsigned value.wellFormed_literal
    rw [render, ← value.text_literal, Literal.text, hc]
    split
    · exact ⟨_, _, rfl, rfl⟩
    · exact ⟨_, _, rfl, leadShape?_digit hd⟩
  | string value => exact ⟨_, _, rfl, rfl⟩
  | array items => exact ⟨_, _, rfl, rfl⟩
  | object members => exact ⟨_, _, rfl, rfl⟩

theorem render_ne_nil (j : Json) : render j ≠ [] := by
  obtain ⟨c, t, h, -⟩ := render_head j
  rw [h]
  exact List.cons_ne_nil c t

theorem shape_eq_of_render_eq {a b : Json} (h : render a = render b) : a.shape = b.shape := by
  obtain ⟨c, t, ha, hc⟩ := render_head a
  obtain ⟨d, u, hb, hd⟩ := render_head b
  rw [ha, hb] at h
  rw [(List.cons.inj h).1, hd] at hc
  exact (Option.some.inj hc).symm

theorem forall_mem_map_render (items : List Json) :
    ∀ t ∈ items.map render, Skimmed t ∧ t ≠ [] := by
  intro t ht
  obtain ⟨j, -, rfl⟩ := List.mem_map.1 ht
  exact ⟨skimmed_render j, render_ne_nil j⟩

theorem forall_mem_map_memberText (members : List (Text × Json)) :
    ∀ t ∈ members.map memberText, Skimmed t ∧ t ≠ [] := by
  intro t ht
  obtain ⟨m, -, rfl⟩ := List.mem_map.1 ht
  exact ⟨skimmed_memberText (skimmed_render m.2), List.cons_ne_nil _ _⟩

theorem memberText_inj {m : Text × Json} (hm : ∀ b, render m.2 = render b → m.2 = b)
    (n : Text × Json) (h : memberText m = memberText n) : m = n := by
  obtain ⟨hkey, hvalue⟩ := quoted_append_inj h
  exact Prod.ext hkey (hm n.2 (List.cons.inj hvalue).2)

theorem map_inj_of_mem {α : Type} {f : α → Text} {xs ys : List α}
    (hf : ∀ x ∈ xs, ∀ y, f x = f y → x = y) (h : xs.map f = ys.map f) : xs = ys := by
  induction xs generalizing ys with
  | nil => exact (List.map_eq_nil_iff.1 h.symm).symm
  | cons x xs ih =>
    cases ys with
    | nil => cases h
    | cons y ys =>
      obtain ⟨hx, hxs⟩ := List.cons.inj h
      rw [hf x List.mem_cons_self y hx, ih (fun x hx => hf x (List.mem_cons_of_mem _ hx)) hxs]

/-- Values that are written alike are alike. -/
theorem render_inj {a b : Json} (h : render a = render b) : a = b := by
  have hshape := shape_eq_of_render_eq h
  induction a generalizing b with
  | null =>
    cases b with
    | null => rfl
    | _ => cases hshape
  | boolean value =>
    cases b with
    | boolean value' =>
      cases value
      · cases value'
        · rfl
        · exact absurd h (by decide)
      · cases value'
        · exact absurd h (by decide)
        · rfl
    | _ => cases hshape
  | number value =>
    cases b with
    | number value' => rw [Number.render_injective h]
    | _ => cases hshape
  | string value =>
    cases b with
    | string value' =>
      have happend : quoted value ++ [] = quoted value' ++ [] := by
        rw [List.append_nil, List.append_nil]
        exact h
      rw [(quoted_append_inj happend).1]
    | _ => cases hshape
  | array items ih =>
    cases b with
    | array items' =>
      have htexts : items.map render = items'.map render := by
        apply joinWith_comma_inj (forall_mem_map_render items) (forall_mem_map_render items')
        rw [render_array, render_array] at h
        exact List.append_cancel_right (List.cons.inj h).2
      rw [map_inj_of_mem (fun j hj _ h => ih j hj h (shape_eq_of_render_eq h)) htexts]
    | _ => cases hshape
  | object members ih =>
    cases b with
    | object members' =>
      have htexts : members.map memberText = members'.map memberText := by
        apply joinWith_comma_inj (forall_mem_map_memberText members)
          (forall_mem_map_memberText members')
        rw [render_object, render_object] at h
        exact List.append_cancel_right (List.cons.inj h).2
      rw [map_inj_of_mem (fun m hm => memberText_inj fun _ h =>
        ih m hm h (shape_eq_of_render_eq h)) htexts]
    | _ => cases hshape

end RecordSheet.Json
