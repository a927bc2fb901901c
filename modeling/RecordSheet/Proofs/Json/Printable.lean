import RecordSheet.Proofs.Json.NumberText
import RecordSheet.Proofs.Json.Structure
import Mathlib.Data.Bool.AllAny

namespace RecordSheet

namespace Json

theorem not_control_of_isDigit {c : Char} (h : c.isDigit) : 0x20 ≤ c.toNat := by
  have hbounds := isDigit_bounds h
  omega

theorem not_control_hexDigit : ∀ n < 16, 0x20 ≤ (hexDigit n).toNat := by
  decide

theorem not_control_escapeChar (c : Char) : ∀ d ∈ escapeChar c, 0x20 ≤ d.toNat := by
  refine List.all_iff_forall_prop.1 ?_
  unfold escapeChar
  split
  · decide
  split
  · decide
  split
  · rename_i hc
    simpa using hc
  split
  · decide
  split
  · decide
  split
  · decide
  split
  · decide
  split
  · decide
  · have hhigh := not_control_hexDigit (c.toNat / 16) (by omega)
    have hlow := not_control_hexDigit (c.toNat % 16) (by omega)
    simp [hhigh, hlow]

theorem not_control_quoted (t : Text) : ∀ c ∈ quoted t, 0x20 ≤ c.toNat := by
  intro c hc
  rw [quoted, List.cons_append, List.mem_cons, List.mem_append, List.mem_singleton,
    List.mem_flatMap] at hc
  rcases hc with rfl | ⟨d, -, hd⟩ | rfl
  · decide
  · exact not_control_escapeChar d c hd
  · decide

theorem not_control_number (n : Number) : ∀ c ∈ n.render, 0x20 ≤ c.toNat := by
  intro c hc
  rw [← n.text_literal] at hc
  rcases Literal.mem_text n.wellFormed_literal hc with hd | hc
  · exact not_control_of_isDigit hd
  · have hsigns : ∀ c ∈ ['-', '+', '.', 'e'], 0x20 ≤ c.toNat :=
      List.all_iff_forall_prop.1 (by decide)
    exact hsigns c hc

theorem forall_mem_joinWith {p : Char → Prop} {between : Text} {ts : List Text}
    (hbetween : ∀ c ∈ between, p c) (h : ∀ t ∈ ts, ∀ c ∈ t, p c) :
    ∀ c ∈ joinWith between ts, p c := by
  cases ts with
  | nil =>
    intro c hc
    cases hc
  | cons t ts =>
    intro c hc
    rw [joinWith_cons, List.mem_append, List.mem_flatMap] at hc
    rcases hc with hc | ⟨u, hu, hc⟩
    · exact h t List.mem_cons_self c hc
    · rcases List.mem_append.1 hc with hc | hc
      · exact hbetween c hc
      · exact h u (List.mem_cons_of_mem _ hu) c hc

theorem not_control_comma : ∀ c ∈ [','], 0x20 ≤ c.toNat :=
  List.all_iff_forall_prop.1 (by decide)

theorem not_control_render (j : Json) : ∀ c ∈ render j, 0x20 ≤ c.toNat := by
  induction j with
  | null => exact List.all_iff_forall_prop.1 (by decide)
  | boolean value =>
    cases value
    · exact List.all_iff_forall_prop.1 (by decide)
    · exact List.all_iff_forall_prop.1 (by decide)
  | number value => exact not_control_number value
  | string value => exact not_control_quoted value
  | array items ih =>
    intro c hc
    rw [render_array, List.cons_append, List.mem_cons, List.mem_append, List.mem_singleton] at hc
    rcases hc with rfl | hc | rfl
    · decide
    · refine forall_mem_joinWith not_control_comma ?_ c hc
      intro t ht
      obtain ⟨j, hj, rfl⟩ := List.mem_map.1 ht
      exact ih j hj
    · decide
  | object members ih =>
    intro c hc
    rw [render_object, List.cons_append, List.mem_cons, List.mem_append, List.mem_singleton] at hc
    rcases hc with rfl | hc | rfl
    · decide
    · refine forall_mem_joinWith not_control_comma ?_ c hc
      intro t ht
      obtain ⟨m, hm, rfl⟩ := List.mem_map.1 ht
      intro d hd
      rw [memberText, List.mem_append, List.mem_cons] at hd
      rcases hd with hd | rfl | hd
      · exact not_control_quoted m.1 d hd
      · decide
      · exact ih m hm d hd
    · decide

theorem newline_notMem_render (j : Json) : '\n' ∉ j.render := fun h =>
  absurd (not_control_render j '\n' h) (by decide)

end Json

end RecordSheet
