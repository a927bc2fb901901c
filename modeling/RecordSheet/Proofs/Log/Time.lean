import RecordSheet.Log.Time
import RecordSheet.Proofs.Text.Digits

namespace RecordSheet.Log

/-- A clock that does not break up the lines of a log. -/
structure Clock.Legible (clock : Clock) : Prop where
  now : ' ' ∉ clock.now .compact ∧ '\n' ∉ clock.now .compact
  elapsed : '\n' ∉ clock.elapsed

section

variable {c : Char} {n : Nat}

theorem isDigit_of_mem_padded {width : Nat} (h : c ∈ padded width n) : c.isDigit := by
  rw [padded] at h
  rcases List.mem_append.1 h with h | h
  · rw [List.eq_of_mem_replicate h]
    rfl
  · exact isDigit_of_mem_decimal h

theorem mem_renderTime (h : c ∈ renderTime n) : c.isDigit ∨ c ∈ ['-', 'T', ':', '.', 'Z'] := by
  have hpadded : ∀ width n, c ∈ padded width n → c.isDigit := fun _ _ => isDigit_of_mem_padded
  simp only [renderTime, List.mem_append, List.mem_cons, List.not_mem_nil, or_false] at h ⊢
  grind

theorem mem_withFraction {places : Nat} (h : c ∈ withFraction n places) :
    c.isDigit ∨ c = '.' := by
  rw [withFraction] at h
  rcases List.mem_append.1 h with h | h
  · exact .inl (isDigit_of_mem_decimal h)
  · split at h
    · cases h
    · rcases List.mem_cons.1 h with h | h
      · exact .inr h
      · have hkept := (List.dropWhile_suffix _).subset (List.mem_reverse.1 h)
        exact .inl (isDigit_of_mem_padded (List.mem_reverse.1 hkept))

theorem newline_notMem_renderElapsed (n : Nat) : '\n' ∉ renderElapsed n := by
  have hfraction : ∀ n places, '\n' ∉ withFraction n places := fun n places h =>
    absurd (mem_withFraction h) (by decide)
  rw [renderElapsed]
  split
  · exact List.not_mem_append (hfraction _ _) (by decide)
  · split
    · exact List.not_mem_append (hfraction _ _) (by decide)
    · split
      · exact List.not_mem_append (hfraction _ _) (by decide)
      · exact List.not_mem_append (hfraction _ _) (by decide)

end

theorem legible_render (now elapsed : Nat) :
    Clock.Legible ⟨fun _ => renderTime now, renderElapsed elapsed⟩ where
  now := ⟨fun h => absurd (mem_renderTime h) (by decide),
    fun h => absurd (mem_renderTime h) (by decide)⟩
  elapsed := newline_notMem_renderElapsed elapsed

end RecordSheet.Log
