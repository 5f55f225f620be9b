/-!
# Sets of code points

A property of characters is a list of closed ranges of code points, in
ascending order. Membership stops at the first range that lies above the code
point asked for, so characters early in the table are decided early.
-/

namespace MiniC.Text

/-- A set of code points: closed ranges, ascending and apart. -/
abbrev CodeRanges := List (Nat × Nat)

/-- Whether a code point lies in one of the ranges. -/
def CodeRanges.contains : CodeRanges → Nat → Bool
  | [], _ => false
  | (lo, hi) :: rest, n => lo ≤ n && (n ≤ hi || CodeRanges.contains rest n)

/-- Each range starts after the one before it has ended. -/
def CodeRanges.ascending : CodeRanges → Bool
  | [] => true
  | [(lo, hi)] => lo ≤ hi
  | (lo, hi) :: (lo', hi') :: rest =>
    lo ≤ hi && hi < lo' && CodeRanges.ascending ((lo', hi') :: rest)

private theorem le_of_ascending {rs : CodeRanges} {lo hi : Nat}
    (h : CodeRanges.ascending ((lo, hi) :: rs) = true) :
    ∀ r ∈ rs, hi < r.1 := by
  induction rs generalizing lo hi with
  | nil => intro r hr; cases hr
  | cons s rest ih =>
    simp only [CodeRanges.ascending, Bool.and_eq_true, decide_eq_true_eq] at h
    intro r hr
    rcases List.mem_cons.mp hr with rfl | hr
    · exact h.1.2
    · have hs : s.1 ≤ s.2 := by
        have := h.2
        unfold CodeRanges.ascending at this
        split at this <;> simp_all
      have := ih h.2 r hr
      omega

private theorem ascending_tail {rs : CodeRanges} {r : Nat × Nat}
    (h : CodeRanges.ascending (r :: rs) = true) : CodeRanges.ascending rs = true := by
  cases rs with
  | nil => rfl
  | cons s rest =>
    simp only [CodeRanges.ascending, Bool.and_eq_true] at h
    exact h.2

/-- In an ascending table, stopping early misses no range. -/
theorem CodeRanges.contains_iff {rs : CodeRanges} (h : rs.ascending = true) (n : Nat) :
    rs.contains n = true ↔ ∃ r ∈ rs, r.1 ≤ n ∧ n ≤ r.2 := by
  induction rs with
  | nil => simp [CodeRanges.contains]
  | cons r rest ih =>
    have hlt := le_of_ascending h
    simp only [CodeRanges.contains, Bool.and_eq_true, Bool.or_eq_true, decide_eq_true_eq,
      ih (ascending_tail h), List.mem_cons, exists_eq_or_imp]
    constructor
    · rintro ⟨hlo, hhi | hrest⟩
      · exact Or.inl ⟨hlo, hhi⟩
      · exact Or.inr hrest
    · rintro (hr | ⟨s, hs, hlo, hhi⟩)
      · exact ⟨hr.1, Or.inl hr.2⟩
      · have hr : r.1 ≤ r.2 := by
          unfold CodeRanges.ascending at h
          split at h <;> simp_all
        have := hlt s hs
        exact ⟨by omega, Or.inr ⟨s, hs, hlo, hhi⟩⟩

end MiniC.Text
