import EditorBridge.Text.Utf8
/-!
The pieces of a list between its separators. Every way of cutting that begins a new piece behind each
separator, and nowhere else, finds the same ones.
-/
namespace EditorBridge.Text

variable {α : Type} [DecidableEq α] {a : α}

/-- A list is one piece, or a piece with the separator behind it and a list. -/
theorem pieces_induction (a : α) {motive : List α → Prop} (last : ∀ xs, a ∉ xs → motive xs)
    (piece : ∀ xs rest, a ∉ xs → motive rest → motive (xs ++ a :: rest)) (xs : List α) :
    motive xs := by
  induction hLength : xs.length using Nat.strongRecOn generalizing xs with
  | ind size ih =>
    by_cases hMem : a ∈ xs
    · obtain ⟨first, rest, rfl, hFirst⟩ := List.eq_append_cons_of_mem hMem
      apply piece first rest hFirst
      apply ih rest.length _ rest rfl
      rw [← hLength, List.length_append, List.length_cons]
      omega
    · exact last xs hMem

theorem eq_splitOn {cut : List α → List (List α)} (nil : cut [] = [[]])
    (separator : ∀ rest, cut (a :: rest) = [] :: cut rest)
    (other : ∀ b rest first more, b ≠ a → cut rest = first :: more →
      cut (b :: rest) = (b :: first) :: more) (xs : List α) : cut xs = xs.splitOn a := by
  induction xs with
  | nil => rw [nil, List.splitOn_nil]
  | cons b rest ih =>
    rw [List.splitOn_cons_eq_if_modifyHead]
    by_cases hSeparator : b = a
    · subst hSeparator
      rw [separator, ih, if_pos (beq_self_eq_true b)]
    · rw [if_neg (by simpa using hSeparator), ← ih]
      cases hRest : cut rest with
      | nil => exact absurd (ih ▸ hRest) (List.splitOn_ne_nil a rest)
      | cons first more => exact other b rest first more hSeparator hRest

end EditorBridge.Text
