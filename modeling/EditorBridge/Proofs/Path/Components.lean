import EditorBridge.Path.Relative
import EditorBridge.Proofs.Text.Pieces
import Mathlib.Data.List.TakeWhile
/-!
The components of a path, and taking some of them off its front. What is left when the components of
one path are taken off another has the others, and they can be taken off exactly if they stand there.
-/
namespace EditorBridge.Path

variable {p base : Path} {name rest body : List UInt8} {c : Component} {cs : List Component}

theorem isAbsolute_iff : p.isAbsolute = true ↔ ∃ rest, p = ⟨separator :: rest⟩ := by
  obtain ⟨bytes⟩ := p
  simp [isAbsolute, List.head?_eq_some_iff]

theorem pieces_eq_splitOn (bytes : List UInt8) : pieces bytes = bytes.splitOn separator := by
  refine Text.eq_splitOn rfl (fun _ => rfl) (fun b rest first more hOther hRest => ?_) bytes
  simp [pieces, hOther, hRest]

/-- The components behind the start of a path. -/
def bodyComponents (body : List UInt8) : List Component := (pieces body).filterMap component?

theorem components_eq (p : Path) :
    p.components =
      (startComponent? p.bytes).1.toList ++ bodyComponents (startComponent? p.bytes).2 := rfl

theorem bodyComponents_nil : bodyComponents [] = [] := rfl

theorem bodyComponents_last (h : separator ∉ name) :
    bodyComponents name = (component? name).toList := by
  rw [bodyComponents, pieces_eq_splitOn, List.splitOn_eq_singleton h]
  cases hName : component? name <;> simp [hName]

theorem bodyComponents_append (body rest : List UInt8) :
    bodyComponents (body ++ separator :: rest) = bodyComponents body ++ bodyComponents rest := by
  simp only [bodyComponents, pieces_eq_splitOn, List.splitOn_append_cons_self,
    List.filterMap_append]

theorem component?_eq_none_iff : component? name = none ↔ name = [] ∨ name = [dot] := by
  unfold component?
  split <;> rename_i h
  · simp [h]
  · split <;> simp [h]

theorem takeWhile_last (h : separator ∉ name) : name.takeWhile (· ≠ separator) = name := by
  rw [List.takeWhile_eq_self_iff]
  intro b hMem
  exact decide_eq_true fun hSeparator => h (hSeparator ▸ hMem)

theorem takeWhile_append_separator (body rest : List UInt8) :
    (body ++ separator :: rest).takeWhile (· ≠ separator) = body.takeWhile (· ≠ separator) := by
  induction body with
  | nil => simp
  | cons b body ih => rw [List.cons_append, List.takeWhile_cons, List.takeWhile_cons, ih]

theorem takeWhile_piece (h : separator ∉ name) (rest : List UInt8) :
    (name ++ separator :: rest).takeWhile (· ≠ separator) = name := by
  rw [takeWhile_append_separator, takeWhile_last h]

theorem drop_piece (name rest : List UInt8) :
    (name ++ separator :: rest).drop (name.length + 1) = rest := by
  simp

theorem nextComponent?_nil : nextComponent? [] = none := by rw [nextComponent?]

theorem nextComponent?_last (h : separator ∉ name) :
    nextComponent? name = (component? name).map (·, []) := by
  cases name with
  | nil => exact nextComponent?_nil
  | cons b name =>
    have hDrop : (b :: name).drop ((b :: name).length + 1) = [] :=
      List.drop_eq_nil_of_le (Nat.le_succ _)
    rw [nextComponent?, takeWhile_last h, hDrop, nextComponent?_nil]
    cases component? (b :: name) <;> rfl

theorem nextComponent?_piece (h : separator ∉ name) (rest : List UInt8) :
    nextComponent? (name ++ separator :: rest) =
      match component? name with
      | some c => some (c, rest)
      | none => nextComponent? rest := by
  obtain ⟨b, tail, hBody⟩ := List.exists_cons_of_ne_nil
    (List.append_ne_nil_of_right_ne_nil name (List.cons_ne_nil separator rest))
  cases hName : component? name with
  | none => rw [hBody, nextComponent?, ← hBody, takeWhile_piece h, drop_piece, hName]
  | some c => rw [hBody, nextComponent?, ← hBody, takeWhile_piece h, drop_piece, hName]

theorem trimFront_piece (h : separator ∉ name) (hNone : component? name = none)
    (rest : List UInt8) : trimFront (name ++ separator :: rest) = trimFront rest := by
  obtain ⟨b, tail, hBody⟩ := List.exists_cons_of_ne_nil
    (List.append_ne_nil_of_right_ne_nil name (List.cons_ne_nil separator rest))
  rw [hBody, trimFront, ← hBody, takeWhile_piece h, drop_piece, hNone]

theorem trimFront_of_component (h : component? (body.takeWhile (· ≠ separator)) ≠ none) :
    trimFront body = body := by
  cases body with
  | nil => exact absurd rfl h
  | cons b rest =>
    obtain ⟨c, hComponent⟩ := Option.ne_none_iff_exists'.mp h
    rw [trimFront, hComponent]

theorem bodyComponents_eq (body : List UInt8) :
    bodyComponents body =
      ((nextComponent? body).map fun next => next.1 :: bodyComponents next.2).getD [] := by
  induction body using Text.pieces_induction separator with
  | last name hName =>
    rw [bodyComponents_last hName, nextComponent?_last hName]
    cases component? name with
    | none => rfl
    | some c => simp [bodyComponents_nil]
  | piece name rest hName ih =>
    rw [bodyComponents_append, bodyComponents_last hName, nextComponent?_piece hName]
    cases component? name with
    | none => exact ih
    | some c => rfl

theorem stripBody_eq_none_iff : stripBody cs body = none ↔ ¬ cs <+: bodyComponents body := by
  induction cs generalizing body with
  | nil => simp [stripBody]
  | cons c cs ih =>
    rw [stripBody, bodyComponents_eq body]
    rcases nextComponent? body with _ | ⟨d, rest⟩
    · simp
    · by_cases hSame : c = d <;> simp [hSame, List.cons_prefix_cons, ih]

/-- The components of a path can be taken off another one exactly if they stand at its front. -/
theorem stripPrefix?_eq_none_iff : p.stripPrefix? base = none ↔ ¬ p.HasPrefix base := by
  unfold stripPrefix? HasPrefix
  rw [components_eq p]
  obtain ⟨first, body⟩ := startComponent? p.bytes
  cases base.components with
  | nil => simp
  | cons c cs =>
    cases first with
    | none => simp [stripBody_eq_none_iff]
    | some d => by_cases hSame : c = d <;> simp [hSame, stripBody_eq_none_iff, List.cons_prefix_cons]

end EditorBridge.Path
