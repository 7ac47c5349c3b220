import EditorBridge.Proofs.Json.Decidable
import EditorBridge.Proofs.Text.Pieces
import EditorBridge.Settings
/-!
Sections of a settings tree. Looking up a section is going down the tree along its parts, so what
two sections with a dot between them denote is looked up one after the other. A section is known by
its parts: where they differ, there is a tree that tells.
-/
namespace EditorBridge.Settings

/-- The parts of a section: what stands between its dots, empty parts left out. -/
def parts (section_ : String) : List (List Char) := (section_.toList.splitOn '.').filter (· ≠ [])

/-- A tree with one leaf, at the end of these names. -/
def branch : List String → Json
  | [] => .bool true
  | name :: rest => .object [(name, branch rest)]

variable {tree : Json} {ns ms : List String} {s t : String}

theorem pieces_eq_splitOn (text : List Char) : pieces text = text.splitOn '.' := by
  refine Text.eq_splitOn rfl (fun _ => rfl) (fun c rest first more hOther hRest => ?_) text
  rw [pieces, hRest]
  exact hOther

theorem names_eq_parts (s : String) : names s = (parts s).map String.ofList := by
  rw [names, parts, pieces_eq_splitOn]
  induction s.toList.splitOn '.' with
  | nil => rfl
  | cons piece more ih => by_cases hEmpty : piece = [] <;> simp [hEmpty, ih]

theorem names_eq_iff : names s = names t ↔ parts s = parts t := by
  rw [names_eq_parts, names_eq_parts]
  exact List.map_inj_right fun _ _ => String.ofList_inj.mp

/-- Empty parts do not count, so nothing is won or lost where two sections meet. -/
theorem names_dot (s t : String) : names (s ++ "." ++ t) = names s ++ names t := by
  have hSplit : (s ++ "." ++ t).toList = s.toList ++ '.' :: t.toList := by simp
  simp only [names_eq_parts, parts, hSplit, List.splitOn_append_cons_self, List.filter_append,
    List.map_append]

theorem descend?_append (tree : Json) (ns ms : List String) :
    descend? tree (ns ++ ms) = (descend? tree ns).bind (descend? · ms) := by
  induction ns generalizing tree with
  | nil => rfl
  | cons name ns ih =>
    rw [List.cons_append, descend?, descend?]
    cases tree.get? name with
    | none => rfl
    | some value => exact ih value

/-- Null stays null, so a path that leads nowhere may as well go on from there. -/
theorem descend?_null (ns : List String) : (descend? .null ns).getD .null = .null := by
  cases ns <;> rfl

theorem descend?_getD (value? : Option Json) (ns : List String) :
    (value?.bind (descend? · ns)).getD .null = (descend? (value?.getD .null) ns).getD .null := by
  cases value? with
  | none => exact (descend?_null ns).symm
  | some value => rfl

theorem lookup_dot (tree : Json) (s t : String) :
    lookup tree (s ++ "." ++ t) = lookup (lookup tree s) t := by
  rw [lookup, names_dot, descend?_append, descend?_getD]
  rfl

/-- Only its own names lead to the leaf of a branch. -/
theorem descend?_branch_iff : (descend? (branch ns) ms).getD .null = .bool true ↔ ms = ns := by
  induction ns generalizing ms with
  | nil => cases ms <;> simp [branch, descend?, Json.get?]
  | cons name ns ih =>
    cases ms with
    | nil => simp [branch, descend?]
    | cons other ms =>
      by_cases hSame : name = other
      · simp [branch, descend?, Json.get?, Keyed.find?, hSame, ih]
      · simp [branch, descend?, Json.get?, Keyed.find?, hSame, Ne.symm hSame]

theorem lookup_eq_iff : (∀ tree, lookup tree s = lookup tree t) ↔ parts s = parts t := by
  rw [← names_eq_iff]
  constructor
  · intro hSame
    have hLeaf : lookup (branch (names t)) t = .bool true := descend?_branch_iff.mpr rfl
    rw [← hSame] at hLeaf
    exact descend?_branch_iff.mp hLeaf
  · intro hNames tree
    rw [lookup, lookup, hNames]

theorem lookup_of_no_parts (h : parts s = []) (tree : Json) : lookup tree s = tree := by
  rw [lookup, names_eq_parts, h]
  rfl

/-- Two sections with a dot between them are looked up one after the other, in every tree and
wherever there are dots. Sections denote the same in all trees exactly if they have the same parts,
and without a part they denote the whole tree. -/
theorem sections_compose :
    (∀ tree s t, lookup tree (s ++ "." ++ t) = lookup (lookup tree s) t) ∧
    (∀ s t, (∀ tree, lookup tree s = lookup tree t) ↔ parts s = parts t) ∧
    ∀ s, parts s = [] → ∀ tree, lookup tree s = tree :=
  ⟨lookup_dot, fun _ _ => lookup_eq_iff, fun _ => lookup_of_no_parts⟩

/-- Settings with a section inside another one, and an item that is no section. -/
def formatSettings : Json :=
  .object [("java", .object [("format", .object [("enabled", .bool true)]),
    ("list", .array [.bool true])])]

theorem sections_compose_dotted :
    lookup formatSettings (".java." ++ "." ++ "format..enabled.") = .bool true ∧
      lookup formatSettings ("java.list" ++ "." ++ "0") = .null ∧
      parts ".." = [] ∧ lookup formatSettings ".." = formatSettings := by
  obtain ⟨hCompose, -, hNone⟩ := sections_compose
  have hEmpty : parts ".." = [] := by decide +kernel
  refine ⟨?_, ?_, hEmpty, hNone _ hEmpty formatSettings⟩
  · rw [hCompose]
    decide +kernel
  · rw [hCompose]
    decide +kernel

end EditorBridge.Settings
