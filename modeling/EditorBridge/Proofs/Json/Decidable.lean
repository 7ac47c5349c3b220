import EditorBridge.Proofs.Json.Canonical
/-!
Whether JSON values are equal, and whether one is canonical, can be decided.
-/
namespace EditorBridge.Json

mutual

/-- Compares two values. -/
def same : Json → Json → Bool
  | .null, .null => true
  | .bool a, .bool b => a == b
  | .number a, .number b => a == b
  | .string a, .string b => a == b
  | .array a, .array b => sameItems a b
  | .object a, .object b => sameMembers a b
  | _, _ => false

def sameItems : List Json → List Json → Bool
  | [], [] => true
  | a :: as, b :: bs => same a b && sameItems as bs
  | _, _ => false

def sameMembers : List (String × Json) → List (String × Json) → Bool
  | [], [] => true
  | (k, a) :: as, (l, b) :: bs => k == l && same a b && sameMembers as bs
  | _, _ => false

end

mutual

theorem same_iff : ∀ a b : Json, same a b = true ↔ a = b
  | .null, b | .bool _, b | .number _, b | .string _, b => by cases b <;> simp [same]
  | .array items, b => by cases b <;> simp [same, sameItems_iff items]
  | .object members, b => by cases b <;> simp [same, sameMembers_iff members]

theorem sameItems_iff : ∀ as bs : List Json, sameItems as bs = true ↔ as = bs
  | [], bs => by cases bs <;> simp [sameItems]
  | a :: as, bs => by cases bs <;> simp [sameItems, same_iff a, sameItems_iff as]

theorem sameMembers_iff : ∀ as bs : List (String × Json), sameMembers as bs = true ↔ as = bs
  | [], bs => by cases bs <;> simp [sameMembers]
  | (k, a) :: as, bs => by
    cases bs with
    | nil => simp [sameMembers]
    | cons m bs => obtain ⟨l, b⟩ := m; simp [sameMembers, same_iff a, sameMembers_iff as]

end

instance : DecidableEq Json := fun a b => decidable_of_iff _ (same_iff a b)

mutual

def decideCanonical : ∀ value : Json, Decidable value.Canonical
  | .null | .bool _ | .number _ | .string _ => .isTrue trivial
  | .array items => decideItems items
  | .object members =>
    letI := decideMembers members
    inferInstanceAs (Decidable (List.Pairwise _ members ∧ CanonicalMembers members))

def decideItems : ∀ items : List Json, Decidable (CanonicalItems items)
  | [] => .isTrue trivial
  | v :: rest =>
    letI := decideCanonical v
    letI := decideItems rest
    inferInstanceAs (Decidable (v.Canonical ∧ CanonicalItems rest))

def decideMembers : ∀ members : List (String × Json), Decidable (CanonicalMembers members)
  | [] => .isTrue trivial
  | (_, v) :: rest =>
    letI := decideCanonical v
    letI := decideMembers rest
    inferInstanceAs (Decidable (v.Canonical ∧ CanonicalMembers rest))

end

instance : DecidablePred Canonical := decideCanonical

instance : DecidablePred Definite := fun
  | none => .isTrue (by simp [Definite])
  | some v => decidable_of_iff (v.Canonical ∧ v ≠ .null) (by simp [Definite])

end EditorBridge.Json
