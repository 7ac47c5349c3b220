import EditorBridge.Proofs.Path.Components
/-!
A path behind another one. Where names are joined to a path, however that is written, taking its
components off again leaves exactly these names: no byte of them is lost, and no separator or dot of
the other path stays.
-/
namespace EditorBridge.Path

/-- The path is one name or more, with one separator between two of them; none is empty, a dot or
two dots. -/
def IsPlain (p : Path) : Prop :=
  ∀ name ∈ p.bytes.splitOn separator, component? name = some (.normal name)

instance (p : Path) : Decidable p.IsPlain := inferInstanceAs (Decidable (∀ _ ∈ _, _))

/-- Names with a separator behind each of them. -/
def closed (names : List (List UInt8)) : List UInt8 := names.flatMap (· ++ [separator])

/-- The bytes of a path as they stand in front of what is joined to it. -/
def directory (p : Path) : List UInt8 :=
  if p.bytes = [] ∨ p.bytes.getLast? = some separator then p.bytes else p.bytes ++ [separator]

variable {p q base : Path} {bytes body : List UInt8} {names : List (List UInt8)}
  {first : Option Component} {cs : List Component}

theorem closed_cons (name : List UInt8) (names : List (List UInt8)) :
    closed (name :: names) = name ++ separator :: closed names := by
  simp [closed]

/-- What is empty or ends with a separator is names with a separator behind each of them. -/
theorem exists_closed (h : bytes = [] ∨ bytes.getLast? = some separator) :
    ∃ names, (∀ name ∈ names, separator ∉ name) ∧ bytes = closed names := by
  induction bytes using Text.pieces_induction separator with
  | last bytes hLast =>
    refine ⟨[], by simp, ?_⟩
    rcases h with rfl | hEnd
    · rfl
    · exact absurd (List.mem_of_getLast? hEnd) hLast
  | piece name rest hName ih =>
    have hRest : rest = [] ∨ rest.getLast? = some separator := by
      rcases h with hNil | hEnd
      · simp at hNil
      · cases rest with
        | nil => exact .inl rfl
        | cons b rest => exact .inr (by simpa [List.getLast?_append] using hEnd)
    obtain ⟨names, hNames, hSame⟩ := ih hRest
    refine ⟨name :: names, List.forall_mem_cons.mpr ⟨hName, hNames⟩, ?_⟩
    rw [closed_cons, hSame]

theorem bodyComponents_closed (hNames : ∀ name ∈ names, separator ∉ name) :
    bodyComponents (closed names) = names.filterMap component? := by
  induction names with
  | nil => exact bodyComponents_nil
  | cons name names ih =>
    obtain ⟨hName, hOthers⟩ := List.forall_mem_cons.mp hNames
    rw [closed_cons, bodyComponents_append, bodyComponents_last hName, ih hOthers]
    cases hComponent : component? name <;> simp [hComponent]

/-- What is left behind the components of some names begins where the text behind them does, but for
names that are no components. -/
theorem stripBody_closed (hNames : ∀ name ∈ names, separator ∉ name) (rest : List UInt8) :
    (stripBody (names.filterMap component?) (closed names ++ rest)).map trimFront =
      some (trimFront rest) := by
  induction names with
  | nil => rfl
  | cons name names ih =>
    obtain ⟨hName, hOthers⟩ := List.forall_mem_cons.mp hNames
    rw [closed_cons, List.append_assoc, List.cons_append]
    cases hComponent : component? name with
    | none =>
      rw [List.filterMap_cons_none hComponent, ← ih hOthers]
      cases names.filterMap component? with
      | nil => exact congrArg some (trimFront_piece hName hComponent _)
      | cons c cs => rw [stripBody, stripBody, nextComponent?_piece hName, hComponent]
    | some c =>
      rw [List.filterMap_cons_some hComponent, stripBody, nextComponent?_piece hName, hComponent,
        ← ih hOthers]
      simp

/-- What ends with a separator keeps its components in front of any bytes. -/
theorem bodyComponents_append_ends (h : bytes = [] ∨ bytes.getLast? = some separator)
    (rest : List UInt8) :
    bodyComponents (bytes ++ rest) = bodyComponents bytes ++ bodyComponents rest := by
  rcases h with rfl | hEnds
  · rw [bodyComponents_nil, List.nil_append, List.nil_append]
  · obtain ⟨front, rfl⟩ := List.getLast?_eq_some_iff.mp hEnds
    rw [List.append_assoc, List.singleton_append, bodyComponents_append, bodyComponents_append,
      bodyComponents_nil, List.append_nil]

/-- More bytes behind a path leave its start alone, unless they are put to its only name. -/
theorem startComponent?_append (hSome : bytes ≠ []) (rest : List UInt8)
    (hApart : bytes.getLast? = some separator ∨ rest.head? = some separator) :
    startComponent? (bytes ++ rest) =
      ((startComponent? bytes).1, (startComponent? bytes).2 ++ rest) := by
  obtain ⟨b, tail, rfl⟩ := List.exists_cons_of_ne_nil hSome
  by_cases hRoot : b = separator
  · simp [startComponent?, hRoot]
  · have hStart : startsWithDot (b :: tail ++ rest) = startsWithDot (b :: tail) := by
      cases tail with
      | nil =>
        obtain ⟨others, rfl⟩ : ∃ others, rest = separator :: others := by
          refine List.head?_eq_some_iff.mp (hApart.resolve_left fun hEnd => ?_)
          exact hRoot (Option.some.inj hEnd)
        simp [startsWithDot]
      | cons c tail => rfl
    rw [List.cons_append] at hStart
    simp only [startComponent?, List.cons_append, hStart, List.head?_cons, Option.some.injEq, hRoot,
      if_false]
    split <;> simp

theorem startComponent?_eq_none (h : (startComponent? bytes).1 = none) :
    bytes.head? ≠ some separator ∧ startsWithDot bytes = false ∧
      startComponent? bytes = (none, bytes) := by
  unfold startComponent? at h ⊢
  split at h
  · cases h
  · split at h
    · cases h
    · simp_all

/-- Only the empty path has no component. -/
theorem components_eq_nil_iff : p.components = [] ↔ p.bytes = [] := by
  obtain ⟨bytes⟩ := p
  constructor
  · intro hNone
    rw [components_eq, List.append_eq_nil_iff, Option.toList_eq_nil_iff] at hNone
    obtain ⟨hRoot, hDot, hStart⟩ := startComponent?_eq_none hNone.1
    have hBody : bodyComponents bytes = [] := by simpa only [hStart] using hNone.2
    induction bytes using Text.pieces_induction separator with
    | last name hName =>
      rw [bodyComponents_last hName, Option.toList_eq_nil_iff, component?_eq_none_iff] at hBody
      rcases hBody with hNil | rfl
      · exact hNil
      · simp [startsWithDot] at hDot
    | piece name rest hName =>
      rw [bodyComponents_append, bodyComponents_last hName, List.append_eq_nil_iff,
        Option.toList_eq_nil_iff, component?_eq_none_iff] at hBody
      rcases hBody.1 with rfl | rfl
      · simp at hRoot
      · simp [startsWithDot] at hDot
  · rintro rfl
    rfl

theorem takeWhile_mem_splitOn (bytes : List UInt8) :
    bytes.takeWhile (· ≠ separator) ∈ bytes.splitOn separator := by
  induction bytes using Text.pieces_induction separator with
  | last name hName =>
    rw [takeWhile_last hName, List.splitOn_eq_singleton hName]
    exact List.mem_singleton_self name
  | piece name rest hName ih =>
    rw [takeWhile_piece hName, List.splitOn_append_cons_self_of_not_mem hName]
    exact List.mem_cons_self

theorem takeWhile_reverse_mem_splitOn (bytes : List UInt8) :
    (bytes.reverse.takeWhile (· ≠ separator)).reverse ∈ bytes.splitOn separator := by
  induction bytes using Text.pieces_induction separator with
  | last name hName =>
    have hReverse : separator ∉ name.reverse := fun hMem => hName (List.mem_reverse.mp hMem)
    rw [takeWhile_last hReverse, List.reverse_reverse, List.splitOn_eq_singleton hName]
    exact List.mem_singleton_self name
  | piece name rest hName ih =>
    rw [List.splitOn_append_cons_self_of_not_mem hName, List.reverse_append, List.reverse_cons,
      List.append_assoc, List.singleton_append, takeWhile_append_separator]
    exact List.mem_cons_of_mem name ih

theorem trimReversed_eq_trimFront (bytes : List UInt8) : trimReversed bytes = trimFront bytes := by
  fun_induction trimReversed bytes with
  | case1 => rw [trimFront]
  | case2 b rest name c hName => rw [trimFront, hName]
  | case3 b rest name hName ih => rw [trimFront, hName, ih]

theorem IsPlain.component?_ne_none (h : q.IsPlain) {name : List UInt8}
    (hMem : name ∈ q.bytes.splitOn separator) : component? name ≠ none := by
  rw [h name hMem]
  exact Option.some_ne_none _

theorem IsPlain.trimFront (h : q.IsPlain) : trimFront q.bytes = q.bytes :=
  trimFront_of_component (h.component?_ne_none (takeWhile_mem_splitOn q.bytes))

theorem IsPlain.trimEnd (h : q.IsPlain) : trimEnd q.bytes = q.bytes := by
  have hLast := h.component?_ne_none (takeWhile_reverse_mem_splitOn q.bytes)
  have hReversed : component? (q.bytes.reverse.takeWhile (· ≠ separator)) ≠ none := by
    rw [ne_eq, component?_eq_none_iff] at hLast ⊢
    simpa only [List.reverse_eq_iff, List.reverse_nil, List.reverse_singleton] using hLast
  rw [Path.trimEnd, trimReversed_eq_trimFront, trimFront_of_component hReversed,
    List.reverse_reverse]

/-- A path that begins with the name of a component has no other start. -/
theorem startComponent?_of_component (h : component? (bytes.takeWhile (· ≠ separator)) ≠ none) :
    startComponent? bytes = (none, bytes) := by
  rw [ne_eq, component?_eq_none_iff, not_or] at h
  obtain ⟨hSome, hNoDot⟩ := h
  have hRoot : bytes.head? ≠ some separator := by
    intro hHead
    obtain ⟨rest, rfl⟩ := List.head?_eq_some_iff.mp hHead
    simp at hSome
  have hDot : startsWithDot bytes = false := by
    rw [← Bool.not_eq_true]
    intro hStart
    match bytes with
    | [] => cases hStart
    | [b] =>
      obtain rfl : b = dot := by simpa [startsWithDot] using hStart
      exact hNoDot rfl
    | b :: c :: rest =>
      obtain ⟨rfl, rfl⟩ : b = dot ∧ c = separator := by simpa [startsWithDot] using hStart
      exact hNoDot rfl
  simp [startComponent?, hRoot, hDot]

/-- A name in front of a separator is the first component. -/
theorem components_piece {name : List UInt8} {c : Component} (hName : separator ∉ name)
    (hComponent : component? name = some c) (rest : List UInt8) :
    (⟨name ++ separator :: rest⟩ : Path).components = c :: bodyComponents rest := by
  have hStart :
      startComponent? (name ++ separator :: rest) = (none, name ++ separator :: rest) := by
    apply startComponent?_of_component
    rw [takeWhile_piece hName, hComponent]
    exact Option.some_ne_none c
  simp [components_eq, hStart, bodyComponents_append, bodyComponents_last hName, hComponent]

theorem IsPlain.startComponent?_eq (h : q.IsPlain) : startComponent? q.bytes = (none, q.bytes) :=
  startComponent?_of_component (h.component?_ne_none (takeWhile_mem_splitOn q.bytes))

theorem join_of_relative (h : q.isAbsolute = false) : p.join q = ⟨p.directory ++ q.bytes⟩ := by
  unfold join directory
  split
  · simp [h] at *
  · split <;> simp

theorem components_directory (p : Path) : (⟨p.directory⟩ : Path).components = p.components := by
  unfold directory
  split
  · rfl
  · rename_i h
    rw [not_or] at h
    rw [components_eq, components_eq, startComponent?_append h.1 [separator] (.inr rfl),
      bodyComponents_append]
    simp [bodyComponents_nil]

theorem startComponent?_ends (h : bytes.getLast? = some separator) :
    (startComponent? bytes).2 = [] ∨ (startComponent? bytes).2.getLast? = some separator := by
  have hDrop : bytes.drop 1 = [] ∨ (bytes.drop 1).getLast? = some separator := by
    match bytes with
    | [] => exact .inl rfl
    | [b] => exact .inl rfl
    | b :: c :: rest => exact .inr h
  unfold startComponent?
  split
  · exact hDrop
  · split
    · exact hDrop
    · exact .inr h

theorem join_of_absolute (h : q.isAbsolute = true) : p.join q = q := by
  rw [join, if_pos h]

theorem join_of_empty (h : p.bytes = []) : p.join q = q := by
  unfold join
  split
  · rfl
  · simp [h]

theorem directory_getLast? (hSome : p.bytes ≠ []) : p.directory.getLast? = some separator := by
  unfold directory
  split
  · exact Or.resolve_left ‹_› hSome
  · simp

/-- A relative path puts its components behind those of the path that it is joined to. -/
theorem components_join (hSome : p.bytes ≠ []) (h : q.isAbsolute = false) :
    (p.join q).components = p.components ++ bodyComponents q.bytes := by
  have hEnds := directory_getLast? hSome
  have hDirectory : p.directory ≠ [] := fun hNil => by simp [hNil] at hEnds
  rw [join_of_relative h, ← components_directory p, components_eq, components_eq,
    startComponent?_append hDirectory q.bytes (.inl hEnds),
    bodyComponents_append_ends (startComponent?_ends hEnds), List.append_assoc]

theorem HasPrefix.trans {r : Path} (h : r.HasPrefix q) (hBase : q.HasPrefix p) : r.HasPrefix p :=
  List.IsPrefix.trans hBase h

/-- What is joined to a path lies in it, unless it stands alone. -/
theorem join_hasPrefix (h : q.isAbsolute = false) : (p.join q).HasPrefix p := by
  unfold HasPrefix
  by_cases hNone : p.bytes = []
  · rw [components_eq_nil_iff.mpr hNone]
    exact List.nil_prefix
  · rw [components_join hNone h]
    exact List.prefix_append _ _

theorem stripPrefix?_of_start (hStart : startComponent? p.bytes = (first, body))
    (hBase : base.components = first.toList ++ cs) (hSome : base.components ≠ []) :
    p.stripPrefix? base = (stripBody cs body).map fun left => ⟨trimEnd (trimFront left)⟩ := by
  cases first with
  | none =>
    rw [hBase] at hSome
    obtain ⟨c, rest, rfl⟩ := List.exists_cons_of_ne_nil hSome
    simp [stripPrefix?, hBase, hStart]
  | some d => simp [stripPrefix?, hBase, hStart]

theorem IsPlain.isAbsolute (h : q.IsPlain) : q.isAbsolute = false := by
  have hStart := startComponent?_eq_none (congrArg Prod.fst h.startComponent?_eq)
  simpa [Path.isAbsolute] using hStart.1

/-- Plain names behind a path are what is left when the components of the path are taken off. -/
theorem stripPrefix?_join (h : q.IsPlain) (p : Path) : (p.join q).stripPrefix? p = some q := by
  rw [join_of_relative h.isAbsolute]
  by_cases hNone : p.bytes = []
  · have hDirectory : p.directory = [] := by simp [directory, hNone]
    have hComponents := components_eq_nil_iff.mpr hNone
    simp [stripPrefix?, hComponents, hDirectory, startLength, h.startComponent?_eq, h.trimEnd]
  · have hSome : p.components ≠ [] := fun hNil => hNone (components_eq_nil_iff.mp hNil)
    have hEnds := directory_getLast? hNone
    have hDirectory : p.directory ≠ [] := fun hNil => by simp [hNil] at hEnds
    have hStart := startComponent?_append hDirectory q.bytes (.inl hEnds)
    obtain ⟨names, hNames, hBody⟩ := exists_closed (startComponent?_ends hEnds)
    have hBase : p.components =
        (startComponent? p.directory).1.toList ++ names.filterMap component? := by
      rw [← components_directory, components_eq, ← bodyComponents_closed hNames, ← hBody]
    -- Behind the components of `p` stand only names that are none, and then `q`.
    have hLeft := stripBody_closed hNames q.bytes
    rw [← hBody] at hLeft
    obtain ⟨left, hStrip, hTrim⟩ := Option.map_eq_some_iff.mp hLeft
    rw [stripPrefix?_of_start hStart hBase hSome, hStrip]
    simp [hTrim, h.trimFront, h.trimEnd]

end EditorBridge.Path
