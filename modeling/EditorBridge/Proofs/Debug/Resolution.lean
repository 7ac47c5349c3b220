import EditorBridge.Proofs.Debug.Listing
/-!
Resolution for Java, member by member. It writes two members and leaves all others as they are; what
it writes depends on the others alone. So it makes no difference what the two members held before,
nor how often the configuration is resolved.
-/
namespace EditorBridge.Debug

namespace LaunchConfiguration

/-- The keys that resolution for Java writes. -/
def resolvedKeys : List String := ["mainClass", "classPaths"]

/-- Two configurations that differ only in what resolution for Java writes. -/
def AgreeElsewhere (c other : LaunchConfiguration) : Prop :=
  ∀ key, key ∉ resolvedKeys → other.get? key = c.get? key

/-- A configuration resolved for Java: the main class is the program, whatever value that is, and
absent without a program. -/
structure ResolvesTo (c d : LaunchConfiguration) : Prop where
  mainClass : d.get? "mainClass" = c.get? "program"
  classPaths : d.get? "classPaths" = some (.array [.string "any"])
  elsewhere : AgreeElsewhere c d

variable {c d e other : LaunchConfiguration}

theorem get?_insert_self (c : LaunchConfiguration) (key : String) (value : Json) :
    (c.insert key value).get? key = some value :=
  Keyed.find?_insert_self ..

theorem get?_insert_of_ne (c : LaunchConfiguration) {key key' : String} (value : Json)
    (h : key' ≠ key) : (c.insert key value).get? key' = c.get? key' :=
  Keyed.find?_insert_of_ne _ _ h

theorem get?_erase_self (c : LaunchConfiguration) (key : String) : (c.erase key).get? key = none :=
  Keyed.find?_erase_self ..

theorem get?_erase_of_ne (c : LaunchConfiguration) {key key' : String} (h : key' ≠ key) :
    (c.erase key).get? key' = c.get? key' :=
  Keyed.find?_erase_of_ne _ h

theorem resolvesTo_resolveJava (c : LaunchConfiguration) : c.ResolvesTo c.resolveJava := by
  have hMain : "mainClass" ≠ "classPaths" := by decide
  refine ⟨?_, get?_insert_self .., fun key hKey => ?_⟩
  · rw [resolveJava, get?_insert_of_ne _ _ hMain, program?]
    cases hProgram : c.get? "program" with
    | some program => exact get?_insert_self ..
    | none => exact get?_erase_self ..
  · obtain ⟨hNotMain, hNotPaths⟩ : key ≠ "mainClass" ∧ key ≠ "classPaths" := by
      simpa [resolvedKeys] using hKey
    rw [resolveJava, get?_insert_of_ne _ _ hNotPaths]
    cases c.program? with
    | some program => exact get?_insert_of_ne _ _ hNotMain
    | none => exact get?_erase_of_ne _ hNotMain

/-- Two configurations are the same when they have the same members. -/
theorem eq_of_get?_eq (h : ∀ key, d.get? key = e.get? key) : d = e := by
  obtain ⟨members, hSorted⟩ := d
  obtain ⟨others, hOthers⟩ := e
  obtain rfl : members = others := hSorted.ext hOthers h
  rfl

/-- What resolution makes of the other members is all that there is in the result. -/
theorem ResolvesTo.get?_eq (hc : c.ResolvesTo d) (hOther : other.ResolvesTo e)
    (hAgree : AgreeElsewhere c other) (key : String) : e.get? key = d.get? key := by
  by_cases hMain : key = "mainClass"
  · subst hMain
    rw [hOther.mainClass, hc.mainClass, hAgree "program" (by decide)]
  by_cases hPaths : key = "classPaths"
  · subst hPaths
    rw [hOther.classPaths, hc.classPaths]
  · have hKey : key ∉ resolvedKeys := by simp [resolvedKeys, hMain, hPaths]
    rw [hOther.elsewhere key hKey, hAgree key hKey, hc.elsewhere key hKey]

theorem ResolvesTo.unique (hc : c.ResolvesTo d) (hOther : other.ResolvesTo e)
    (hAgree : AgreeElsewhere c other) : e = d :=
  eq_of_get?_eq (hc.get?_eq hOther hAgree)

/-- What is resolved is resolved to itself. -/
theorem ResolvesTo.resolveJava_eq (hc : c.ResolvesTo d) : d.resolveJava = d :=
  hc.unique d.resolvesTo_resolveJava hc.elsewhere

/-- The type of the debugger is not among what resolution writes. -/
theorem AgreeElsewhere.debugType?_eq (h : AgreeElsewhere c other) :
    other.debugType? = c.debugType? := by
  rw [debugType?, debugType?, text?, text?, h "type" (by decide)]

end LaunchConfiguration

open LaunchConfiguration (AgreeElsewhere ResolvesTo resolvesTo_resolveJava)

variable {config : LaunchConfiguration} {folder : Option WorkspaceFolder}
  {token : Option CancellationToken}

/-- However many providers for Java there are, all but the first find nothing to do. -/
theorem runProviders_java (hToken : token.any (·.cancelled) = false) (n : Nat) :
    Registry.runProviders folder (List.replicate (n + 1) javaProvider) config token =
      (.ok config.resolveJava, token) := by
  induction n generalizing config with
  | zero => simp [Registry.runProviders, javaProvider, hToken]
  | succ n ih =>
    have hAgain := config.resolvesTo_resolveJava.resolveJava_eq
    calc Registry.runProviders folder (List.replicate (n + 2) javaProvider) config token
        = Registry.runProviders folder (List.replicate (n + 1) javaProvider) config.resolveJava
            token := rfl
      _ = (.ok config.resolveJava, token) := by rw [ih, hAgain]

open RegistryHistory (start)

/-- After any registrations and disposals that leave one or more providers for Java and no others
registered for a type, a configuration of this type is resolved as by one provider for Java, for
every folder and unless the token is cancelled: there is one configuration that has the program for
its main class, the fixed class path, and all other members and no more, and that is the result.
Resolving the result changes nothing, and a configuration that differs in the two members only has
the same result. -/
theorem java_resolution_idempotent {actions : List RegistryAction} {debugType : String} {n : Nat}
    (hSome : 0 < n)
    (hProviders : (Listing.empty.after actions).providers debugType =
      List.replicate n javaProvider)
    (hType : config.debugType? = some debugType) (hToken : token.any (·.cancelled) = false) :
    ∃ resolved,
      (∀ d : LaunchConfiguration, config.ResolvesTo d ↔ d = resolved) ∧
      (start.after actions).registry.resolve folder config token = (.ok resolved, token) ∧
      javaProvider folder config token = (some resolved, token) ∧
      (start.after actions).registry.resolve folder resolved token = (.ok resolved, token) ∧
      ∀ other : LaunchConfiguration, AgreeElsewhere config other →
        (start.after actions).registry.resolve folder other token = (.ok resolved, token) := by
  obtain ⟨m, rfl⟩ := Nat.exists_eq_add_one_of_ne_zero (Nat.ne_of_gt hSome)
  have hItems : (start.after actions).registry.providers.items debugType =
      List.replicate (m + 1) javaProvider :=
    (((RegistryHistory.refines_start.after actions).providers.items debugType).trans
      numbered_items).trans hProviders
  have hResolve {c : LaunchConfiguration} (hType : c.debugType? = some debugType) :
      (start.after actions).registry.resolve folder c token = (.ok c.resolveJava, token) := by
    simp only [Registry.resolve, hType, hItems, runProviders_java hToken]
  have hTo := config.resolvesTo_resolveJava
  refine ⟨config.resolveJava, fun d => ⟨?_, ?_⟩, hResolve hType, rfl, ?_, ?_⟩
  · intro hOther
    exact hTo.unique hOther fun _ _ => rfl
  · rintro rfl
    exact hTo
  · rw [hResolve (hTo.elsewhere.debugType?_eq.trans hType), hTo.resolveJava_eq]
  · intro other hAgree
    have hSame := hTo.unique other.resolvesTo_resolveJava hAgree
    rw [hResolve (hAgree.debugType?_eq.trans hType), hSame]

/-- Two providers for Java stay; another one and one for another type do not matter. -/
def twoJavaProviders : List RegistryAction :=
  [.register ⟨"java", .provider javaProvider⟩, .register ⟨"java", .provider refusingProvider⟩,
    .register ⟨"node", .provider refusingProvider⟩, .register ⟨"java", .provider javaProvider⟩,
    .dispose 1]

/-- Its program is given, as no value. -/
def nullProgram : LaunchConfiguration :=
  .ofMembers [("args", .array []), ("mainClass", .string "Stale"), ("program", .null),
    ("type", .string "java")]

/-- The same without the stale class. -/
def freshNullProgram : LaunchConfiguration :=
  .ofMembers [("args", .array []), ("program", .null), ("type", .string "java")]

/-- The main class is there as well, as no value. -/
theorem java_resolution_idempotent_null :
    ∃ resolved : LaunchConfiguration,
      resolved.get? "mainClass" = some .null ∧ resolved.get? "args" = some (.array []) ∧
      resolved.get? "classPaths" = some (.array [.string "any"]) ∧
      (start.after twoJavaProviders).registry.resolve none nullProgram (some ⟨false⟩) =
        (.ok resolved, some ⟨false⟩) ∧
      (start.after twoJavaProviders).registry.resolve none freshNullProgram (some ⟨false⟩) =
        (.ok resolved, some ⟨false⟩) := by
  have hAgree : AgreeElsewhere nullProgram freshNullProgram := by
    intro key hKey
    obtain ⟨hMain, -⟩ : key ≠ "mainClass" ∧ key ≠ "classPaths" := by
      simpa [LaunchConfiguration.resolvedKeys] using hKey
    have hMembers : nullProgram.members =
        [("args", .array []), ("mainClass", .string "Stale"), ("program", .null),
          ("type", .string "java")] := by rfl
    have hFresh : freshNullProgram.members =
        [("args", .array []), ("program", .null), ("type", .string "java")] := by rfl
    simp [LaunchConfiguration.get?, hMembers, hFresh, Keyed.find?, Ne.symm hMain]
  obtain ⟨resolved, hUnique, hResolve, -, -, hOther⟩ :=
    @java_resolution_idempotent nullProgram none (some ⟨false⟩) twoJavaProviders "java" 2
      (by decide) rfl (by decide) rfl
  have hTo := (hUnique resolved).mpr rfl
  exact ⟨resolved, hTo.mainClass, hTo.elsewhere "args" (by decide), hTo.classPaths, hResolve,
    hOther _ hAgree⟩

end EditorBridge.Debug
