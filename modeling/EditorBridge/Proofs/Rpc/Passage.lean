import EditorBridge.Proofs.Rpc.Run
import EditorBridge.Proofs.Stream.Happening
/-!
Passages. In a passage of a client nothing changes its connection but what happens on a connection,
and what the peer reads is kept beside the trace.
-/
namespace EditorBridge.Rpc

/-- Does the client do this, or its clock, rather than its connection? -/
def Event.isOwn : Event → Bool
  | .transport _ => false
  | _ => true

/-- What is done one after the other in a passage. -/
inductive Act where
  | own (event : Event)
  | outside (happening : Stream.Happening)

namespace Client

/-- The client behind what happens on its connection. -/
def after (c : Client) (happening : Stream.Happening) : Client :=
  { c with connection := c.connection.onto (·.after happening) }

/-- What the client, its callers and the clock do and what happens on the connection, one after the
other. The trace tells of the client, and `heard` is what the peer has read. -/
inductive Passage (answer : Request → Response) (c : Client) :
    List Entry → List String → Client → Prop where
  | start : Passage answer c [] [] c
  | own {trace entries : List Entry} {heard : List String} {d e : Client} {event : Event}
      (prior : Passage answer c trace heard d) (hOwn : event.isOwn = true)
      (last : d.next? answer event = some (e, entries)) :
      Passage answer c (trace ++ entries) heard e
  | outside {trace : List Entry} {heard : List String} {d : Client}
      (prior : Passage answer c trace heard d) (happening : Stream.Happening) :
      Passage answer c trace (heard ++ d.connection.transport.seen happening) (d.after happening)

variable {answer : Request → Response} {c d e : Client} {event : Event} {entries : List Entry}
  {trace trace' : List Entry} {heard heard' : List String}

theorem Passage.run (h : Passage answer c trace heard d) : Run answer c trace d := by
  induction h with
  | start => exact .start
  | own _ _ last ih => exact .step ih last
  | outside _ happening ih =>
    have hStep := Run.step ih
      (show Client.next? answer _ (.transport (·.after happening)) = some (_, []) from rfl)
    rw [List.append_nil] at hStep
    exact hStep

theorem Passage.trans (hFirst : Passage answer c trace heard d)
    (hSecond : Passage answer d trace' heard' e) :
    Passage answer c (trace ++ trace') (heard ++ heard') e := by
  induction hSecond with
  | start => simpa using hFirst
  | own _ hOwn last ih =>
    rw [← List.append_assoc]
    exact .own ih hOwn last
  | outside _ happening ih =>
    rw [← List.append_assoc]
    exact .outside ih happening

theorem Passage.single (hOwn : event.isOwn = true) (h : c.next? answer event = some (d, entries)) :
    Passage answer c entries [] d := .own .start hOwn h

/-- What comes of given acts one after the other, if each of them can be done. -/
def pass? (answer : Request → Response) (c : Client) :
    List Act → Option (List Entry × List String × Client)
  | [] => some ([], [], c)
  | .own event :: rest =>
    if event.isOwn then
      match c.next? answer event with
      | none => none
      | some (d, entries) =>
        (pass? answer d rest).map fun (trace, heard, e) => (entries ++ trace, heard, e)
    else none
  | .outside happening :: rest =>
    (pass? answer (c.after happening) rest).map fun (trace, heard, e) =>
      (trace, c.connection.transport.seen happening ++ heard, e)

theorem passage_of_pass? {acts : List Act} (h : c.pass? answer acts = some (trace, heard, d)) :
    Passage answer c trace heard d := by
  induction acts generalizing c trace heard with
  | nil =>
    obtain ⟨rfl, rest⟩ := Prod.mk.inj (Option.some.inj h)
    obtain ⟨rfl, rfl⟩ := Prod.mk.inj rest
    exact .start
  | cons act acts ih =>
    cases act with
    | own event =>
      simp only [pass?] at h
      split at h
      · rename_i hOwn
        cases hStep : c.next? answer event with
        | none => simp [hStep] at h
        | some next =>
          obtain ⟨e, entries⟩ := next
          simp only [hStep] at h
          obtain ⟨⟨trace', heard', f⟩, hRest, hSame⟩ := Option.map_eq_some_iff.mp h
          simp only [Prod.mk.injEq] at hSame
          obtain ⟨rfl, rfl, rfl⟩ := hSame
          exact (Passage.single hOwn hStep).trans (ih hRest)
      · cases h
    | outside happening =>
      obtain ⟨⟨trace', heard', f⟩, hRest, hSame⟩ := Option.map_eq_some_iff.mp h
      simp only [Prod.mk.injEq] at hSame
      obtain ⟨rfl, rfl, rfl⟩ := hSame
      exact Passage.trans (.outside .start happening) (ih hRest)

end Client
end EditorBridge.Rpc
