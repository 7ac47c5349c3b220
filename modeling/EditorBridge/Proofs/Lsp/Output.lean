import EditorBridge.Lsp.Output
import Mathlib.Data.List.DropRight
/-!
What an output channel shows after any calls through the handles on it. The lines are the latest of
all that were written, and whether the channel was brought to the front depends on all of them, also
on those that are gone.
-/
namespace EditorBridge.Lsp

/-- A call that writes a line. -/
inductive OutputCall where
  | append (level : OutputLevel) (text : String)
  | appendMessage (type : Int) (text : String)

namespace OutputCall

def onto (call : OutputCall) (channel : OutputChannel) : OutputChannel :=
  match call with
  | .append level text => channel.append level text
  | .appendMessage type text => channel.appendMessage type text

/-- The line that a call writes. -/
def line : OutputCall → OutputLine
  | .append level text => ⟨level, text⟩
  | .appendMessage 1 text => ⟨.error, text⟩
  | .appendMessage 2 text => ⟨.warn, text⟩
  | .appendMessage 3 text => ⟨.info, text⟩
  | .appendMessage _ text => ⟨.log, text⟩

end OutputCall

/-- A handle on one of several output channels. Cloning copies the reference, so the clones of a
handle are the handles with its place. The name and the policy of a channel never change and are
found behind the reference too. -/
structure OutputHandle where
  place : Nat
deriving DecidableEq

namespace OutputHandle

def channel? (handle : OutputHandle) (channels : List OutputChannel) : Option OutputChannel :=
  channels[handle.place]?

/-- Makes a call through a handle. -/
def call (channels : List OutputChannel) (made : OutputHandle × OutputCall) : List OutputChannel :=
  channels.modify made.1.place made.2.onto

/-- The lines that calls write through a handle and its clones. -/
def written (handle : OutputHandle) (calls : List (OutputHandle × OutputCall)) : List OutputLine :=
  (calls.filter (·.1 = handle)).map (·.2.line)

end OutputHandle

/-- The levels of the lines that bring a channel of this policy to the front. -/
def RevealPolicy.levels : RevealPolicy → List OutputLevel
  | .info => [.info, .warn, .error]
  | .warn => [.warn, .error]
  | .error => [.error]
  | .never => []

namespace OutputChannel

/-- The channel when these are all the lines that were written to it. -/
def having (channel : OutputChannel) (written : List OutputLine) : OutputChannel :=
  { channel with
    lines := written.rtake channel.capacity
    revealed := written.any fun line => channel.shouldReveal line.level }

variable {channel : OutputChannel} {channels : List OutputChannel} {handle : OutputHandle}

/-- A full buffer without its oldest line, and any other one as it is, holds the latest lines, one
less than there is room for. -/
theorem rtake_evict (written : List OutputLine) (n : Nat) :
    (if (written.rtake (n + 1)).length = n + 1 then (written.rtake (n + 1)).drop 1
      else written.rtake (n + 1)) = written.rtake n := by
  by_cases hFull : n + 1 ≤ written.length
  · have hLength : (written.rtake (n + 1)).length = n + 1 := by
      rw [List.rtake, List.length_drop]
      omega
    rw [if_pos hLength, List.rtake, List.rtake, List.drop_drop]
    congr 1
    omega
  · have hAll (m : Nat) (hRoom : written.length ≤ m) : written.rtake m = written := by
      rw [List.rtake, Nat.sub_eq_zero_of_le hRoom, List.drop_zero]
    rw [hAll (n + 1) (by omega), if_neg (by omega), hAll n (by omega)]

theorem append_having (channel : OutputChannel) (written : List OutputLine) (line : OutputLine) :
    (channel.having written).append line.level line.text = channel.having (written ++ [line]) := by
  obtain ⟨n, hCapacity⟩ : ∃ n, channel.capacity = n + 1 :=
    Nat.exists_eq_add_one.mpr channel.hasRoom
  have hReveals :
      (channel.having written).shouldReveal line.level = channel.shouldReveal line.level := rfl
  simp only [append, hReveals]
  simp only [having, hCapacity, rtake_evict, List.rtake_concat_succ, List.any_append, List.any_cons,
    List.any_nil, Bool.or_false]

theorem onto_eq_append (call : OutputCall) :
    call.onto channel = channel.append call.line.level call.line.text := by
  cases call with
  | append level text => rfl
  | appendMessage type text =>
    have hLine : (OutputCall.appendMessage type text).line = ⟨.ofMessageType type, text⟩ := by
      unfold OutputCall.line OutputLevel.ofMessageType
      split <;> simp_all
    rw [hLine]
    rfl

theorem channel?_call (channels : List OutputChannel) (handle : OutputHandle)
    (made : OutputHandle × OutputCall) :
    handle.channel? (OutputHandle.call channels made) =
      (handle.channel? channels).map fun channel =>
        if made.1 = handle then made.2.onto channel else channel := by
  have hPlace : made.1 = handle ↔ made.1.place = handle.place := by
    cases made.1
    cases handle
    simp
  rw [OutputHandle.channel?, OutputHandle.call, List.getElem?_modify]
  simp only [hPlace]
  rfl

theorem having_after (calls : List (OutputHandle × OutputCall)) {written : List OutputLine}
    (h : handle.channel? channels = some (channel.having written)) :
    handle.channel? (calls.foldl OutputHandle.call channels) =
      some (channel.having (written ++ handle.written calls)) := by
  induction calls generalizing channels written with
  | nil => simpa [OutputHandle.written] using h
  | cons made calls ih =>
    have hCall := channel?_call channels handle made
    rw [h, Option.map_some] at hCall
    by_cases hSame : made.1 = handle
    · rw [if_pos hSame, onto_eq_append, append_having] at hCall
      rw [List.foldl_cons, ih hCall]
      simp [OutputHandle.written, hSame]
    · rw [if_neg hSame] at hCall
      rw [List.foldl_cons, ih hCall]
      simp [OutputHandle.written, hSame]

/-- What a channel of this policy and capacity shows when these lines have been written to it. -/
structure Shows (policy : RevealPolicy) (capacity : Nat) (written : List OutputLine)
    (channel : OutputChannel) : Prop where
  /-- The latest lines are kept, as many as the capacity allows but at least one. -/
  lines : channel.lines = written.rtake (max capacity 1)
  /-- One line that reveals the channel is enough, even if it is gone. -/
  revealed : channel.revealed = true ↔ ∃ line ∈ written, channel.shouldReveal line.level = true
  levels : ∀ level, channel.shouldReveal level = true ↔ level ∈ policy.levels
  never : policy = .never → channel.revealed = false
  plain : (∀ line ∈ written, line.level = .log) → channel.revealed = false

theorem shouldReveal_iff (level : OutputLevel) :
    channel.shouldReveal level = true ↔ level ∈ channel.policy.levels := by
  unfold shouldReveal
  cases channel.policy <;> cases level <;> decide

theorem having_shows (name : String) (policy : RevealPolicy) (capacity : Nat)
    (written : List OutputLine) :
    ((withCapacity name policy capacity).having written).Shows policy capacity written := by
  generalize hCreated : withCapacity name policy capacity = created
  have hPolicy : created.policy = policy := by rw [← hCreated]; rfl
  have hRevealed : (created.having written).revealed = true ↔
      ∃ line ∈ written, (created.having written).shouldReveal line.level = true :=
    List.any_eq_true
  have hLevels (level : OutputLevel) :
      (created.having written).shouldReveal level = true ↔ level ∈ policy.levels := by
    rw [← hPolicy]
    exact shouldReveal_iff level
  refine ⟨by rw [← hCreated]; rfl, hRevealed, hLevels, ?_, ?_⟩
  · rintro rfl
    rw [← Bool.not_eq_true, hRevealed]
    rintro ⟨line, -, hReveals⟩
    exact List.not_mem_nil ((hLevels _).mp hReveals)
  · intro hPlain
    rw [← Bool.not_eq_true, hRevealed]
    rintro ⟨line, hMem, hReveals⟩
    rw [hPlain line hMem] at hReveals
    cases hReveals

/-- After any calls through the clones of the handle on a channel, and through handles on other
channels, the channel shows the latest of the lines that its clones wrote, and knows whether one of
them all has revealed it. -/
theorem channel_shows_written (before behind : List OutputChannel) (name : String)
    (policy : RevealPolicy) (capacity : Nat) (calls : List (OutputHandle × OutputCall)) :
    ∃ channel,
      OutputHandle.channel? ⟨before.length⟩ (calls.foldl OutputHandle.call
        (before ++ withCapacity name policy capacity :: behind)) = some channel ∧
      channel.Shows policy capacity (OutputHandle.written ⟨before.length⟩ calls) := by
  have hNew : OutputHandle.channel? ⟨before.length⟩
      (before ++ withCapacity name policy capacity :: behind) =
        some ((withCapacity name policy capacity).having []) := by
    simp [OutputHandle.channel?, withCapacity, having]
  exact ⟨_, having_after calls hNew, having_shows name policy capacity _⟩

/-- The line that revealed the channel is gone, for there is room for only one. -/
example :
    let calls : List OutputCall := [.appendMessage 1 "down", .appendMessage 7 "up"]
    let channel := calls.foldl (fun channel call => call.onto channel)
      (withCapacity "Java" .error 0)
    channel.lines = [⟨.log, "up"⟩] ∧ channel.revealed = true := by
  decide

end OutputChannel
end EditorBridge.Lsp
