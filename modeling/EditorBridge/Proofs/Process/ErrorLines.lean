import EditorBridge.Process.ErrorLines
import EditorBridge.Proofs.Text.Pieces
import EditorBridge.Proofs.Text.WellFormed
import Mathlib.Data.List.TakeWhile
/-!
What the reader of lines makes of a stream. It hands on the lines up to the first one that is not
well-formed text, and there it stops. So it hands on all lines, with what is not text in them
replaced, and reads the stream to its end, exactly if the stream is well-formed.
-/
namespace EditorBridge.Process

/-- What stands between the line feeds of a stream. Behind the last line feed stands the line that is
not complete, with no bytes if there is none. -/
def linesOf (bytes : List UInt8) : List (List UInt8) := bytes.splitOn 10

def completeLines (bytes : List UInt8) : List (List UInt8) := (linesOf bytes).dropLast

/-- The text of a line, what is not text in it replaced, without the blank characters at its end. -/
def lineOf (line : List UInt8) : String := lineText (Utf8.lossy line)

/-- The lines that are worth reporting: those that are not blank. -/
def reported (lines : List (List UInt8)) : List String := (lines.map lineOf).filter (· ≠ "")

variable {line rest bytes : List UInt8} {lines more : List (List UInt8)}

theorem linesOf_last (h : 10 ∉ bytes) : linesOf bytes = [bytes] := List.splitOn_eq_singleton h

theorem linesOf_line (h : 10 ∉ line) (rest : List UInt8) :
    linesOf (line ++ 10 :: rest) = line :: linesOf rest :=
  List.splitOn_append_cons_self_of_not_mem h rest

theorem linesOf_ne_nil (bytes : List UInt8) : linesOf bytes ≠ [] := List.splitOn_ne_nil 10 bytes

theorem completeLines_last (h : 10 ∉ bytes) : completeLines bytes = [] := by
  rw [completeLines, linesOf_last h]
  rfl

theorem completeLines_line (h : 10 ∉ line) (rest : List UInt8) :
    completeLines (line ++ 10 :: rest) = line :: completeLines rest := by
  rw [completeLines, linesOf_line h, List.dropLast_cons_of_ne_nil (linesOf_ne_nil rest)]
  rfl

theorem all_isText_linesOf (bytes : List UInt8) :
    (linesOf bytes).all Utf8.isText = Utf8.isText bytes := by
  induction bytes using Text.pieces_induction (10 : UInt8) with
  | last bytes hLast => simp [linesOf_last hLast]
  | piece line rest hLine ih => rw [linesOf_line hLine, List.all_cons, ih, Utf8.isText_append_lineFeed]

theorem reported_append (lines more : List (List UInt8)) :
    reported (lines ++ more) = reported lines ++ reported more := by
  simp [reported]

theorem reported_cons (line : List UInt8) (lines : List (List UInt8)) :
    reported (line :: lines) = reported [line] ++ reported lines :=
  reported_append [line] lines

theorem reported_singleton (line : List UInt8) :
    reported [line] = if lineOf line = "" then [] else [lineOf line] := by
  by_cases h : lineOf line = "" <;> simp [reported, h]

theorem lineText_lineFeed (text : List Char) : lineText (text ++ ['\n']) = lineText text := by
  have hBlank : Text.isBlank '\n' = true := by decide
  simp [lineText, Text.trimRightChars, hBlank]

/-- A character that is not blank is not lost at the end of a line. -/
theorem lineText_ne_empty {text : List Char} {c : Char} (hChar : c ∈ text)
    (hBlank : Text.isBlank c = false) : lineText text ≠ "" := by
  intro hEmpty
  have hNothing : text.reverse.dropWhile Text.isBlank = [] := by
    simpa [lineText, Text.trimRightChars] using hEmpty
  have hAll := List.dropWhile_eq_nil_iff.mp hNothing c (List.mem_reverse.mpr hChar)
  rw [hBlank] at hAll
  cases hAll

theorem lineOf_ne_empty (h : Utf8.isText line = false) : lineOf line ≠ "" :=
  lineText_ne_empty (Utf8.replacement_mem_lossy h) (by decide)

/-- The line feed at the end of a line does not count. -/
theorem lineOf_lineFeed (h : Utf8.isText line = true) : lineOf (line ++ [10]) = lineOf line := by
  obtain ⟨text, rfl⟩ := Utf8.isText_iff.mp h
  have hFeed : Utf8.encode text ++ [10] = Utf8.encode (text ++ ['\n']) := by
    rw [Utf8.encode_append]
    rfl
  rw [lineOf, lineOf, hFeed, Utf8.lossy_encode, Utf8.lossy_encode, lineText_lineFeed]

/-- A line that is not text is always worth reporting; so none may be missing. -/
theorem reported_takeWhile_eq_iff :
    reported (lines.takeWhile Utf8.isText) = reported lines ↔ ∀ line ∈ lines, Utf8.isText line := by
  constructor
  · intro h
    induction lines with
    | nil => simp
    | cons line lines ih =>
      cases hLine : Utf8.isText line with
      | false =>
        have hText := lineOf_ne_empty hLine
        simp [hLine, reported, hText] at h
      | true =>
        rw [List.takeWhile_cons_of_pos hLine, reported_cons, reported_cons line lines] at h
        exact List.forall_mem_cons.mpr ⟨hLine, ih (List.append_cancel_left h)⟩
  · intro h
    rw [List.takeWhile_eq_self_iff.mpr h]

namespace ErrorLines

theorem feed_append (r : ErrorLines) (first second : List UInt8) :
    r.feed (first ++ second) =
      (((r.feed first).1.feed second).1, (r.feed first).2 ++ ((r.feed first).1.feed second).2) := by
  induction first generalizing r with
  | nil => simp [feed]
  | cons b first ih => simp [feed, ih]

theorem feed_stopped (held bytes : List UInt8) :
    (⟨held, false⟩ : ErrorLines).feed bytes = (⟨held, false⟩, []) := by
  induction bytes with
  | nil => rfl
  | cons b bytes ih => simp [feed, push, ih]

/-- Bytes without a line feed are held. -/
theorem feed_within (held : List UInt8) (h : 10 ∉ bytes) :
    (⟨held, true⟩ : ErrorLines).feed bytes = (⟨bytes.reverse ++ held, true⟩, []) := by
  induction bytes generalizing held with
  | nil => rfl
  | cons b bytes ih =>
    obtain ⟨hByte, hRest⟩ := not_or.mp (List.mem_cons.not.mp h)
    simp [feed, push, Ne.symm hByte, ih _ hRest]

theorem endLine_of_isText {held : List UInt8} (h : Utf8.isText held.reverse = true)
    (reading : Bool) : (⟨held, reading⟩ : ErrorLines).endLine = (empty, reported [held.reverse]) := by
  obtain ⟨text, hText⟩ := Utf8.isText_iff.mp h
  have hDecoded := Utf8.decode?_eq_some_iff.mpr hText
  have hLine : lineOf held.reverse = lineText text := by rw [lineOf, ← hText, Utf8.lossy_encode]
  unfold endLine
  rw [hDecoded, reported_singleton, hLine]
  rfl

theorem endLine_of_not_isText {held : List UInt8} (h : Utf8.isText held.reverse = false)
    (reading : Bool) : (⟨held, reading⟩ : ErrorLines).endLine = (⟨[], false⟩, []) := by
  have hNone : Utf8.decode? held.reverse = none := by simpa [Utf8.isText] using h
  unfold endLine
  rw [hNone]

/-- At its line feed a line is reported if it is text, and if it is not, the reading stops. -/
theorem feed_line (h : 10 ∉ line) : empty.feed (line ++ [10]) =
    if Utf8.isText line then (empty, reported [line]) else (⟨[], false⟩, []) := by
  have hFeed : empty.feed (line ++ [10]) = (⟨10 :: line.reverse, true⟩ : ErrorLines).endLine := by
    rw [feed_append, empty, feed_within [] h]
    simp [feed, push]
  have hHeld : (10 :: line.reverse).reverse = line ++ [10] := by simp
  have hText : Utf8.isText (10 :: line.reverse).reverse = Utf8.isText line := by
    rw [hHeld, Utf8.isText_append_lineFeed, Utf8.isText_nil, Bool.and_true]
  cases hLine : Utf8.isText line with
  | true =>
    rw [hFeed, endLine_of_isText (hText.trans hLine), hHeld, reported_singleton,
      lineOf_lineFeed hLine, ← reported_singleton]
    rfl
  | false =>
    rw [hFeed, endLine_of_not_isText (hText.trans hLine)]
    rfl

/-- The reader hands on the complete lines up to the first one that is not text. It goes on reading
if there is none, and holds the line that is not complete. -/
theorem feed_eq (bytes : List UInt8) : empty.feed bytes =
    (if (completeLines bytes).all Utf8.isText then
        ⟨((linesOf bytes).getLast (linesOf_ne_nil bytes)).reverse, true⟩
      else ⟨[], false⟩,
      reported ((completeLines bytes).takeWhile Utf8.isText)) := by
  induction bytes using Text.pieces_induction (10 : UInt8) with
  | last bytes hLast =>
    rw [empty, feed_within [] hLast]
    simp [completeLines_last hLast, linesOf_last hLast, reported]
  | piece line rest hLine ih =>
    have hFeed : line ++ 10 :: rest = line ++ [10] ++ rest := by simp
    have hLast : (linesOf (line ++ 10 :: rest)).getLast (linesOf_ne_nil _) =
        (linesOf rest).getLast (linesOf_ne_nil rest) := by
      simp only [linesOf_line hLine, List.getLast_cons (linesOf_ne_nil rest)]
    rw [hLast, hFeed, feed_append, feed_line hLine, ← hFeed, completeLines_line hLine]
    cases hText : Utf8.isText line with
    | true =>
      rw [List.takeWhile_cons_of_pos hText, reported_cons line (List.takeWhile _ _), if_pos rfl, ih]
      simp [hText]
    | false => simp [hText, feed_stopped, reported]

theorem feed_lines (bytes : List UInt8) :
    (empty.feed bytes).2 = reported ((completeLines bytes).takeWhile Utf8.isText) := by
  rw [feed_eq]

theorem feed_reading (bytes : List UInt8) :
    (empty.feed bytes).1.reading = (completeLines bytes).all Utf8.isText := by
  rw [feed_eq]
  cases (completeLines bytes).all Utf8.isText <;> rfl

/-- A reader that has stopped holds nothing. -/
theorem feed_stops (h : (empty.feed bytes).1.reading = false) :
    (empty.feed bytes).1 = ⟨[], false⟩ := by
  rw [feed_reading] at h
  rw [feed_eq, h]
  rfl

theorem finish_lines (last : List UInt8) :
    (⟨last.reverse, true⟩ : ErrorLines).finish.2 = reported ([last].takeWhile Utf8.isText) := by
  cases last with
  | nil => simp [finish, Utf8.isText_nil, reported, lineOf, lineText, Text.trimRightChars, Utf8.lossy]
  | cons b rest =>
    have hFinish : (⟨(b :: rest).reverse, true⟩ : ErrorLines).finish.2 =
        (⟨(b :: rest).reverse, true⟩ : ErrorLines).endLine.2 := by
      simp [finish]
    have hHeld : (b :: rest).reverse.reverse = b :: rest := List.reverse_reverse _
    rw [hFinish]
    cases hText : Utf8.isText (b :: rest) with
    | true =>
      rw [endLine_of_isText (by rwa [hHeld]), hHeld, List.takeWhile_cons_of_pos hText]
      rfl
    | false =>
      rw [endLine_of_not_isText (by rwa [hHeld]), List.takeWhile_cons_of_neg (by simp [hText])]
      rfl

/-- At the end of the stream the line that is not complete is handed on as well. -/
theorem feed_finish (bytes : List UInt8) :
    (empty.feed bytes).2 ++ (empty.feed bytes).1.finish.2 =
      reported ((linesOf bytes).takeWhile Utf8.isText) := by
  have hLines : linesOf bytes = completeLines bytes ++ [(linesOf bytes).getLast (linesOf_ne_nil _)] :=
    (List.dropLast_concat_getLast _).symm
  rw [hLines, List.takeWhile_append, feed_eq]
  cases hAll : (completeLines bytes).all Utf8.isText with
  | true =>
    have hWhole : (completeLines bytes).takeWhile Utf8.isText = completeLines bytes :=
      List.takeWhile_eq_self_iff.mpr (List.all_eq_true.mp hAll)
    simp only [hWhole, if_true]
    rw [finish_lines, reported_append]
  | false =>
    have hCut : ((completeLines bytes).takeWhile Utf8.isText).length ≠
        (completeLines bytes).length := by
      intro hLength
      have hWhole := (List.takeWhile_prefix Utf8.isText).eq_of_length hLength
      rw [List.all_eq_true.mpr (List.takeWhile_eq_self_iff.mp hWhole)] at hAll
      cases hAll
    rw [if_neg hCut]
    simp [finish]

theorem finish_stops (r : ErrorLines) : r.finish.1.reading = false := by
  unfold finish
  split <;> rfl

end ErrorLines
end EditorBridge.Process
