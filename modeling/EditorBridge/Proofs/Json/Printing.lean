import EditorBridge.Json.Printer
/-!
The text of a JSON value in its parts: what is written of a value, of the items of an array and of
the members of an object follows what was there before and does not depend on it.
-/
namespace EditorBridge.Json

/-- What is written of a string, its quotes included. -/
def stringChars (s : String) : List Char := (writeString "" s).toList

/-- What is written of the items of an array; all but a first one stand behind commas. -/
def itemChars (first : Bool) (items : List Json) : List Char := (writeItems "" first items).toList

/-- What is written of the members of an object; all but a first one stand behind commas. -/
def memberChars (first : Bool) (members : List (String × Json)) : List Char :=
  (writeMembers "" first members).toList

/-- The comma in front of what is not the first. -/
def comma (first : Bool) : List Char := if first then [] else [',']

theorem toList_pushComma (out : String) (first : Bool) :
    (if first then out else out.push ',').toList = out.toList ++ comma first := by
  cases first <;> simp [comma]

theorem toList_foldl_push (out : String) (s : List Char) :
    (s.foldl String.push out).toList = out.toList ++ s := by
  induction s generalizing out with
  | nil => simp
  | cons c s ih => rw [List.foldl_cons, ih, String.toList_push, List.append_assoc]; rfl

/-- A string is written between quotes, its characters one by one. -/
theorem toList_writeString (out s : String) :
    (writeString out s).toList = out.toList ++ '"' :: (s.toList.flatMap escapeChar ++ ['"']) := by
  have hAll : ∀ (chars : List Char) (acc : String),
      (chars.foldl (fun acc c => (escapeChar c).foldl String.push acc) acc).toList =
        acc.toList ++ chars.flatMap escapeChar := by
    intro chars
    induction chars with
    | nil => simp
    | cons c chars ih =>
      intro acc
      rw [List.foldl_cons, ih, toList_foldl_push, List.flatMap_cons, List.append_assoc]
  rw [writeString, String.toList_push, hAll, String.toList_push]
  simp

theorem stringChars_eq (s : String) :
    stringChars s = '"' :: (s.toList.flatMap escapeChar ++ ['"']) := by
  rw [stringChars, toList_writeString]
  rfl

mutual

/-- What is written of a value follows what is there. -/
theorem toList_write (out : String) :
    ∀ value : Json, (write out value).toList = out.toList ++ value.text.toList
  | .null | .bool true | .bool false | .number _ => by simp [text, write]
  | .string s => by simp [text, write, toList_writeString]
  | .array items => by
    simp only [text, write, String.toList_push]
    rw [toList_writeItems (out.push '['), toList_writeItems (String.push "" '[')]
    simp
  | .object members => by
    simp only [text, write, String.toList_push]
    rw [toList_writeMembers (out.push '\x7b'), toList_writeMembers (String.push "" '\x7b')]
    simp

theorem toList_writeItems (out : String) (first : Bool) :
    ∀ items : List Json, (writeItems out first items).toList = out.toList ++ itemChars first items
  | [] => by simp [itemChars, writeItems]
  | x :: rest => by
    simp only [itemChars, writeItems]
    rw [toList_writeItems _ false rest, toList_writeItems _ false rest, toList_write _ x,
      toList_write _ x, toList_pushComma, toList_pushComma]
    simp

theorem toList_writeMembers (out : String) (first : Bool) :
    ∀ members : List (String × Json),
      (writeMembers out first members).toList = out.toList ++ memberChars first members
  | [] => by simp [memberChars, writeMembers]
  | (k, v) :: rest => by
    simp only [memberChars, writeMembers]
    rw [toList_writeMembers _ false rest, toList_writeMembers _ false rest, toList_write _ v,
      toList_write _ v, String.toList_push, String.toList_push, toList_writeString,
      toList_writeString, toList_pushComma, toList_pushComma]
    simp

end

theorem itemChars_cons (first : Bool) (x : Json) (rest : List Json) :
    itemChars first (x :: rest) = comma first ++ (x.text.toList ++ itemChars false rest) := by
  rw [itemChars, writeItems, toList_writeItems, toList_write, toList_pushComma]
  simp

theorem memberChars_cons (first : Bool) (k : String) (v : Json) (rest : List (String × Json)) :
    memberChars first ((k, v) :: rest) =
      comma first ++ (stringChars k ++ ':' :: (v.text.toList ++ memberChars false rest)) := by
  rw [memberChars, writeMembers, toList_writeMembers, toList_write, String.toList_push,
    toList_writeString, toList_pushComma, stringChars_eq]
  simp

/-- Behind the first item, every item is written with a comma in front of it. -/
theorem itemChars_false (x : Json) (rest : List Json) :
    itemChars false (x :: rest) = ',' :: itemChars true (x :: rest) := by
  rw [itemChars_cons, itemChars_cons]
  rfl

theorem memberChars_false (member : String × Json) (rest : List (String × Json)) :
    memberChars false (member :: rest) = ',' :: memberChars true (member :: rest) := by
  rw [memberChars_cons, memberChars_cons]
  rfl

theorem toList_text_string (s : String) : (text (.string s)).toList = stringChars s := rfl

theorem toList_text_array (items : List Json) :
    (text (.array items)).toList = '[' :: (itemChars true items ++ [']']) := by
  rw [text, write, String.toList_push, toList_writeItems]
  simp

/-- A record is written as an object is, in the order of its members. -/
theorem recordText_eq (members : List (String × Json)) :
    recordText members = text (.object members) := rfl

theorem toList_text_object (members : List (String × Json)) :
    (text (.object members)).toList = '\x7b' :: (memberChars true members ++ ['\x7d']) := by
  rw [text, write, String.toList_push, toList_writeMembers]
  simp

end EditorBridge.Json
