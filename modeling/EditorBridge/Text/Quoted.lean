import EditorBridge.Text.Unprintable
/-!
Texts quoted for a message: between double quotes, with the quote, the backslash and every character
that has no glyph of its own escaped.
-/
namespace EditorBridge.Text

def hexDigits (n : Nat) : String := String.ofList (Nat.toDigits 16 n)

/-- A character as it stands between the quotes. -/
def quoteChar (c : Char) : String :=
  if c = '\x00' then "\\0"
  else if c = '\t' then "\\t"
  else if c = '\r' then "\\r"
  else if c = '\n' then "\\n"
  else if c = '"' then "\\\""
  else if c = '\\' then "\\\\"
  else if isUnprintable c then "\\u\x7b" ++ hexDigits c.toNat ++ "\x7d"
  else String.singleton c

/-- The text between its quotes. -/
def quoted (s : String) : String :=
  s.foldl (fun out c => out ++ quoteChar c) "\"" ++ "\""

end EditorBridge.Text
