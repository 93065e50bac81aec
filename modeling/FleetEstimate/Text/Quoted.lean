import FleetEstimate.Text.Hidden

/-!
# Quoted text in messages

A message quotes text that came from outside so that every character can be
told: line ends and the like by a letter after a backslash, hidden characters by
their code point, the closing quote and the backslash with a backslash in front.
-/

namespace FleetEstimate.Text

/-- A character inside quotes of the given kind. -/
def escaped (quote c : Char) : String :=
  if c = '\x00' then "\\0"
  else if c = '\t' then "\\t"
  else if c = '\r' then "\\r"
  else if c = '\n' then "\\n"
  else if c = '\\' ∨ c = quote then "\\".push c
  else if isHidden c then "\\u\x7b" ++ String.ofList (Nat.toDigits 16 c.toNat) ++ "\x7d"
  else c.toString

/-- A text in double quotes. -/
def quoted (text : String) : String :=
  "\"" ++ String.join (text.toList.map (escaped '"')) ++ "\""

/-- A character in single quotes. -/
def quotedChar (c : Char) : String :=
  "'" ++ escaped '\'' c ++ "'"

end FleetEstimate.Text
