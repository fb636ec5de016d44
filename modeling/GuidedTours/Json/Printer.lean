import GuidedTours.Json.Basic
import GuidedTours.Decimal.Shortest
import GuidedTours.Text.Digits

/-!
Writing JSON without blanks. In a string the quote, the backslash and the control characters are
escaped, everything else stands for itself.
-/

set_option autoImplicit false

namespace GuidedTours.Json

def escaped (c : Char) : List Char :=
  if c = '"' then ['\\', '"']
  else if c = '\\' then ['\\', '\\']
  else if c = '\n' then ['\\', 'n']
  else if c = '\r' then ['\\', 'r']
  else if c = '\t' then ['\\', 't']
  else if c.toNat = 8 then ['\\', 'b']
  else if c.toNat = 12 then ['\\', 'f']
  else if c.toNat < 0x20 then '\\' :: 'u' :: (Text.toDigits 16 4 c.toNat).map Text.digitChar
  else [c]

def renderText (s : String) : String :=
  "\"" ++ String.ofList (s.toList.flatMap escaped) ++ "\""

mutual

def render : Json → String
  | .null => "null"
  | .bool true => "true"
  | .bool false => "false"
  | .int n => toString n
  | .double x => String.ofList x.render
  | .text s => renderText s
  | .list items => "[" ++ renderItems items ++ "]"
  | .object members => "\x7b" ++ renderMembers members ++ "\x7d"
  | .unreadable => "null"

def renderItems : List Json → String
  | [] => ""
  | [v] => render v
  | v :: rest => render v ++ "," ++ renderItems rest

def renderMembers : List (String × Json) → String
  | [] => ""
  | [(name, v)] => renderText name ++ ":" ++ render v
  | (name, v) :: rest => renderText name ++ ":" ++ render v ++ "," ++ renderMembers rest

end

end GuidedTours.Json
