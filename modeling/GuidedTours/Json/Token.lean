import GuidedTours.Json.Number

/-!
The tokens of a JSON text, found in one pass over its characters. What a string denotes is settled
at its closing quote, where two halves of a surrogate pair written one after the other are joined.
-/

set_option autoImplicit false

namespace GuidedTours.Json

/-- A string with half a surrogate pair is a token that holds no text. -/
inductive Token where
  | openList
  | closeList
  | openObject
  | closeObject
  | comma
  | colon
  | scalar (value : Json)
  | string (value : Option String)

/-- The characters with the given code points, where a high surrogate is joined with the low one
after it. -/
def joinSurrogates : List Nat → Option (List Char)
  | [] => some []
  | n :: rest =>
    if 0xD800 ≤ n ∧ n < 0xDC00 then
      match rest with
      | low :: rest =>
        if 0xDC00 ≤ low ∧ low < 0xE000 then
          (joinSurrogates rest).map
            (Char.ofNat (0x10000 + (n - 0xD800) * 0x400 + (low - 0xDC00)) :: ·)
        else none
      | [] => none
    else if 0xDC00 ≤ n ∧ n < 0xE000 then none
    else (joinSurrogates rest).map (Char.ofNat n :: ·)

/-- What the last characters belong to; characters and code points are held latest first. -/
inductive Lexeme where
  | none
  | word (letters : List Char)
  | number (characters : List Char)
  | string (codes : List Nat)
  | escape (codes : List Nat)
  | codePoint (codes : List Nat) (digits : List Nat)

/-- The tokens so far, latest first, and the unfinished one. -/
structure Lexing where
  tokens : List Token
  current : Lexeme

def shortEscape? (c : Char) : Option Nat :=
  [('"', 0x22), ('\\', 0x5C), ('/', 0x2F), ('b', 8), ('f', 12), ('n', 10), ('r', 13),
    ('t', 9)].lookup c

def literal? (letters : List Char) : Option Json :=
  if letters = ['t', 'r', 'u', 'e'] then some (.bool true)
  else if letters = ['f', 'a', 'l', 's', 'e'] then some (.bool false)
  else if letters = ['n', 'u', 'l', 'l'] then some .null
  else none

def isNumberStart (c : Char) : Bool := c = '-' || c.isDigit

def isNumberPart (c : Char) : Bool :=
  c.isDigit || c = '-' || c = '+' || c = '.' || c = 'e' || c = 'E'

/-- The first character of a token, or one of the four blanks between tokens. -/
def startToken (tokens : List Token) (c : Char) : Option Lexing :=
  if c = ' ' ∨ c = '\t' ∨ c = '\n' ∨ c = '\r' then some ⟨tokens, .none⟩
  else if c = '[' then some ⟨.openList :: tokens, .none⟩
  else if c = ']' then some ⟨.closeList :: tokens, .none⟩
  else if c = '\x7b' then some ⟨.openObject :: tokens, .none⟩
  else if c = '\x7d' then some ⟨.closeObject :: tokens, .none⟩
  else if c = ',' then some ⟨.comma :: tokens, .none⟩
  else if c = ':' then some ⟨.colon :: tokens, .none⟩
  else if c = '"' then some ⟨tokens, .string []⟩
  else if isNumberStart c then some ⟨tokens, .number [c]⟩
  else if c.isLower then some ⟨tokens, .word [c]⟩
  else none

/-- Ends a token that has no closing character of its own. -/
def Lexing.finish (s : Lexing) : Option (List Token) :=
  match s.current with
  | .none => some s.tokens
  | .word letters => (literal? letters.reverse).map (.scalar · :: s.tokens)
  | .number characters => (number? characters.reverse).map (.scalar · :: s.tokens)
  | _ => none

def Lexing.step (s : Lexing) (c : Char) : Option Lexing :=
  match s.current with
  | .none => startToken s.tokens c
  | .word letters =>
    if c.isLower then some ⟨s.tokens, .word (c :: letters)⟩
    else s.finish.bind (startToken · c)
  | .number characters =>
    if isNumberPart c then some ⟨s.tokens, .number (c :: characters)⟩
    else s.finish.bind (startToken · c)
  | .string codes =>
    if c = '"' then
      some ⟨.string ((joinSurrogates codes.reverse).map String.ofList) :: s.tokens, .none⟩
    else if c = '\\' then some ⟨s.tokens, .escape codes⟩
    else if c.toNat < 0x20 then none
    else some ⟨s.tokens, .string (c.toNat :: codes)⟩
  | .escape codes =>
    if c = 'u' then some ⟨s.tokens, .codePoint codes []⟩
    else (shortEscape? c).map fun n ↦ ⟨s.tokens, .string (n :: codes)⟩
  | .codePoint codes digits =>
    (Text.hexDigit? c).map fun d ↦
      if digits.length = 3 then
        ⟨s.tokens, .string (Text.ofDigits 16 (digits ++ [d]) :: codes)⟩
      else ⟨s.tokens, .codePoint codes (digits ++ [d])⟩

def tokens? (cs : List Char) : Option (List Token) :=
  ((cs.foldlM Lexing.step ⟨[], .none⟩).bind Lexing.finish).map List.reverse

end GuidedTours.Json
