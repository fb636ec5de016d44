import GuidedTours.Json.Token

/-!
Reading a JSON text: a machine with a stack of the lists and objects that are still open takes one
token after another. The text must hold one value and nothing else.
-/

set_option autoImplicit false

namespace GuidedTours.Json

/-- An open list or object with what it holds so far, latest first. A member whose name is no text
makes its object unreadable. -/
inductive Frame where
  | items (done : List Json)
  | members (done : List (String × Json)) (readable : Bool) (name : String)

inductive Expected where
  | value
  | valueOrClose
  | name
  | nameOrClose
  | colon
  | commaOrClose
  | nothing (result : Json)

structure Reading where
  frames : List Frame
  expected : Expected

/-- How deep lists and objects may be nested and still be read. -/
def depthLimit : Nat := 127

/-- Places a finished value in the innermost open list or object. -/
def Reading.place (value : Json) : List Frame → Reading
  | [] => ⟨[], .nothing value⟩
  | .items done :: rest => ⟨.items (value :: done) :: rest, .commaOrClose⟩
  | .members done readable name :: rest =>
    ⟨.members ((name, value) :: done) readable name :: rest, .commaOrClose⟩

/-- Closes a list or an object that has the given open ones around it. -/
def Reading.close (value : Json) (outer : List Frame) : Reading :=
  Reading.place (if outer.length < depthLimit then value else .unreadable) outer

def Reading.startValue (frames : List Frame) : Token → Option Reading
  | .scalar v => some (.place v frames)
  | .string (some s) => some (.place (.text s) frames)
  | .string none => some (.place .unreadable frames)
  | .openList => some ⟨.items [] :: frames, .valueOrClose⟩
  | .openObject => some ⟨.members [] true "" :: frames, .nameOrClose⟩
  | _ => none

def Reading.step (s : Reading) (t : Token) : Option Reading :=
  match s.expected, s.frames, t with
  | .value, frames, t => startValue frames t
  | .valueOrClose, .items done :: rest, .closeList => some (.close (.list done.reverse) rest)
  | .valueOrClose, frames, t => startValue frames t
  | .nameOrClose, .members done _ _ :: rest, .closeObject =>
    some (.close (.object done.reverse) rest)
  | .name, .members done readable _ :: rest, .string s
  | .nameOrClose, .members done readable _ :: rest, .string s =>
    some ⟨.members done (readable && s.isSome) (s.getD "") :: rest, .colon⟩
  | .colon, frames, .colon => some ⟨frames, .value⟩
  | .commaOrClose, .items done :: rest, .comma => some ⟨.items done :: rest, .value⟩
  | .commaOrClose, .items done :: rest, .closeList => some (.close (.list done.reverse) rest)
  | .commaOrClose, .members done readable name :: rest, .comma =>
    some ⟨.members done readable name :: rest, .name⟩
  | .commaOrClose, .members done readable _ :: rest, .closeObject =>
    some (.close (if readable then .object done.reverse else .unreadable) rest)
  | _, _, _ => none

def ofTokens? (tokens : List Token) : Option Json :=
  match tokens.foldlM Reading.step ⟨[], .value⟩ with
  | some ⟨[], .nothing result⟩ => some result
  | _ => none

def parse? (s : String) : Option Json :=
  (tokens? s.toList).bind ofTokens?

end GuidedTours.Json
