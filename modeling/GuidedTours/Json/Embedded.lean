import GuidedTours.Json.Reader

/-!
Texts inside values. In open data, an object that begins with the reserved name stands for a value
that is written as a JSON text of its own: the member holds the text, and no other member may
follow. Such a text is read like any other, so it has its own limit of depth and may embed further
texts, each shorter than the one around it.
-/

set_option autoImplicit false

namespace GuidedTours.Json

def embeddedName : String := "$serde_json::private::RawValue"

def beginsEmbedded (members : List (String × Json)) : Bool :=
  members.head?.any (·.1 = embeddedName)

mutual

/-- Replaces every embedded text by what it denotes. -/
def expandWith? (denoted : String → Option Json) : Json → Option Json
  | .list items => (expandItems? denoted items).map .list
  | .object members =>
    if beginsEmbedded members then
      match members with
      | [(_, .text s)] => denoted s
      | _ => none
    else (expandMembers? denoted members).map .object
  | v => some v

def expandItems? (denoted : String → Option Json) : List Json → Option (List Json)
  | [] => some []
  | v :: rest =>
    (expandWith? denoted v).bind fun w ↦ (expandItems? denoted rest).map (w :: ·)

def expandMembers? (denoted : String → Option Json) :
    List (String × Json) → Option (List (String × Json))
  | [] => some []
  | (name, v) :: rest =>
    (expandWith? denoted v).bind fun w ↦ (expandMembers? denoted rest).map ((name, w) :: ·)

end

/-- What an embedded text denotes, if fewer texts than the given number stand one in another. -/
def denotedWithin : Nat → String → Option Json
  | 0, _ => none
  | depth + 1, s => (parse? s).bind (expandWith? (denotedWithin depth))

def denoted (s : String) : Option Json := denotedWithin (s.length + 1) s

def expanded? (v : Json) : Option Json := expandWith? denoted v

/-- Replaces the embedded texts in the members of an object, whatever its first name is. -/
def expandedInside? : Json → Option Json
  | .object members => (expandMembers? denoted members).map .object
  | _ => none

mutual

/-- No object in the value begins with the reserved name. -/
def Plain : Json → Prop
  | .list items => PlainItems items
  | .object members => beginsEmbedded members = false ∧ PlainMembers members
  | _ => True

def PlainItems : List Json → Prop
  | [] => True
  | v :: rest => Plain v ∧ PlainItems rest

def PlainMembers : List (String × Json) → Prop
  | [] => True
  | (_, v) :: rest => Plain v ∧ PlainMembers rest

end

mutual

theorem expandWith?_of_plain {denoted : String → Option Json} :
    ∀ {v : Json}, Plain v → expandWith? denoted v = some v
  | .list items, h => by simp [expandWith?, expandItems?_of_plain h]
  | .object members, h => by simp [expandWith?, h.1, expandMembers?_of_plain h.2]
  | .null, _ | .bool _, _ | .int _, _ | .double _, _ | .text _, _ | .unreadable, _ => rfl

theorem expandItems?_of_plain {denoted : String → Option Json} :
    ∀ {vs : List Json}, PlainItems vs → expandItems? denoted vs = some vs
  | [], _ => rfl
  | v :: rest, h => by
    simp [expandItems?, expandWith?_of_plain h.1, expandItems?_of_plain h.2]

theorem expandMembers?_of_plain {denoted : String → Option Json} :
    ∀ {vs : List (String × Json)}, PlainMembers vs → expandMembers? denoted vs = some vs
  | [], _ => rfl
  | (name, v) :: rest, h => by
    simp [expandMembers?, expandWith?_of_plain h.1, expandMembers?_of_plain h.2]

end

theorem expandedInside?_object_of_plain {members : List (String × Json)}
    (h : PlainMembers members) : expandedInside? (.object members) = some (.object members) := by
  simp [expandedInside?, expandMembers?_of_plain h]

end GuidedTours.Json
