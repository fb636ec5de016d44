import GuidedTours.Editor.Config
import GuidedTours.Text.Blank
import GuidedTours.Text.Digits
import GuidedTours.Text.Quoted

/-!
The settings of the program, read from five variables. A variable that is unset or blank keeps its
default, and any other value must denote something: the first one that does not is an error. Blanks
around a number or a name do not matter, an address is taken as it stands.
-/

set_option autoImplicit false

namespace GuidedTours

structure Settings where
  databaseUrl : String := "sqlite::memory:"
  maxConnections : UInt32 := 5
  editor : EditorConfig := {}
deriving DecidableEq

namespace Settings

inductive Variable where
  | databaseUrl
  | maxConnections
  | deletePolicy
  | concurrency
  | assetBaseUrl
deriving DecidableEq

def Variable.name : Variable → String
  | .databaseUrl => "WAYPOINT_DATABASE_URL"
  | .maxConnections => "WAYPOINT_DATABASE_MAX_CONNECTIONS"
  | .deletePolicy => "WAYPOINT_DELETE_POLICY"
  | .concurrency => "WAYPOINT_CONCURRENCY"
  | .assetBaseUrl => "WAYPOINT_ASSET_BASE_URL"

/-- What a value must be; any text is an address. -/
def Variable.expected : Variable → String
  | .maxConnections => "a positive integer"
  | .deletePolicy => "reconnect_first or reconnect_all"
  | .concurrency => "last_writer_wins or optimistic"
  | _ => "a text"

structure InvalidValue where
  var : Variable
  value : String
deriving DecidableEq

def InvalidValue.message (e : InvalidValue) : String :=
  "invalid value for " ++ e.var.name ++ ": " ++ Text.quoted e.value ++ " (expected " ++
    e.var.expected ++ ")"

/-- A number from 1 to 2 ^ 32 - 1 in decimal digits, perhaps after a plus sign. -/
def connections? (s : String) : Option UInt32 :=
  let cs := match s.toList with
    | '+' :: rest => rest
    | cs => cs
  match Text.spanDigits cs with
  | (d :: ds, []) =>
    let n := Text.ofDigits 10 (d :: ds)
    if 1 ≤ n ∧ n < UInt32.size then some (UInt32.ofNat n) else none
  | _ => none

def deletePolicy? (s : String) : Option DeletePolicy :=
  if s = "reconnect_first" then some .reconnectFirst
  else if s = "reconnect_all" then some .reconnectAll
  else none

def concurrency? (s : String) : Option Concurrency :=
  if s = "last_writer_wins" then some .lastWriterWins
  else if s = "optimistic" then some .optimistic
  else none

/-- The value of a variable, unless it is unset or blank. -/
def given (lookup : String → Option String) (var : Variable) : Option String :=
  (lookup var.name).filter fun value ↦ !Text.isBlankText value

/-- What the value of a variable denotes without the blanks around it, or the default. -/
def denoted {α : Type} (lookup : String → Option String) (var : Variable) (default : α)
    (read : String → Option α) : Except InvalidValue α :=
  match given lookup var with
  | none => .ok default
  | some value =>
    match read (Text.trimmed value) with
    | some a => .ok a
    | none => .error ⟨var, value⟩

def ofVariables (lookup : String → Option String) : Except InvalidValue Settings := do
  let defaults : Settings := {}
  let maxConnections ← denoted lookup .maxConnections defaults.maxConnections connections?
  let deletePolicy ← denoted lookup .deletePolicy defaults.editor.deletePolicy deletePolicy?
  let concurrency ← denoted lookup .concurrency defaults.editor.concurrency concurrency?
  return {
    databaseUrl := (given lookup .databaseUrl).getD defaults.databaseUrl
    maxConnections
    editor := {
      deletePolicy
      concurrency
      assetBaseUrl := (given lookup .assetBaseUrl).getD defaults.editor.assetBaseUrl } }

end Settings

end GuidedTours
