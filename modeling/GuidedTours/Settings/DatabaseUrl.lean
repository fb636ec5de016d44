import GuidedTours.Settings
import GuidedTours.Settings.Opening

/-!
Addresses of databases: a path, perhaps after a scheme, and perhaps a query of parameters. Of the
parameters four are known, three of them with a fixed set of values. Bytes of the path and of the
query may be written with percent signs; those of the path must spell Unicode text.

A database starts without tables, so one that may only be read cannot be prepared.
-/

set_option autoImplicit false

namespace GuidedTours

open Text

structure DatabaseUrl where
  path : Bytes
  readOnly : Bool := false
  inMemory : Bool := false
  /-- Whether the database is said to be one that nobody changes. -/
  immutable : Bool := false
  /-- The layer of the file system that the database is to use. -/
  layer : Option Bytes := none
deriving DecidableEq

namespace DatabaseUrl

/-- The name and the value of a parameter. -/
abbrev Parameter := Bytes × Bytes

/-- In a query a plus sign stands for a space. -/
def formDecoded (bs : Bytes) : Bytes :=
  percentDecoded (bs.map fun b ↦ if b = '+'.toUInt8 then ' '.toUInt8 else b)

def parameter (bs : Bytes) : Parameter :=
  let (name, value) := cut '=' bs
  (formDecoded name, formDecoded (value.getD []))

/-- The known parameters with the values that they may have; any value will do where none is
listed. -/
def parameters : List (String × List String) := [
  ("mode", ["ro", "rw", "rwc", "memory"]),
  ("cache", ["private", "shared"]),
  ("immutable", ["true", "1", "false", "0"]),
  ("vfs", [])]

def isKnown (p : Parameter) : Bool :=
  parameters.any fun (name, values) ↦
    p.1 = bytes name && (values.isEmpty || values.any (bytes · = p.2))

/-- A mode counts wherever it stands, of the other parameters the last. -/
def ofParameters (path : Bytes) (ps : List Parameter) : DatabaseUrl where
  path := path
  readOnly := ps.contains (bytes "mode", bytes "ro")
  inMemory := ps.contains (bytes "mode", bytes "memory")
  immutable := (ps.reverse.lookup (bytes "immutable")).any
    fun value ↦ value = bytes "true" || value = bytes "1"
  layer := ps.reverse.lookup (bytes "vfs")

def parse? (url : String) : Option DatabaseUrl :=
  let bs := bytes url
  let bs := dropAll (bytes "sqlite://") bs.length bs
  let bs := dropAll (bytes "sqlite:") bs.length bs
  let (path, query) := cut '?' bs
  let path := percentDecoded path
  let ps := ((splitOn '&' (query.getD [])).filter (· ≠ [])).map parameter
  if (String.fromUTF8? ⟨path.toArray⟩).isSome && ps.all isKnown then some (ofParameters path ps)
  else none

/-- With a layer, or if it is immutable, a database is opened by a URI into which its path is
encoded, so the path is nothing but a path, and a zero byte ends it as it does the layer. Otherwise
the path is the name itself. -/
def opening? (u : DatabaseUrl) : Option Opening :=
  let access : Access := ⟨if u.readOnly then .read else .create, u.inMemory⟩
  if u.immutable || u.layer.isSome then
    some {
      path := u.path.takeWhile (· ≠ 0)
      layer := u.layer.map (·.takeWhile (· ≠ 0))
      access
      immutable := u.immutable }
  else Opening.ofName? u.path access

end DatabaseUrl

namespace Settings

inductive ConnectError where
  | invalidUrl (url : String)
  | notOpened
  | notPrepared
deriving DecidableEq

def ConnectError.message : ConnectError → String
  | .invalidUrl url => "invalid database url: " ++ url
  | .notOpened => "failed to open database"
  | .notPrepared => "failed to run migrations"

/-- The number of connections to keep. Each connection to a nameless database in memory would open
one of its own, so there is a single one. -/
def connections (s : Settings) : UInt32 :=
  if occursIn (bytes ":memory:") (bytes s.databaseUrl) then 1 else s.maxConnections

/-- The editor that a program with these settings works with. -/
def connect (s : Settings) : Except ConnectError EditorConfig :=
  match DatabaseUrl.parse? s.databaseUrl with
  | none => .error (.invalidUrl s.databaseUrl)
  | some url =>
    match url.opening?.filter Opening.succeeds with
    | none => .error .notOpened
    | some opening =>
      if s.connections = 0 then .error .notOpened
      else if opening.isWritable then .ok s.editor
      else .error .notPrepared

end Settings

end GuidedTours
