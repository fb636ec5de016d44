import GuidedTours.Settings.FileUri

/-!
How a database is opened: under which name, on which layer of the file system, and with which
access. A name that is a file URI may settle the layer and change the access by its options, though
no option gives rights that the opening did not have before.

No database exists as a file beforehand. So a database on disk must be one that may be created; one
in memory is always new.
-/

set_option autoImplicit false

namespace GuidedTours

open Text

inductive Rights where
  | read
  | write
  | create
deriving DecidableEq

/-- Each kind of rights comes with those before it. -/
def Rights.rank : Rights → Nat
  | .read => 0
  | .write => 1
  | .create => 2

structure Access where
  rights : Rights
  inMemory : Bool
deriving DecidableEq

namespace Access

def modes : List (String × Access) := [
  ("ro", ⟨.read, false⟩),
  ("rw", ⟨.write, false⟩),
  ("rwc", ⟨.create, false⟩),
  ("memory", ⟨.create, true⟩)]

def ofMode? (name : Bytes) : Option Access :=
  (modes.find? (bytes ·.1 = name)).map (·.2)

/-- In memory everything may be done, and everybody may go there. -/
def allows (current requested : Access) : Bool :=
  current.inMemory || requested.inMemory || requested.rights.rank ≤ current.rights.rank

end Access

structure Opening where
  path : Bytes
  layer : Option Bytes := none
  access : Access
  /-- Whether the database is said to be one that nobody changes. -/
  immutable : Bool := false

namespace Opening

def layers : List String := ["unix", "unix-none", "unix-dotfile", "unix-excl", "memdb"]

def caches : List String := ["shared", "private"]

/-- Takes an option of a URI into account; options that are not known do not matter. -/
def withOption? (o : Opening) (option : Bytes × Bytes) : Option Opening :=
  let (name, value) := option
  if name = bytes "vfs" then some { o with layer := value }
  else if name = bytes "mode" then
    ((Access.ofMode? value).filter o.access.allows).map fun access ↦ { o with access }
  else if name = bytes "cache" then if caches.any (bytes · = value) then some o else none
  else some o

/-- A name with a zero byte cannot be passed on. -/
def ofName? (name : Bytes) (access : Access) : Option Opening :=
  if name.contains 0 then none
  else if FileUri.scheme.isPrefixOf name then do
    let uri ← FileUri.ofSuffix? (name.drop FileUri.scheme.length)
    uri.options.foldlM withOption? { path := uri.path, access, immutable := uri.isImmutable }
  else some { path := name, access }

def hasKnownLayer (o : Opening) : Bool :=
  o.layer.all fun name ↦ layers.any (bytes · = name)

/-- Whether there is no file at all, as for a temporary database, which has no name. -/
def isFileless (o : Opening) : Bool :=
  o.access.inMemory || o.path.isEmpty || o.path = bytes ":memory:"

def isInMemory (o : Opening) : Bool :=
  o.isFileless || o.layer = some (bytes "memdb")

def succeeds (o : Opening) : Bool :=
  o.hasKnownLayer && (o.isInMemory || o.access.rights = .create)

/-- Whether tables can be made in the database. Only a file can be immutable. -/
def isWritable (o : Opening) : Bool :=
  o.access.rights ≠ .read && (o.isFileless || !o.immutable)

end Opening

end GuidedTours
