import GuidedTours.Ascending
import GuidedTours.Json.Embedded

/-!
Open data: objects with any members. They are held in canonical form, every object in them with
its member names in ascending order and each name once, so equal data are equal values. Reading
puts what they denote for the texts embedded in the members and brings any readable value into this
form, of repeated names the last counting. It leaves data alone that have the form and in which no
member's value could be taken for an embedded text.
-/

set_option autoImplicit false

namespace GuidedTours

namespace Json

mutual

def Canonical : Json → Prop
  | .unreadable => False
  | .list items => CanonicalItems items
  | .object members => Ascending Prod.fst members ∧ CanonicalMembers members
  | _ => True

def CanonicalItems : List Json → Prop
  | [] => True
  | v :: rest => Canonical v ∧ CanonicalItems rest

def CanonicalMembers : List (String × Json) → Prop
  | [] => True
  | (_, v) :: rest => Canonical v ∧ CanonicalMembers rest

end

mutual

def canonical? : Json → Option Json
  | .unreadable => none
  | .list items => (canonicalItems? items).map .list
  | .object members =>
    (canonicalMembers? members).map fun ms ↦ .object (Ascending.ofList Prod.fst ms)
  | v => some v

def canonicalItems? : List Json → Option (List Json)
  | [] => some []
  | v :: rest => (canonical? v).bind fun w ↦ (canonicalItems? rest).map (w :: ·)

def canonicalMembers? : List (String × Json) → Option (List (String × Json))
  | [] => some []
  | (name, v) :: rest =>
    (canonical? v).bind fun w ↦ (canonicalMembers? rest).map ((name, w) :: ·)

end

theorem canonicalMembers_iff {members : List (String × Json)} :
    CanonicalMembers members ↔ ∀ m ∈ members, Canonical m.2 := by
  induction members with
  | nil => simp [CanonicalMembers]
  | cons m rest ih => simp [CanonicalMembers, ih]

theorem CanonicalMembers.insert {m : String × Json} {members : List (String × Json)}
    (hm : Canonical m.2) (h : CanonicalMembers members) :
    CanonicalMembers (Ascending.insert Prod.fst m members) := by
  rw [canonicalMembers_iff] at h ⊢
  intro n hn
  rcases Ascending.mem_insert hn with rfl | hn
  · exact hm
  · exact h n hn

theorem CanonicalMembers.ofList {members : List (String × Json)} (h : CanonicalMembers members) :
    CanonicalMembers (Ascending.ofList Prod.fst members) := by
  suffices ∀ done, CanonicalMembers done → CanonicalMembers
      (members.foldl (fun ms m ↦ Ascending.insert Prod.fst m ms) done) from this [] trivial
  induction members with
  | nil => exact fun _ h ↦ h
  | cons m rest ih => exact fun done hd ↦ ih h.2 _ (CanonicalMembers.insert h.1 hd)

mutual

theorem canonical_of_canonical? : ∀ {v w : Json}, canonical? v = some w → Canonical w
  | .unreadable, _, h => by simp [canonical?] at h
  | .list items, w, h => by
    obtain ⟨ws, hws, rfl⟩ := Option.map_eq_some_iff.mp (by simpa [canonical?] using h)
    exact canonicalItems_of_canonicalItems? hws
  | .object members, w, h => by
    obtain ⟨ms, hms, rfl⟩ := Option.map_eq_some_iff.mp (by simpa [canonical?] using h)
    exact ⟨Ascending.ofList_ascending _ _,
      CanonicalMembers.ofList (canonicalMembers_of_canonicalMembers? hms)⟩
  | .null, w, h | .bool _, w, h | .int _, w, h | .double _, w, h | .text _, w, h => by
    simp only [canonical?, Option.some.injEq] at h
    subst h
    trivial

theorem canonicalItems_of_canonicalItems? :
    ∀ {vs ws : List Json}, canonicalItems? vs = some ws → CanonicalItems ws
  | [], _, h => by
    simp only [canonicalItems?, Option.some.injEq] at h
    subst h
    trivial
  | v :: rest, ws, h => by
    simp only [canonicalItems?, Option.bind_eq_some_iff, Option.map_eq_some_iff] at h
    obtain ⟨w, hw, us, hus, rfl⟩ := h
    exact ⟨canonical_of_canonical? hw, canonicalItems_of_canonicalItems? hus⟩

theorem canonicalMembers_of_canonicalMembers? :
    ∀ {vs ws : List (String × Json)}, canonicalMembers? vs = some ws → CanonicalMembers ws
  | [], _, h => by
    simp only [canonicalMembers?, Option.some.injEq] at h
    subst h
    trivial
  | (name, v) :: rest, ws, h => by
    simp only [canonicalMembers?, Option.bind_eq_some_iff, Option.map_eq_some_iff] at h
    obtain ⟨w, hw, us, hus, rfl⟩ := h
    exact ⟨canonical_of_canonical? hw, canonicalMembers_of_canonicalMembers? hus⟩

end

mutual

theorem canonical?_of_canonical : ∀ {v : Json}, Canonical v → canonical? v = some v
  | .unreadable, h => h.elim
  | .list items, h => by simp [canonical?, canonicalItems?_of_canonicalItems h]
  | .object members, h => by
    simp [canonical?, canonicalMembers?_of_canonicalMembers h.2,
      Ascending.ofList_of_ascending h.1]
  | .null, _ | .bool _, _ | .int _, _ | .double _, _ | .text _, _ => rfl

theorem canonicalItems?_of_canonicalItems :
    ∀ {vs : List Json}, CanonicalItems vs → canonicalItems? vs = some vs
  | [], _ => rfl
  | v :: rest, h => by
    simp [canonicalItems?, canonical?_of_canonical h.1, canonicalItems?_of_canonicalItems h.2]

theorem canonicalMembers?_of_canonicalMembers :
    ∀ {vs : List (String × Json)}, CanonicalMembers vs → canonicalMembers? vs = some vs
  | [], _ => rfl
  | (name, v) :: rest, h => by
    simp [canonicalMembers?, canonical?_of_canonical h.1,
      canonicalMembers?_of_canonicalMembers h.2]

end

end Json

structure OpenData where
  members : List (String × Json)
  canonical : (Json.object members).Canonical

namespace OpenData

def empty : OpenData := ⟨[], List.Pairwise.nil, trivial⟩

def get? (d : OpenData) (name : String) : Option Json :=
  d.members.lookup name

def insert (d : OpenData) (name : String) (value : Json) (h : value.Canonical) : OpenData :=
  ⟨Ascending.insert Prod.fst (name, value) d.members,
    Ascending.insert_ascending d.canonical.1, Json.CanonicalMembers.insert h d.canonical.2⟩

/-- The data themselves are never an embedded text. -/
def ofJson? (v : Json) : Option OpenData :=
  match h : v.expandedInside?.bind Json.canonical? with
  | some (.object members) => some ⟨members, by
      obtain ⟨_, _, hw⟩ := Option.bind_eq_some_iff.mp h
      exact Json.canonical_of_canonical? hw⟩
  | _ => none

def toJson (d : OpenData) : Json := .object d.members

theorem ofJson?_toJson {d : OpenData} (hd : Json.PlainMembers d.members) :
    ofJson? d.toJson = some d := by
  have h : d.toJson.expandedInside?.bind Json.canonical? = some (.object d.members) := by
    rw [toJson, Json.expandedInside?_object_of_plain hd]
    exact Json.canonical?_of_canonical d.canonical
  unfold ofJson?
  split
  next members eq =>
    rw [h] at eq
    simp only [Option.some.injEq, Json.object.injEq] at eq
    subst eq
    rfl
  next no => exact (no d.members h).elim

end OpenData

end GuidedTours
