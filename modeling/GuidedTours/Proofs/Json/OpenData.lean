import GuidedTours.Json.OpenData
import GuidedTours.Proofs.Ascending

/-!
Open data and what is read where they were written. Reading takes an object that begins with the
reserved name for an embedded text, and no text denotes such an object, so data in which one occurs
never come back. All other data do.
-/

set_option autoImplicit false

namespace GuidedTours

namespace Json

variable {v w : Json} {members expanded canonical : List (String × Json)}

theorem names_of_expandMembers? {denoted : String → Option Json}
    (h : expandMembers? denoted members = some expanded) :
    expanded.map Prod.fst = members.map Prod.fst := by
  induction members generalizing expanded with
  | nil =>
    obtain rfl := Option.some.inj h
    rfl
  | cons m rest ih =>
    simp only [expandMembers?, Option.bind_eq_some_iff, Option.map_eq_some_iff] at h
    obtain ⟨w, -, ws, hws, rfl⟩ := h
    rw [List.map_cons, List.map_cons, ih hws]

theorem names_of_canonicalMembers? (h : canonicalMembers? members = some canonical) :
    canonical.map Prod.fst = members.map Prod.fst := by
  induction members generalizing canonical with
  | nil =>
    obtain rfl := Option.some.inj h
    rfl
  | cons m rest ih =>
    simp only [canonicalMembers?, Option.bind_eq_some_iff, Option.map_eq_some_iff] at h
    obtain ⟨w, -, ws, hws, rfl⟩ := h
    rw [List.map_cons, List.map_cons, ih hws]

theorem beginsEmbedded_iff :
    beginsEmbedded members ↔ (members.map Prod.fst).head? = some embeddedName := by
  cases members <;> simp [beginsEmbedded]

theorem expandWith?_of_begins {denoted : String → Option Json} (h : beginsEmbedded members)
    (hw : expandWith? denoted (.object members) = some w) :
    ∃ s, members = [(embeddedName, .text s)] ∧ denoted s = some w := by
  rw [expandWith?.eq_def] at hw
  simp only [h, if_true] at hw
  split at hw
  next name s =>
    have hname : name = embeddedName := by simpa [beginsEmbedded] using h
    exact ⟨s, by rw [hname], hw⟩
  next => cases hw

theorem expandWith?_of_not_begins {denoted : String → Option Json} (h : ¬ beginsEmbedded members) :
    expandWith? denoted (.object members) = (expandMembers? denoted members).map .object := by
  rw [expandWith?.eq_def]
  simp only [h]
  rfl

/-- The value is an object that would be taken for an embedded text. -/
def Embeds : Json → Prop
  | .object members => beginsEmbedded members
  | _ => False

theorem not_embeds_of_expandWith? {denoted : String → Option Json}
    (hdenoted : ∀ s w, denoted s = some w → ¬ w.Embeds) (h : expandWith? denoted v = some w) :
    ¬ w.Embeds := by
  cases v with
  | object members =>
    by_cases hbegins : beginsEmbedded members
    · obtain ⟨s, -, hs⟩ := expandWith?_of_begins hbegins h
      exact hdenoted s w hs
    · rw [expandWith?_of_not_begins hbegins] at h
      obtain ⟨expanded, hexpanded, rfl⟩ := Option.map_eq_some_iff.mp h
      rwa [Embeds, beginsEmbedded_iff, names_of_expandMembers? hexpanded, ← beginsEmbedded_iff]
  | list items =>
    obtain ⟨expanded, -, rfl⟩ := Option.map_eq_some_iff.mp h
    exact id
  | null | bool _ | int _ | double _ | text _ | unreadable =>
    obtain rfl := Option.some.inj h
    exact id

theorem not_embeds_of_denotedWithin {depth : Nat} {s : String}
    (h : denotedWithin depth s = some w) : ¬ w.Embeds := by
  induction depth generalizing s w with
  | zero => nomatch h
  | succ depth ih =>
    obtain ⟨v, -, hv⟩ := Option.bind_eq_some_iff.mp h
    exact not_embeds_of_expandWith? (fun _ _ hw ↦ ih hw) hv

/-- Bringing a value in order leaves an embedded text an embedded text. -/
theorem embeds_of_canonical? (h : canonical? w = some (.object [(embeddedName, v)])) :
    w.Embeds := by
  cases w with
  | object members =>
    obtain ⟨canonical, hcanonical, hordered⟩ := Option.map_eq_some_iff.mp h
    have hkeys : ∀ k, k ∈ canonical.map Prod.fst ↔ k = embeddedName := by
      intro k
      rw [← Ascending.mem_keys_ofList, Json.object.inj hordered]
      simp
    rw [names_of_canonicalMembers? hcanonical] at hkeys
    cases members with
    | nil => simpa using (hkeys embeddedName).mpr rfl
    | cons m rest =>
      have hfirst : m.1 = embeddedName := (hkeys m.1).mp List.mem_cons_self
      simp [Embeds, beginsEmbedded, hfirst]
  | list items =>
    obtain ⟨canonical, -, hlist⟩ := Option.map_eq_some_iff.mp h
    nomatch hlist
  | null | bool _ | int _ | double _ | text _ | unreadable => nomatch h

theorem members_of_canonical (hmembers : Ascending Prod.fst members)
    (h : ((expandMembers? denoted members).map .object).bind canonical? =
      some (.object members)) :
    (expandMembers? denoted members).bind canonicalMembers? = some members := by
  obtain ⟨v, hv, hcanonical⟩ := Option.bind_eq_some_iff.mp h
  obtain ⟨expanded, hexpanded, rfl⟩ := Option.map_eq_some_iff.mp hv
  obtain ⟨canonical, hmembers', hordered⟩ := Option.map_eq_some_iff.mp hcanonical
  have hnames : canonical.map Prod.fst = members.map Prod.fst :=
    (names_of_canonicalMembers? hmembers').trans (names_of_expandMembers? hexpanded)
  have hascending : Ascending Prod.fst canonical := by
    rw [Ascending, ← List.pairwise_map, hnames, List.pairwise_map]
    exact hmembers
  rw [Ascending.ofList_of_ascending hascending] at hordered
  rw [hexpanded, Option.bind_some, hmembers', Json.object.inj hordered]

mutual

theorem plain_of_reread : ∀ {v : Json}, Canonical v →
    (expandWith? denoted v).bind canonical? = some v → Plain v
  | .list items, hc, h => by
    obtain ⟨w, hw, hcanonical⟩ := Option.bind_eq_some_iff.mp h
    obtain ⟨expanded, hexpanded, rfl⟩ := Option.map_eq_some_iff.mp hw
    obtain ⟨canonical, hitems, hlist⟩ := Option.map_eq_some_iff.mp hcanonical
    refine plainItems_of_reread hc ?_
    rw [hexpanded, Option.bind_some, hitems, Json.list.inj hlist]
  | .object members, hc, h => by
    by_cases hbegins : beginsEmbedded members
    · exfalso
      obtain ⟨w, hw, hcanonical⟩ := Option.bind_eq_some_iff.mp h
      obtain ⟨s, rfl, hs⟩ := expandWith?_of_begins hbegins hw
      exact not_embeds_of_denotedWithin hs (embeds_of_canonical? hcanonical)
    · rw [expandWith?_of_not_begins hbegins] at h
      exact ⟨Bool.eq_false_iff.mpr hbegins,
        plainMembers_of_reread hc.2 (members_of_canonical hc.1 h)⟩
  | .null, _, _ | .bool _, _, _ | .int _, _, _ | .double _, _, _ | .text _, _, _
  | .unreadable, _, _ => trivial

theorem plainItems_of_reread : ∀ {vs : List Json}, CanonicalItems vs →
    (expandItems? denoted vs).bind canonicalItems? = some vs → PlainItems vs
  | [], _, _ => trivial
  | v :: rest, hc, h => by
    simp only [expandItems?, Option.bind_eq_some_iff, Option.map_eq_some_iff] at h
    obtain ⟨_, ⟨w, hw, ws, hws, rfl⟩, hcanonical⟩ := h
    simp only [canonicalItems?, Option.bind_eq_some_iff, Option.map_eq_some_iff] at hcanonical
    obtain ⟨u, hu, us, hus, heq⟩ := hcanonical
    obtain ⟨huv, hrest⟩ := List.cons.inj heq
    refine ⟨plain_of_reread hc.1 ?_, plainItems_of_reread hc.2 ?_⟩
    · rw [hw, Option.bind_some, hu, huv]
    · rw [hws, Option.bind_some, hus, hrest]

theorem plainMembers_of_reread : ∀ {ms : List (String × Json)}, CanonicalMembers ms →
    (expandMembers? denoted ms).bind canonicalMembers? = some ms → PlainMembers ms
  | [], _, _ => trivial
  | (name, v) :: rest, hc, h => by
    simp only [expandMembers?, Option.bind_eq_some_iff, Option.map_eq_some_iff] at h
    obtain ⟨_, ⟨w, hw, ws, hws, rfl⟩, hcanonical⟩ := h
    simp only [canonicalMembers?, Option.bind_eq_some_iff, Option.map_eq_some_iff] at hcanonical
    obtain ⟨u, hu, us, hus, heq⟩ := hcanonical
    obtain ⟨hpair, hrest⟩ := List.cons.inj heq
    refine ⟨plain_of_reread hc.1 ?_, plainMembers_of_reread hc.2 ?_⟩
    · rw [hw, Option.bind_some, hu, (Prod.mk.inj hpair).2]
    · rw [hws, Option.bind_some, hus, hrest]

end

end Json

namespace OpenData

/-- No object inside the data begins with the reserved name. -/
def Plain (d : OpenData) : Prop := Json.PlainMembers d.members

/-- Data are read back exactly if they are plain. -/
theorem ofJson?_toJson_iff {d : OpenData} : ofJson? d.toJson = some d ↔ d.Plain := by
  refine ⟨fun h ↦ ?_, ofJson?_toJson⟩
  unfold ofJson? at h
  split at h
  next members hread =>
    obtain rfl := congrArg OpenData.members (Option.some.inj h)
    exact Json.plainMembers_of_reread d.canonical.2
      (Json.members_of_canonical d.canonical.1 hread)
  next => nomatch h

end OpenData

end GuidedTours
