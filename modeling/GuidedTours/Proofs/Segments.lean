import GuidedTours.Proofs.Lists
import GuidedTours.Segment
import Mathlib.Data.List.Range

/-!
What an upsert makes of a list of segments. The entries are taken one after the other and the list
grows meanwhile, but which entries rename a segment and which add one can be told from the original
list alone, as long as no entry has the id of a segment that the same upsert adds. The existing
segments are then the front of the result, each with the name that the last entry for it gives, and
the added ones follow in the order of their entries.
-/

set_option autoImplicit false

namespace GuidedTours

namespace Segment

variable {fresh : Nat → String} {segments incoming rest : List Segment} {s entry : Segment}

/-- The name of a segment once all entries are taken in: the last entry with its id and a name
decides. -/
def nameAfter (incoming : List Segment) (s : Segment) : String :=
  ((incoming.filter fun entry ↦ entry.id = s.id ∧ entry.name ≠ "").getLast?.map name).getD s.name

/-- The segments as the entries rename them. -/
def renamed (incoming segments : List Segment) : List Segment :=
  segments.map fun s ↦ { s with name := nameAfter incoming s }

/-- The entries with a name and without one of the known ids. -/
def additions (known : List String) (incoming : List Segment) : List Segment :=
  incoming.filter fun entry ↦ entry.name ≠ "" ∧ (entry.id = "" ∨ entry.id ∉ known)

/-- The entries as segments with ids of their own. -/
def numbered (fresh : Nat → String) (entries : List Segment) : List Segment :=
  entries.mapIdx fun k entry ↦ { entry with id := fresh k }

/-- The first so many generated ids differ from each other and from all those in use. -/
structure FreshFor (fresh : Nat → String) (count : Nat) (used : List String) : Prop where
  distinct : ((List.range count).map fresh).Nodup
  unused : ∀ k < count, fresh k ∉ used

theorem nameAfter_cons : nameAfter (entry :: rest) s =
    if entry.id = s.id ∧ entry.name ≠ "" then nameAfter rest { s with name := entry.name }
    else nameAfter rest s := by
  rw [nameAfter, List.filter_cons]
  by_cases h : entry.id = s.id ∧ entry.name ≠ ""
  · rw [if_pos (by simpa using h), if_pos h, List.getLast?_cons, nameAfter]
    cases (rest.filter fun entry ↦ entry.id = s.id ∧ entry.name ≠ "").getLast? <;> rfl
  · rw [if_neg (by simpa using h), if_neg h, nameAfter]

theorem map_id_renamed : (renamed incoming segments).map id = segments.map id := by
  rw [renamed, List.map_map]
  rfl

theorem renamed_nil : renamed [] segments = segments :=
  List.map_id segments

/-- An entry without a name or with another id is nothing to the segments. -/
theorem renamed_cons_of_forall (h : ∀ s ∈ segments, ¬ (entry.id = s.id ∧ entry.name ≠ "")) :
    renamed (entry :: rest) segments = renamed rest segments := by
  refine List.map_congr_left fun s hs ↦ ?_
  rw [nameAfter_cons, if_neg (h s hs)]

/-- An entry for a segment counts until a later one for the same segment. -/
theorem renamed_cons (hids : (segments.map id).Nodup) (hname : entry.name ≠ "") :
    renamed (entry :: rest) segments = renamed rest
      (modifyFirst (·.id = entry.id) (fun s ↦ { s with name := entry.name }) segments) := by
  rw [modifyFirst_key_eq_map hids, renamed, renamed, List.map_map]
  refine List.map_congr_left fun s _ ↦ ?_
  rw [nameAfter_cons]
  by_cases hid : s.id = entry.id
  · rw [if_pos ⟨hid.symm, hname⟩, Function.comp_apply, if_pos hid]
  · rw [if_neg fun hentry ↦ hid hentry.1.symm, Function.comp_apply, if_neg hid]

theorem map_id_numbered (entries : List Segment) :
    (numbered fresh entries).map id = (List.range entries.length).map fresh :=
  List.ext_getElem (by simp [numbered]) fun k _ _ ↦ by simp [numbered]

theorem numbered_cons (n : Nat) (entries : List Segment) :
    numbered (fun k ↦ fresh (n + k)) (entry :: entries) =
      { entry with id := fresh n } :: numbered (fun k ↦ fresh (n + 1 + k)) entries := by
  rw [numbered, List.mapIdx_cons, numbered]
  simp only [Nat.add_zero, Nat.add_assoc, Nat.add_comm 1]

section Entry

/-! What one entry does. -/

variable {n : Nat} {added : List Segment}

theorem additions_cons_of_nameless {known : List String} (hname : entry.name = "") :
    additions known (entry :: rest) = additions known rest :=
  List.filter_cons_of_neg (by simp [hname])

theorem additions_cons_of_mem {known : List String} (hempty : entry.id ≠ "")
    (hknown : entry.id ∈ known) : additions known (entry :: rest) = additions known rest :=
  List.filter_cons_of_neg (by simp [hempty, hknown])

theorem additions_cons {known : List String} (hname : entry.name ≠ "")
    (hunknown : entry.id = "" ∨ entry.id ∉ known) :
    additions known (entry :: rest) = entry :: additions known rest :=
  List.filter_cons_of_pos (by simpa [hname] using hunknown)

theorem upsertFrom_cons_of_mem (hname : entry.name ≠ "") (hempty : entry.id ≠ "")
    (hknown : entry.id ∈ segments.map id) :
    upsertFrom fresh n (segments ++ added) (entry :: rest) = upsertFrom fresh n
      (modifyFirst (·.id = entry.id) (fun s ↦ { s with name := entry.name }) segments ++ added)
      rest := by
  obtain ⟨s, hs, hid⟩ := List.mem_map.mp hknown
  have hany : (segments ++ added).any (·.id = entry.id) :=
    List.any_eq_true.mpr ⟨s, List.mem_append_left added hs, decide_eq_true hid⟩
  rw [upsertFrom, if_neg hname, if_pos ⟨hempty, hany⟩,
    modifyFirst_append_left ⟨s, hs, decide_eq_true hid⟩]

theorem upsertFrom_cons (hname : entry.name ≠ "")
    (hunknown : entry.id = "" ∨ entry.id ∉ segments.map id) :
    upsertFrom fresh n segments (entry :: rest) =
      upsertFrom fresh (n + 1) (segments ++ [{ entry with id := fresh n }]) rest := by
  have hadd : ¬ (entry.id ≠ "" ∧ segments.any (·.id = entry.id)) := by
    rintro ⟨hempty, hany⟩
    obtain ⟨s, hs, hid⟩ := List.any_eq_true.mp hany
    exact (hunknown.resolve_left hempty) (List.mem_map.mpr ⟨s, hs, of_decide_eq_true hid⟩)
  rw [upsertFrom, if_neg hname, if_neg hadd]

end Entry

/-- The segments that were added meanwhile stand behind the original ones. They take no part,
because no entry has the id of one. -/
theorem upsertFrom_append {n : Nat} {added : List Segment} (hids : (segments.map id).Nodup)
    (hnonempty : "" ∉ segments.map id)
    (hadded : ∀ entry ∈ incoming, entry.id ∉ added.map id)
    (hfresh : ∀ k < (additions (segments.map id) incoming).length,
      fresh (n + k) ∉ incoming.map id) :
    upsertFrom fresh n (segments ++ added) incoming = renamed incoming segments ++
      (added ++ numbered (fun k ↦ fresh (n + k)) (additions (segments.map id) incoming)) := by
  induction incoming generalizing n segments added with
  | nil => simp [upsertFrom, renamed_nil, additions, numbered]
  | cons entry rest ih =>
    obtain ⟨hentry, haddedRest⟩ := List.forall_mem_cons.mp hadded
    have hfreshRest : ∀ k < (additions (segments.map id) (entry :: rest)).length,
        fresh (n + k) ∉ rest.map id :=
      fun k hk hmem ↦ hfresh k hk (List.mem_cons_of_mem entry.id hmem)
    by_cases hname : entry.name = ""
    · rw [additions_cons_of_nameless hname] at hfreshRest ⊢
      rw [upsertFrom, if_pos hname, ih hids hnonempty haddedRest hfreshRest,
        renamed_cons_of_forall fun s _ hs ↦ hs.2 hname]
    by_cases hknown : entry.id ∈ segments.map id
    · have hempty : entry.id ≠ "" := fun h ↦ hnonempty (h ▸ hknown)
      have hkept : (modifyFirst (·.id = entry.id) (fun s ↦ { s with name := entry.name })
          segments).map id = segments.map id := map_modifyFirst fun _ _ ↦ rfl
      rw [additions_cons_of_mem hempty hknown] at hfreshRest ⊢
      rw [upsertFrom_cons_of_mem hname hempty hknown, renamed_cons hids hname, ← hkept]
      rw [← hkept] at hids hnonempty hfreshRest
      exact ih hids hnonempty haddedRest hfreshRest
    · have hnew : entry.id ∉ (segments ++ added).map id := by
        simpa using And.intro (by simpa using hknown) (by simpa using hentry)
      rw [additions_cons hname (.inr hknown)] at hfreshRest ⊢
      have hself : fresh n ∉ rest.map id := hfreshRest 0 (Nat.zero_lt_succ _)
      have hlonger : ∀ other ∈ rest,
          other.id ∉ (added ++ [{ entry with id := fresh n }]).map id := by
        intro other hother hmem
        rw [List.map_append, List.mem_append, List.map_singleton, List.mem_singleton] at hmem
        rcases hmem with hmem | hid
        · exact haddedRest other hother hmem
        · exact hself (List.mem_map.mpr ⟨other, hother, hid⟩)
      rw [upsertFrom_cons hname (.inr hnew), List.append_assoc, ih hids hnonempty hlonger ?_,
        renamed_cons_of_forall fun s hs h ↦ hknown (List.mem_map.mpr ⟨s, hs, h.1.symm⟩),
        numbered_cons, List.append_assoc]
      · rfl
      · intro k hk
        have hlater := hfreshRest (k + 1) (Nat.succ_lt_succ hk)
        rwa [Nat.add_right_comm n 1 k]

/-- The original segments stay in order with their ids and icons, each under the last name given to
it, and an entry with a name that is for none of them adds a segment. -/
theorem upsert_renames_and_adds (hids : (segments.map id).Nodup)
    (hnonempty : "" ∉ segments.map id)
    (hfresh : FreshFor fresh (additions (segments.map id) incoming).length
      ((segments ++ incoming).map id)) :
    upsert fresh segments incoming =
        renamed incoming segments ++ numbered fresh (additions (segments.map id) incoming) ∧
      ((upsert fresh segments incoming).map id).Nodup := by
  have hunused : ∀ k < (additions (segments.map id) incoming).length,
      fresh k ∉ segments.map id ∧ fresh k ∉ incoming.map id := by
    intro k hk
    rw [← not_or, ← List.mem_append, ← List.map_append]
    exact hfresh.unused k hk
  have heq : upsert fresh segments incoming =
      renamed incoming segments ++ numbered fresh (additions (segments.map id) incoming) := by
    have hrun : upsertFrom fresh 0 (segments ++ []) incoming = _ :=
      upsertFrom_append hids hnonempty (by simp)
        fun k hk ↦ (Nat.zero_add k).symm ▸ (hunused k hk).2
    simpa only [upsert, List.append_nil, List.nil_append, Nat.zero_add] using hrun
  refine ⟨heq, ?_⟩
  rw [heq, List.map_append, map_id_renamed, map_id_numbered]
  refine hids.append hfresh.distinct ?_
  intro text hold hnew
  obtain ⟨k, hk, rfl⟩ := List.mem_map.mp hnew
  exact (hunused k (List.mem_range.mp hk)).1 hold

theorem upsert_renames_and_adds_mixed :
    let segments : List Segment := [⟨"a", "Sales", "a.svg"⟩, ⟨"b", "Support", "b.svg"⟩]
    let incoming : List Segment := [⟨"b", "Help", "other.svg"⟩, ⟨"", "Guests", "g.svg"⟩,
      ⟨"a", "", ""⟩, ⟨"c", "Partners", ""⟩, ⟨"c", "Resellers", ""⟩, ⟨"b", "Care", ""⟩]
    let fresh := fun k ↦ String.ofList (List.replicate (k + 2) 'x')
    upsert fresh segments incoming = [⟨"a", "Sales", "a.svg"⟩, ⟨"b", "Care", "b.svg"⟩,
        ⟨"xx", "Guests", "g.svg"⟩, ⟨"xxx", "Partners", ""⟩, ⟨"xxxx", "Resellers", ""⟩] ∧
      ((upsert fresh segments incoming).map id).Nodup := by
  intro segments incoming fresh
  have hids : (segments.map id).Nodup := by decide
  have hnonempty : "" ∉ segments.map id := by decide
  have hfresh : FreshFor fresh (additions (segments.map id) incoming).length
      ((segments ++ incoming).map id) := ⟨by decide, by decide⟩
  obtain ⟨heq, hnodup⟩ := upsert_renames_and_adds hids hnonempty hfresh
  exact ⟨heq.trans (by decide), hnodup⟩

end Segment

end GuidedTours
