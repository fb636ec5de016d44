import GuidedTours.Proofs.Editor.Revise
import GuidedTours.Proofs.Editor.Schedule

/-!
Where the steps of an updated flow come from. Edits of the tree move steps about, but of what a step
holds apart from its parent they change little: a deletion drops one entry, and an incoming step
gives its data to the entry with its id, or is appended if there is none. So an update keeps a
register of entries by id. Each id goes back to a step that was not deleted, or else to the first
incoming one with the id, and the last incoming one decides on the data.
-/

set_option autoImplicit false

namespace GuidedTours

/-- A step apart from its parent. -/
structure StepEntry where
  id : String
  data : StepData
  opts : StepOpts

def Step.entry (s : Step) : StepEntry := ⟨s.id, s.data, s.opts⟩

@[simp] theorem Step.id_entry (s : Step) : s.entry.id = s.id := rfl

theorem map_id_entry (steps : List Step) :
    (steps.map Step.entry).map StepEntry.id = steps.map Step.id := List.map_map

namespace StepEntry

variable {entries incoming : List StepEntry} {e old : StepEntry} {id : String}

def find? (entries : List StepEntry) (id : String) : Option StepEntry :=
  entries.find? (·.id = id)

/-- The entry with the id of the incoming one gets its data. If there is none, the incoming one is
appended. -/
def register (entries : List StepEntry) (e : StepEntry) : List StepEntry :=
  if entries.any (·.id = e.id) then
    modifyFirst (·.id = e.id) (fun old ↦ { old with data := e.data }) entries
  else entries ++ [e]

theorem find?_append (entries incoming : List StepEntry) (id : String) :
    find? (entries ++ incoming) id = (find? entries id).or (find? incoming id) :=
  List.find?_append

theorem find?_singleton : find? [e] id = if e.id = id then some e else none := by
  rw [find?, List.find?_singleton]
  simp only [decide_eq_true_eq]

theorem any_iff : entries.any (·.id = id) ↔ id ∈ entries.map StepEntry.id := by
  simp

theorem map_id_register : (register entries e).map StepEntry.id =
    if e.id ∈ entries.map StepEntry.id then entries.map StepEntry.id
    else entries.map StepEntry.id ++ [e.id] := by
  unfold register
  by_cases hknown : e.id ∈ entries.map StepEntry.id
  · rw [if_pos (any_iff.mpr hknown), if_pos hknown]
    exact map_modifyFirst fun _ _ ↦ rfl
  · rw [if_neg (mt any_iff.mp hknown), if_neg hknown, List.map_append, List.map_singleton]

/-- What is registered under an id is what stood there, or the incoming entry, with the data of the
latter if it has the id. -/
theorem find?_register : find? (register entries e) id =
    (find? (entries ++ [e]) id).map fun old ↦
      if e.id = id then { old with data := e.data } else old := by
  unfold register
  by_cases hknown : e.id ∈ entries.map StepEntry.id
  · rw [if_pos (any_iff.mpr hknown)]
    by_cases hid : e.id = id
    · subst hid
      have hsome : (find? entries e.id).isSome := by simpa [find?] using hknown
      obtain ⟨old, hold⟩ := Option.isSome_iff_exists.mp hsome
      have hchanged : find? (modifyFirst (·.id = e.id) (fun old ↦ { old with data := e.data })
          entries) e.id = (find? entries e.id).map fun old ↦ { old with data := e.data } :=
        find?_modifyFirst_self fun _ ho ↦ ho
      rw [find?_append, hold, Option.some_or, Option.map_some, if_pos rfl]
      exact hchanged.trans (congrArg _ hold)
    · have hpassed : ∀ o : StepEntry, decide (o.id = e.id) → ¬ decide (o.id = id) := by
        intro o ho
        simpa [of_decide_eq_true ho] using hid
      have hkept : find? (modifyFirst (·.id = e.id) (fun old ↦ { old with data := e.data })
          entries) id = find? entries id := find?_modifyFirst_of_forall hpassed hpassed
      simp only [find?_append, find?_singleton, hid, if_false, Option.or_none, Option.map_id']
      exact hkept
  · rw [if_neg (mt any_iff.mp hknown)]
    by_cases hid : e.id = id
    · subst hid
      have hnone : find? entries e.id = none := by simpa [find?] using hknown
      simp [find?_append, find?_singleton, hnone]
    · simp [hid]

/-- The ids in the order in which they first come up. -/
theorem map_id_foldl_register : (incoming.foldl register entries).map StepEntry.id =
    entries.map StepEntry.id ++
      ((incoming.map StepEntry.id).filter (· ∉ entries.map StepEntry.id)).eraseDups := by
  induction incoming generalizing entries with
  | nil => simp
  | cons e rest ih =>
    rw [List.foldl_cons, ih, map_id_register, List.map_cons]
    by_cases hknown : e.id ∈ entries.map StepEntry.id
    · rw [if_pos hknown, List.filter_cons_of_neg (by simpa using hknown)]
    · have hothers : ((rest.map StepEntry.id).filter
          (· ∉ entries.map StepEntry.id ++ [e.id])) =
          ((rest.map StepEntry.id).filter (· ∉ entries.map StepEntry.id)).filter
            fun id ↦ !id == e.id := by
        rw [List.filter_filter]
        refine List.filter_congr fun id _ ↦ ?_
        by_cases hid : id = e.id <;> simp [hid]
      rw [if_neg hknown, List.filter_cons_of_pos (by simpa using hknown), List.eraseDups_cons,
        hothers, List.append_assoc, List.singleton_append]

/-- The first of all entries with an id is the one that stays, with the data of the last one that
came in. -/
theorem find?_foldl_register : find? (incoming.foldl register entries) id =
    (find? (entries ++ incoming) id).map fun old ↦
      { old with data := ((find? incoming.reverse id).map StepEntry.data).getD old.data } := by
  induction incoming generalizing entries with
  | nil => simp [find?]
  | cons e rest ih =>
    have hlast : find? (e :: rest).reverse id =
        (find? rest.reverse id).or (if e.id = id then some e else none) := by
      rw [List.reverse_cons, find?_append, find?_singleton]
    have hfirst : find? (entries ++ e :: rest) id =
        (find? (entries ++ [e]) id).or (find? rest id) := by
      rw [← find?_append, List.append_assoc, List.singleton_append]
    rw [List.foldl_cons, ih, find?_append, find?_register, hlast, hfirst]
    cases hfound : find? (entries ++ [e]) id with
    | none =>
      have hid : e.id ≠ id := by
        rintro rfl
        simp [find?_append, find?_singleton] at hfound
      simp [hid]
    | some old =>
      by_cases hid : e.id = id
      · cases find? rest.reverse id <;> simp [hid]
      · simp [hid]

end StepEntry

open StepEntry StepTree

namespace StepTree

variable {steps result : List Step} {removed incoming : Step} {id : String}

theorem find?_entries : StepEntry.find? (steps.map Step.entry) id =
    (find? steps id).map Step.entry := List.find?_map

/-- A deletion drops one entry, whichever children move up. -/
theorem map_entry_delete {policy : DeletePolicy}
    (h : delete policy id steps = some (removed, result)) :
    result.map Step.entry = (steps.map Step.entry).eraseP (·.id = id) := by
  obtain ⟨other, -, heq⟩ := Option.map_eq_some_iff.mp h
  obtain ⟨rfl, rfl⟩ := Prod.mk.inj heq
  have herased : (steps.map Step.entry).eraseP (·.id = id) =
      (steps.eraseP (·.id = id)).map Step.entry := List.eraseP_map
  rw [herased]
  cases policy with
  | reconnectFirst => exact map_modifyFirst fun _ _ ↦ rfl
  | reconnectAll =>
    rw [List.map_map]
    refine List.map_congr_left fun t _ ↦ ?_
    show (if t.parent? = some id then t.setParent other.parent? else t).entry = t.entry
    split <;> rfl

/-- An incoming step is registered, whether it replaces one, moves it or is spliced in. -/
theorem map_entry_upsert (h : upsert steps incoming = .ok result) :
    result.map Step.entry = register (steps.map Step.entry) incoming.entry := by
  have hknown : (steps.map Step.entry).any (·.id = incoming.entry.id) ↔
      ∃ s ∈ steps, s.id = incoming.id := by
    rw [any_iff, map_id_entry, List.mem_map]
    rfl
  obtain ⟨-, ⟨hold, hreplace⟩ | ⟨hnew, hinsert⟩⟩ := upsert_cases h
  · rw [register, if_pos (hknown.mpr hold)]
    obtain ⟨-, rfl | ⟨p, -, -, -, rfl⟩⟩ := replace_cases hreplace
    · exact map_modifyFirst_of_corresponds (fun _ _ ↦ rfl) fun _ _ _ ↦ rfl
    · exact map_modifyFirst_of_corresponds (fun _ _ ↦ rfl) fun _ _ _ ↦ rfl
  · have hunknown : ¬ ∃ s ∈ steps, s.id = incoming.id := fun ⟨s, hs, hid⟩ ↦ hnew s hs hid
    rw [register, if_neg (mt hknown.mp hunknown)]
    obtain ⟨-, rfl⟩ := insert_cases hinsert
    have hspliced : (modifyFirst (·.parent? = incoming.parent?)
        (Step.setParent (some incoming.id)) steps).map Step.entry = steps.map Step.entry :=
      map_modifyFirst fun _ _ ↦ rfl
    rw [List.map_append, hspliced, List.map_singleton]

end StepTree

theorem map_entry_deleteSteps {policy : DeletePolicy} {steps : List Step}
    (distinct : (steps.map Step.id).Nodup) (ids : List String) :
    (deleteSteps policy steps ids).map Step.entry =
      (steps.map Step.entry).filter (·.id ∉ ids) := by
  induction ids generalizing steps with
  | nil => simp [deleteSteps]
  | cons id ids ih =>
    have hnext : (((StepTree.delete policy id steps).map Prod.snd).getD steps).map Step.entry =
        (steps.map Step.entry).filter (·.id ≠ id) := by
      have hdistinct : ((steps.map Step.entry).map StepEntry.id).Nodup := by
        rwa [map_id_entry]
      rw [← eraseP_key_eq_filter hdistinct]
      cases hdelete : StepTree.delete policy id steps with
      | none =>
        have hnone : ∀ s ∈ steps, s.id ≠ id :=
          StepTree.find?_eq_none_iff.mp (Option.map_eq_none_iff.mp hdelete)
        exact (List.eraseP_of_forall_not (by simpa using hnone)).symm
      | some found => exact StepTree.map_entry_delete hdelete
    have hdistinct : ((((StepTree.delete policy id steps).map Prod.snd).getD steps).map
        Step.id).Nodup := by
      rw [← map_id_entry, hnext]
      rw [← map_id_entry] at distinct
      exact distinct.sublist (List.filter_sublist.map _)
    have hrest := ih hdistinct
    rw [hnext, List.filter_filter] at hrest
    refine hrest.trans (List.filter_congr fun e _ ↦ ?_)
    by_cases hid : e.id = id <;> simp [hid]

theorem map_entry_upsertSteps {steps incoming result : List Step}
    (h : upsertSteps steps incoming = .ok result) :
    result.map Step.entry = (incoming.map Step.entry).foldl register (steps.map Step.entry) := by
  induction incoming generalizing steps with
  | nil => rw [← Except.ok.inj h, List.map_nil, List.foldl_nil]
  | cons s rest ih =>
    rw [upsertSteps, List.foldlM_cons] at h
    obtain ⟨next, hupsert, hrest⟩ := bind_eq_ok_iff.mp h
    rw [ih hrest, StepTree.map_entry_upsert hupsert, List.map_cons, List.foldl_cons]

namespace FlowUpdate

variable {u : FlowUpdate} {policy : DeletePolicy} {steps result : List Step}

/-- The replaced steps and the new ones, in the order in which they are applied. -/
def incomingSteps (u : FlowUpdate) : List Step := u.updatedSteps ++ u.newSteps

/-- The steps that are not deleted. -/
def keptSteps (u : FlowUpdate) (steps : List Step) : List Step :=
  steps.filter (·.id ∉ u.deletedSteps)

/-- The step that an id goes back to: the kept one, or else the first incoming one. -/
def origin? (u : FlowUpdate) (steps : List Step) (id : String) : Option Step :=
  (StepTree.find? (u.keptSteps steps) id).or (StepTree.find? u.incomingSteps id)

def lastIncoming? (u : FlowUpdate) (id : String) : Option Step :=
  StepTree.find? u.incomingSteps.reverse id

theorem map_entry_steps (distinct : (steps.map Step.id).Nodup)
    (h : u.steps policy steps = .ok result) : result.map Step.entry =
      (u.incomingSteps.map Step.entry).foldl register ((u.keptSteps steps).map Step.entry) := by
  have hkept : (u.keptSteps steps).map Step.entry =
      (steps.map Step.entry).filter (·.id ∉ u.deletedSteps) := by
    rw [List.filter_map]
    rfl
  rw [hkept, ← map_entry_deleteSteps distinct]
  exact map_entry_upsertSteps h

theorem map_id_steps (distinct : (steps.map Step.id).Nodup)
    (h : u.steps policy steps = .ok result) : result.map Step.id =
      (u.keptSteps steps).map Step.id ++
        ((u.incomingSteps.map Step.id).filter (· ∉ (u.keptSteps steps).map Step.id)).eraseDups := by
  rw [← map_id_entry, map_entry_steps distinct h, map_id_foldl_register, map_id_entry,
    map_id_entry]

theorem entry_find?_steps (distinct : (steps.map Step.id).Nodup)
    (h : u.steps policy steps = .ok result) (id : String) :
    (StepTree.find? result id).map Step.entry =
      (u.origin? steps id).map fun origin ↦ { origin.entry with
        data := ((u.lastIncoming? id).map Step.data).getD origin.data } := by
  rw [← StepTree.find?_entries, map_entry_steps distinct h, find?_foldl_register,
    StepEntry.find?_append, StepTree.find?_entries, StepTree.find?_entries, ← List.map_reverse,
    StepTree.find?_entries, ← Option.map_or, Option.map_map, Option.map_map]
  rfl

end FlowUpdate

/-- Working out the outline changes the flags of a step, and its segment only if it has none. -/
theorem StepTree.mem_marked {steps marked : List Step} {found : Outline} {t : Step}
    (h : StepTree.outline steps = .ok (found, marked)) (ht : t ∈ marked) :
    ∃ s ∈ steps, t.id = s.id ∧ t.data = s.data ∧
      t.opts = { s.opts with
        isSource := t.opts.isSource, isFinal := t.opts.isFinal, segmentId := t.opts.segmentId } ∧
      ∀ name, s.segment? = some name → t.segment? = some name := by
  rcases outline_eq_ok_iff.mp h with ⟨-, hempty⟩ | ⟨top, htop, heq⟩
  · rw [(Prod.mk.inj hempty).2] at ht
    exact absurd ht List.not_mem_nil
  · rw [(Prod.mk.inj heq).2] at ht
    obtain ⟨s, hs, rfl⟩ := List.mem_map.mp ht
    refine ⟨s, hs, rfl, rfl, rfl, fun name hname ↦ ?_⟩
    rcases segmentId_mark_cases _ htop hs with hkept | ⟨huntagged, -⟩
    · exact (congrArg named? hkept).trans hname
    · simp [huntagged] at hname

/-- No step is lost or duplicated by an update. The kept steps come first, then the others in the
order in which they first come in; each has the data that came in last for it, and for the rest the
options of the step that it goes back to. -/
theorem FlowUpdate.every_step_accounted_for {u : FlowUpdate} {config : EditorConfig}
    {fresh : Nat → String} {f g : Flow} {found : Outline} (distinct : (f.steps.map Step.id).Nodup)
    (h : u.apply config fresh f = .ok (found, g)) :
    g.steps.map Step.id = (u.keptSteps f.steps).map Step.id ++
      ((u.incomingSteps.map Step.id).filter
        (· ∉ (u.keptSteps f.steps).map Step.id)).eraseDups ∧
    (g.steps.map Step.id).Nodup ∧
    ∀ t ∈ g.steps, ∃ origin, u.origin? f.steps t.id = some origin ∧
      t.data = ((u.lastIncoming? t.id).map Step.data).getD origin.data ∧
      t.opts = { origin.opts with
        isSource := t.opts.isSource, isFinal := t.opts.isFinal, segmentId := t.opts.segmentId } ∧
      ∀ name, origin.segment? = some name → t.segment? = some name := by
  obtain ⟨steps, dependsOn, hsteps, -, hrefresh⟩ := apply_cases h
  obtain ⟨marked, houtline, rfl⟩ := Flow.refresh_eq_ok_iff.mp hrefresh
  have hdistinct : (steps.map Step.id).Nodup := (exists_outline_eq_ok_iff.mp ⟨_, houtline⟩).1
  have hids : marked.map Step.id = steps.map Step.id := by
    rcases outline_eq_ok_iff.mp houtline with ⟨rfl, hempty⟩ | ⟨top, -, heq⟩
    · rw [(Prod.mk.inj hempty).2]
    · rw [(Prod.mk.inj heq).2]
      exact map_id_marked
  refine ⟨hids.trans (map_id_steps distinct hsteps), hids ▸ hdistinct, fun t ht ↦ ?_⟩
  obtain ⟨s, hs, hid, hdata, hopts, hsegment⟩ := StepTree.mem_marked houtline ht
  have hentry := entry_find?_steps distinct hsteps t.id
  rw [(find?_eq_some_iff_of_distinct hdistinct).mpr ⟨hs, hid.symm⟩] at hentry
  obtain ⟨origin, horigin, hsame⟩ := Option.map_eq_some_iff.mp hentry.symm
  obtain ⟨-, hlast, hold⟩ := StepEntry.mk.inj hsame
  have hsame : s.opts = origin.opts := hold.symm
  have hsegment' : s.segment? = origin.segment? :=
    congrArg (fun o : StepOpts ↦ named? o.segmentId) hsame
  rw [hsame] at hopts
  rw [hsegment'] at hsegment
  exact ⟨origin, horigin, hdata.trans hlast.symm, hopts, hsegment⟩

/-- Three steps in a row, of which the first and the second are tagged. -/
def threaded : Flow :=
  { Desk.draft with
    steps := [
      { id := "a", opts := { segmentId := some "everyone", actionable := true } },
      { id := "b", parentId := some "a", data := { name := "old" },
        opts := { actionable := true } },
      { id := "c", parentId := some "b", opts := { segmentId := some "admins" } }] }

/-- Deletes a step and brings it back, and names two others twice, of which one is new. -/
def rethreading : FlowUpdate where
  deletedSteps := ["b", "ghost"]
  updatedSteps := [
    { id := "c", data := { name := "first" } },
    { id := "d", parentId := some "a", opts := { segmentId := some "guests", actionable := true } }]
  newSteps := [
    { id := "b", parentId := some "a", data := { name := "again" } },
    { id := "c", data := { name := "last" }, opts := { segmentId := some "guests" } },
    { id := "d", data := { name := "new" } }]

theorem FlowUpdate.every_step_accounted_for_rethreading :
    (threaded.steps.map Step.id).Nodup ∧
    ∃ found g, rethreading.apply {} (fun _ ↦ "") threaded = .ok (found, g) ∧
      g.steps.map Step.id = ["a", "c", "d", "b"] ∧
      ∀ t ∈ g.steps, ∃ origin, rethreading.origin? threaded.steps t.id = some origin ∧
        t.data = ((rethreading.lastIncoming? t.id).map Step.data).getD origin.data ∧
        ∀ name, origin.segment? = some name → t.segment? = some name := by
  have hdistinct : (threaded.steps.map Step.id).Nodup := by decide
  have happly : ∃ found g, rethreading.apply {} (fun _ ↦ "") threaded = .ok (found, g) :=
    ⟨_, _, rfl⟩
  obtain ⟨found, g, hok⟩ := happly
  obtain ⟨hids, -, hsteps⟩ := every_step_accounted_for hdistinct hok
  refine ⟨hdistinct, found, g, hok, hids.trans (by decide), fun t ht ↦ ?_⟩
  obtain ⟨origin, horigin, hdata, -, hsegment⟩ := hsteps t ht
  exact ⟨origin, horigin, hdata, hsegment⟩

end GuidedTours
