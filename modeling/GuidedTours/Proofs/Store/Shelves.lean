import GuidedTours.Proofs.Store.Rows

/-!
The shelf of a workspace: its active flows in the order of their listing, each as it is read.
Looking up a flow and listing the live ones are questions to the shelf, as long as what they come
across can be read. A store of lists can always be read; in a store of tables a row may hold what
cannot, and then it is missing from the shelf.
-/

set_option autoImplicit false

namespace GuidedTours

variable {workspace : String} {id : FlowId} {f : Flow}

/-- A store that has a shelf for each workspace. -/
class Shelves (σ : Type) [Store σ] where
  Sound : σ → Prop
  shelf (workspace : String) (s : σ) : List Flow
  /-- An active flow of the workspace cannot be read. -/
  Illegible (workspace : String) (s : σ) : Prop
  sound_empty : Sound (Store.empty : σ)
  sound_kept : Kept Sound
  shelf_putUserState (workspace : String) (state : UserState) (s : σ) :
    shelf workspace (Store.putUserState state s) = shelf workspace s
  getFlow_cases {s : σ} (hs : Sound s) (workspace : String) (id : FlowId) :
    Store.getFlow workspace id s =
        ((shelf workspace s).find? (·.id = id)).elim (.error (.flowNotFound id)) .ok ∨
      Illegible workspace s ∧ Store.getFlow workspace id s = .error .unreadableRow
  listLiveFlows_cases {s : σ} (hs : Sound s) (workspace : String) :
    Store.listLiveFlows workspace s = .ok ((shelf workspace s).filter (·.live)) ∨
      Illegible workspace s ∧ Store.listLiveFlows workspace s = .error .unreadableRow

namespace ListStore

def shelf (workspace : String) (s : ListStore) : List Flow :=
  s.active.filter (·.workspace = workspace)

theorem getFlow_eq_shelf (workspace : String) (id : FlowId) (s : ListStore) :
    getFlow workspace id s =
      ((s.shelf workspace).find? (·.id = id)).elim (.error (.flowNotFound id)) .ok := by
  have hfind : (s.shelf workspace).find? (·.id = id) = find? s.active workspace id := by
    rw [shelf, List.find?_filter, find?]
    refine List.find?_congr fun f _ ↦ ?_
    simp [owns, Bool.and_comm]
  rw [hfind, getFlow]
  cases find? s.active workspace id with
  | none => rfl
  | some f => rfl

theorem listLiveFlows_eq_shelf (workspace : String) (s : ListStore) :
    Store.listLiveFlows workspace s = .ok ((s.shelf workspace).filter (·.live)) := by
  rw [shelf, List.filter_filter]
  refine congrArg Except.ok (List.filter_congr fun f _ ↦ ?_)
  rw [Bool.and_comm]

instance : Shelves ListStore where
  Sound _ := True
  shelf workspace s := s.shelf workspace
  Illegible _ _ := False
  sound_empty := trivial
  sound_kept := ⟨⟨fun _ _ h ↦ h, fun _ _ _ h ↦ h, fun _ _ _ h ↦ h, fun _ _ _ h ↦ h⟩,
    fun _ _ h ↦ h, fun _ _ h ↦ h⟩
  shelf_putUserState _ _ _ := rfl
  getFlow_cases {s} _ workspace id := .inl (getFlow_eq_shelf workspace id s)
  listLiveFlows_cases {s} _ workspace := .inl (listLiveFlows_eq_shelf workspace s)

end ListStore

theorem Flow.readBack_of_error {e : StoreError} (h : f.readBack = .error e) :
    e = .unreadableRow := by
  unfold readBack at h
  cases hreread : f.reread? with
  | none => simpa [hreread] using h.symm
  | some g => simp [hreread] at h

theorem RevisionColumn.read_of_error {c : RevisionColumn} {e : StoreError}
    (h : c.read = .error e) : e = .unreadableRow := by
  cases c with
  | whole n => simp [read] at h
  | overflown => simpa [read] using h.symm

theorem FlowRow.read_of_error {r : FlowRow} {e : StoreError} (h : r.read = .error e) :
    e = .unreadableRow := by
  unfold read at h
  rcases bind_eq_error_iff.mp h with hdocument | ⟨document, -, h⟩
  · exact Flow.readBack_of_error hdocument
  · rcases bind_eq_error_iff.mp h with hrevision | ⟨revision, -, h⟩
    · exact RevisionColumn.read_of_error hrevision
    · simp [pure, Except.pure] at h

namespace TableStore

def shelf (workspace : String) (s : TableStore) : List Flow :=
  (s.active.filter (·.workspace = workspace)).filterMap fun r ↦ r.read.toOption

def Illegible (workspace : String) (s : TableStore) : Prop :=
  ∃ r ∈ s.active, r.workspace = workspace ∧ r.read = .error .unreadableRow

theorem mem_shelf {s : TableStore} :
    f ∈ s.shelf workspace ↔ ∃ r ∈ s.active, r.workspace = workspace ∧ r.read = .ok f := by
  simp [shelf, List.mem_filterMap, toOption_eq_some_iff, and_assoc]

theorem illegible_of_mem {s : TableStore} {p : FlowRow → Bool} {row : FlowRow} {e : StoreError}
    (hp : ∀ r, p r → r.workspace = workspace) (hrow : row ∈ s.active.filter p)
    (hread : row.read = .error e) : e = .unreadableRow ∧ s.Illegible workspace := by
  obtain rfl := FlowRow.read_of_error hread
  obtain ⟨hmem, hrow⟩ := List.mem_filter.mp hrow
  exact ⟨rfl, row, hmem, hp row hrow, hread⟩

theorem find?_shelf {s : TableStore} (hs : s.Sound) {row : FlowRow}
    (hfind : s.active.find? (FlowRow.owns workspace id) = some row) (hread : row.read = .ok f) :
    (s.shelf workspace).find? (·.id = id) = some f := by
  have hrow : row ∈ s.active := List.mem_of_find?_eq_some hfind
  obtain ⟨hid, hworkspace⟩ := FlowRow.owns_iff.mp (List.find?_some hfind)
  have hf : f ∈ s.shelf workspace := mem_shelf.mpr ⟨row, hrow, hworkspace, hread⟩
  have hfid : f.id = id := ((hs.active row hrow).of_read hread).1.trans hid
  have hsome : ((s.shelf workspace).find? (·.id = id)).isSome :=
    List.find?_isSome.mpr ⟨f, hf, by simpa using hfid⟩
  obtain ⟨g, hg⟩ := Option.isSome_iff_exists.mp hsome
  obtain ⟨r, hr, -, hgread⟩ := mem_shelf.mp (List.mem_of_find?_eq_some hg)
  have hgid : g.id = id := by simpa using List.find?_some hg
  have hsame : r = row := by
    refine List.inj_on_of_nodup_map hs.activeKeys hr hrow ?_
    exact ((hs.active r hr).of_read hgread).1.symm.trans (hgid.trans hid.symm)
  rw [hg, Except.ok.inj (hgread.symm.trans (hsame ▸ hread))]

theorem getFlow_shelf {s : TableStore} (hs : s.Sound) (workspace : String) (id : FlowId) :
    getFlow workspace id s =
        ((s.shelf workspace).find? (·.id = id)).elim (.error (.flowNotFound id)) .ok ∨
      s.Illegible workspace ∧ getFlow workspace id s = .error .unreadableRow := by
  unfold getFlow
  cases hfind : s.active.find? (FlowRow.owns workspace id) with
  | none =>
    refine .inl ?_
    have hnone : (s.shelf workspace).find? (·.id = id) = none := by
      refine List.find?_eq_none.mpr fun f hf ↦ ?_
      obtain ⟨r, hr, hworkspace, hread⟩ := mem_shelf.mp hf
      have howns := List.find?_eq_none.mp hfind r hr
      rw [FlowRow.owns_iff] at howns
      simpa [((hs.active r hr).of_read hread).1, hworkspace] using howns
    rw [hnone]
    rfl
  | some row =>
    cases hread : row.read with
    | ok f =>
      rw [find?_shelf hs hfind hread]
      exact .inl hread
    | error e =>
      obtain rfl := FlowRow.read_of_error hread
      exact .inr ⟨⟨row, List.mem_of_find?_eq_some hfind,
        (FlowRow.owns_iff.mp (List.find?_some hfind)).2, hread⟩, hread⟩

theorem listLiveFlows_shelf {s : TableStore} (hs : s.Sound) (workspace : String) :
    Store.listLiveFlows workspace s = .ok ((s.shelf workspace).filter (·.live)) ∨
      s.Illegible workspace ∧ Store.listLiveFlows workspace s = .error .unreadableRow := by
  rcases mapM_cases FlowRow.read (s.active.filter fun r ↦ r.workspace = workspace && r.live) with
    hok | ⟨r, hr, e, hread, herror⟩
  · refine .inl (hok.trans (congrArg Except.ok ?_))
    rw [shelf, List.filterMap_filter, List.filterMap_filter, List.filter_filterMap]
    refine List.filterMap_congr fun r hr ↦ ?_
    cases hread : r.read with
    | error e => simp [Except.toOption]
    | ok f =>
      have hlive := ((hs.active r hr).of_read hread).2.2
      by_cases hworkspace : r.workspace = workspace <;>
        simp [Except.toOption, hworkspace, hlive, Option.filter]
  · obtain ⟨rfl, hillegible⟩ := illegible_of_mem (fun r hlive ↦ by
      simpa using (Bool.and_eq_true_iff.mp hlive).1) hr hread
    exact .inr ⟨hillegible, herror⟩

instance : Shelves TableStore where
  Sound := Sound
  shelf workspace s := s.shelf workspace
  Illegible workspace s := s.Illegible workspace
  sound_empty := Sound.empty
  sound_kept := Sound.kept
  shelf_putUserState _ _ _ := rfl
  getFlow_cases hs workspace id := getFlow_shelf hs workspace id
  listLiveFlows_cases hs workspace := listLiveFlows_shelf hs workspace

end TableStore

end GuidedTours
