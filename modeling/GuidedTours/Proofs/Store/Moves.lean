import GuidedTours.Proofs.Store.Runs
import GuidedTours.Proofs.Store.Writes

/-!
What each operation does to the rows of a store, those of active flows and those of archived ones.
An insertion puts an active row at the end and a save changes one where it stands. A flow that is
archived leaves its row and gets one at the end of the archive, and a flow that is restored goes the
other way. So rows that a run does not move stay in their order, and a row in the archive stays
there until its flow is restored.
-/

set_option autoImplicit false

namespace GuidedTours

open Copying

/-- A store whose archived flows stand in rows. -/
class ArchiveRows (σ : Type) where
  Row : Type
  archived : σ → List Row
  id : Row → FlowId
  workspace : Row → String
  read : Row → Except StoreError Flow

namespace ArchiveRows

variable {σ : Type} [ArchiveRows σ] {workspace : String} {id : FlowId} {a : Row σ}

def owns (workspace : String) (id : FlowId) (a : Row σ) : Bool :=
  ArchiveRows.id a = id && ArchiveRows.workspace a = workspace

theorem owns_iff :
    owns workspace id a ↔ ArchiveRows.id a = id ∧ ArchiveRows.workspace a = workspace := by
  simp [owns]

end ArchiveRows

section Moves

variable {σ : Type} [Rows σ] [ArchiveRows σ]

/-- The rows of a store. -/
structure Stands (active : List (Rows.Row σ)) (archived : List (ArchiveRows.Row σ)) (s : σ) :
    Prop where
  active_eq : Rows.active s = active
  archived_eq : ArchiveRows.archived s = archived

variable [Store σ] [Copying σ]

/-- A flow leaves the active rows and gets one at the end of the archive. -/
structure Retires (workspace : String) (id : FlowId) (f : Flow) (s s' : σ) : Prop where
  getFlow : Store.getFlow workspace id s = .ok f
  rows : ∃ a, ArchiveRows.owns workspace id a ∧ ArchiveRows.read a = shown σ f ∧
    Stands ((Rows.active s).eraseP (Rows.owns workspace id)) (ArchiveRows.archived s ++ [a]) s'

/-- A flow leaves the archive and gets a row at the end of the active ones. -/
structure Returns (workspace : String) (id : FlowId) (f : Flow) (s s' : σ) : Prop where
  archived : ∃ a, (ArchiveRows.archived s).find? (ArchiveRows.owns workspace id) = some a ∧
    ArchiveRows.read a = .ok f
  rows : ∃ r, Rows.owns workspace id r ∧ Rows.read r = shown σ f ∧
    Stands (Rows.active s ++ [r])
      ((ArchiveRows.archived s).eraseP (ArchiveRows.owns workspace id)) s'

end Moves

open Rows in
class LawfulMoves (σ : Type) [Store σ] [Shelves σ] [Copying σ] [Rows σ] [ArchiveRows σ] :
    Prop where
  archived_faithful {s : σ} (hs : Shelves.Sound s) {a : ArchiveRows.Row σ}
    (ha : a ∈ ArchiveRows.archived s) {f : Flow} (h : ArchiveRows.read a = .ok f) :
    f.id = ArchiveRows.id a
  listArchivedFlows_eq (workspace : String) (s : σ) :
    Store.listArchivedFlows workspace s =
      ((ArchiveRows.archived s).filter (ArchiveRows.workspace · = workspace)).mapM ArchiveRows.read
  insertFlow_cases (f : Flow) (s : σ) :
    (Store.insertFlow f s).2 = s ∨ ∃ r, owns f.workspace f.id r ∧
      Stands (active s ++ [r]) (ArchiveRows.archived s) (Store.insertFlow f s).2
  saveFlow_missing {f : Flow} {s : σ} (expected : Option UInt64)
    (h : (active s).find? (owns f.workspace f.id) = none) :
    Store.saveFlow f expected s = (.error (.flowNotFound f.id), s)
  saveFlow_cases (f : Flow) (expected : Option UInt64) (s : σ) :
    (Store.saveFlow f expected s).2 = s ∨
      ∃ change, (∀ r, owns f.workspace f.id r → owns f.workspace f.id (change r)) ∧
        Stands (modifyFirst (owns f.workspace f.id) change (active s)) (ArchiveRows.archived s)
          (Store.saveFlow f expected s).2
  /-- It fails if there is nothing to archive, or nothing that can be read, or if the archive has
  the id. -/
  archiveFlow_cases {s : σ} (hs : Shelves.Sound s) (workspace : String) (id : FlowId) :
    ((∀ f, Store.getFlow workspace id s ≠ .ok f) ∨
        ∃ a ∈ ArchiveRows.archived s, ArchiveRows.id a = id) ∧
      (∃ e, Store.archiveFlow workspace id s = (.error e, s)) ∨
    ∃ f s', Store.archiveFlow workspace id s = (.ok (), s') ∧ Retires workspace id f s s'
  /-- It fails if there is nothing to restore, or nothing that can be read, or if an active flow has
  the id. -/
  restoreFlow_cases {s : σ} (hs : Shelves.Sound s) (workspace : String) (id : FlowId) :
    ((∀ a f, (ArchiveRows.archived s).find? (ArchiveRows.owns workspace id) = some a →
          ArchiveRows.read a ≠ .ok f) ∨ ∃ r ∈ active s, Rows.id r = id) ∧
      (∃ e, Store.restoreFlow workspace id s = (.error e, s)) ∨
    ∃ f s', Store.restoreFlow workspace id s = (.ok (), s') ∧ Returns workspace id f s s'
  putUserState (state : UserState) (s : σ) :
    Stands (active s) (ArchiveRows.archived s) (Store.putUserState state s)
  recordEvents (events : List TrackedEvent) (s : σ) :
    Stands (active s) (ArchiveRows.archived s) (Store.recordEvents events s)

/-- The id that a request brings into the listing of a workspace or takes from it. -/
def StoreRequest.moved? : StoreRequest → Option FlowId
  | .insertFlow f => some f.id
  | .archiveFlow _ id | .restoreFlow _ id => some id
  | _ => none

/-- The request brings no flow with the id into a listing. -/
def StoreRequest.Leaves (id : FlowId) : StoreRequest → Prop
  | .insertFlow f => f.id ≠ id
  | .restoreFlow _ i => i ≠ id
  | _ => True

section Order

variable {σ : Type} [Rows σ] {s s' : σ} {workspace : String} {id : FlowId}

/-- Where the active flows belong, in the order of their rows. -/
def places (s : σ) : List (String × FlowId) :=
  (Rows.active s).map fun r ↦ (Rows.workspace r, Rows.id r)

/-- The ids of the active flows of a workspace in the order of their rows. -/
def listing (workspace : String) (s : σ) : List FlowId :=
  ((places s).filter (·.1 = workspace)).map Prod.snd

theorem listing_eq_map (workspace : String) (s : σ) :
    listing workspace s =
      ((Rows.active s).filter (Rows.workspace · = workspace)).map Rows.id := by
  rw [listing, places, List.filter_map, List.map_map]
  rfl

theorem filter_listing (p : FlowId → Bool) (workspace : String) (s : σ) :
    (listing workspace s).filter p =
      ((places s).filter fun k ↦ p k.2 && k.1 = workspace).map Prod.snd := by
  rw [listing, List.filter_map, List.filter_filter]
  rfl

section Stands

variable [ArchiveRows σ] {q : String × FlowId → Bool}

theorem filter_places_of_stands {active : List (Rows.Row σ)}
    {archived : List (ArchiveRows.Row σ)} (h : Stands active archived s')
    (hactive : active.filter (fun r ↦ q (Rows.workspace r, Rows.id r)) =
      (Rows.active s).filter fun r ↦ q (Rows.workspace r, Rows.id r)) :
    (places s').filter q = (places s).filter q := by
  rw [places, places, List.filter_map, List.filter_map, h.active_eq]
  exact congrArg (List.map _) hactive

end Stands

variable [Store σ] [Shelves σ] [Copying σ]

/-- The listing is what is listed. -/
theorem map_id_of_listFlows [LawfulRows σ] (hs : Shelves.Sound s) {fs : List Flow}
    (h : Store.listFlows workspace s = .ok fs) : fs.map Flow.id = listing workspace s := by
  rw [LawfulRows.listFlows_eq] at h
  rw [listing_eq_map]
  refine map_eq_of_mapM_eq_ok (fun r hr f hf ↦ ?_) h
  exact (LawfulRows.faithful hs (List.mem_of_mem_filter hr) hf).1

variable [ArchiveRows σ] [LawfulMoves σ] {q : String × FlowId → Bool}

/-- What a request does not move keeps its order. -/
theorem filter_places_perform (hs : Shelves.Sound s) {r : StoreRequest}
    (hr : ∀ id, r.moved? = some id → ∀ workspace, ¬ q (workspace, id)) :
    (places (r.perform s).2).filter q = (places s).filter q := by
  have hpassed {id : FlowId} (hid : r.moved? = some id) (workspace : String) (row : Rows.Row σ)
      (hrow : Rows.owns workspace id row) : ¬ q (Rows.workspace row, Rows.id row) := by
    rw [(Rows.owns_iff.mp hrow).1]
    exact hr id hid _
  cases r with
  | insertFlow f =>
    simp only [StoreRequest.perform]
    rcases LawfulMoves.insertFlow_cases f s with heq | ⟨row, hrow, hstands⟩
    · rw [heq]
    · refine filter_places_of_stands hstands (filter_append_of_forall_not fun x hx ↦ ?_)
      rw [List.mem_singleton.mp hx]
      exact hpassed rfl _ row hrow
  | saveFlow f expected =>
    simp only [StoreRequest.perform]
    rcases LawfulMoves.saveFlow_cases f expected s with heq | ⟨change, hchange, hstands⟩
    · rw [heq]
    · rw [places, places, hstands.active_eq, map_modifyFirst fun row hrow ↦ ?_]
      obtain ⟨hid, hworkspace⟩ := Rows.owns_iff.mp hrow
      obtain ⟨hid', hworkspace'⟩ := Rows.owns_iff.mp (hchange row hrow)
      rw [hid, hworkspace, hid', hworkspace']
  | archiveFlow workspace id =>
    simp only [StoreRequest.perform]
    rcases LawfulMoves.archiveFlow_cases hs workspace id with ⟨-, e, heq⟩ | ⟨f, s', heq, hmove⟩
    · rw [heq]
    · obtain ⟨a, -, -, hstands⟩ := hmove.rows
      rw [heq]
      exact filter_places_of_stands hstands (filter_eraseP_of_forall (hpassed rfl workspace))
  | restoreFlow workspace id =>
    simp only [StoreRequest.perform]
    rcases LawfulMoves.restoreFlow_cases hs workspace id with ⟨-, e, heq⟩ | ⟨f, s', heq, hmove⟩
    · rw [heq]
    · obtain ⟨row, hrow, -, hstands⟩ := hmove.rows
      rw [heq]
      refine filter_places_of_stands hstands (filter_append_of_forall_not fun x hx ↦ ?_)
      rw [List.mem_singleton.mp hx]
      exact hpassed rfl workspace row hrow
  | putUserState state =>
    exact filter_places_of_stands (LawfulMoves.putUserState state s) rfl
  | recordEvents events =>
    exact filter_places_of_stands (LawfulMoves.recordEvents events s) rfl
  | getFlow _ _ | listFlows _ | listLiveFlows _ | listArchivedFlows _ | getUserState _ _
  | listEvents _ _ => rfl

end Order

section Archive

variable {σ : Type} [Copying σ] [Rows σ] [ArchiveRows σ]
variable {s s' : σ} {workspace : String} {id : FlowId} {f g : Flow}

/-- The flow is in the archive and no active flow has its id. -/
structure PutAway (workspace : String) (id : FlowId) (f : Flow) (s : σ) : Prop where
  inactive : ∀ r ∈ Rows.active s, Rows.id r ≠ id
  archived : ∃ a, ArchiveRows.owns workspace id a ∧ ArchiveRows.read a = shown σ f ∧
    (ArchiveRows.archived s).filter (ArchiveRows.id · = id) = [a]

namespace PutAway

theorem of_stands (h : PutAway workspace id f s) {active : List (Rows.Row σ)}
    {archived : List (ArchiveRows.Row σ)} (hstands : Stands active archived s')
    (hactive : ∀ r ∈ active, Rows.id r ≠ id)
    (harchived : archived.filter (ArchiveRows.id · = id) =
      (ArchiveRows.archived s).filter (ArchiveRows.id · = id)) : PutAway workspace id f s' := by
  obtain ⟨a, hown, hread, hfilter⟩ := h.archived
  refine ⟨hstands.active_eq ▸ hactive, a, hown, hread, ?_⟩
  rw [hstands.archived_eq, harchived, hfilter]

theorem find?_active (h : PutAway workspace id f s) (asked : String) :
    (Rows.active s).find? (Rows.owns asked id) = none :=
  List.find?_eq_none.mpr fun r hr hown ↦ h.inactive r hr (Rows.owns_iff.mp hown).1

theorem find?_archived (h : PutAway workspace id f s) : ∃ a,
    (ArchiveRows.archived s).find? (ArchiveRows.owns workspace id) = some a ∧
      ArchiveRows.read a = shown σ f := by
  obtain ⟨a, hown, hread, hfilter⟩ := h.archived
  refine ⟨a, find?_of_filter_eq_singleton (fun x hx ↦ ?_) hfilter hown, hread⟩
  simpa using (ArchiveRows.owns_iff.mp hx).1

/-- Nothing of a flow that comes back stays in the archive. -/
theorem archived_returned (h : PutAway workspace id f s) (hmove : Returns workspace id g s s') :
    ∀ a ∈ ArchiveRows.archived s', ArchiveRows.id a ≠ id := by
  obtain ⟨a, hown, -, hfilter⟩ := h.archived
  obtain ⟨r, -, -, hstands⟩ := hmove.rows
  intro b hb
  rw [hstands.archived_eq] at hb
  simpa using not_of_mem_eraseP
    (fun x hx ↦ by simpa using (ArchiveRows.owns_iff.mp hx).1) hfilter hown hb

end PutAway

variable [Store σ] [Shelves σ]

section Reads

variable [LawfulRows σ]

theorem Retires.exists_row (h : Retires workspace id f s s') :
    ∃ r ∈ Rows.active s, Rows.owns workspace id r := by
  have hget := h.getFlow
  rw [LawfulRows.getFlow_eq] at hget
  cases hfind : (Rows.active s).find? (Rows.owns workspace id) with
  | none =>
    rw [hfind] at hget
    nomatch hget
  | some r => exact ⟨r, List.mem_of_find?_eq_some hfind, List.find?_some hfind⟩

/-- A flow that is alone with its id is put away when it is archived. -/
theorem Retires.putAway (h : Retires workspace id f s s')
    (honce : (Rows.active s).countP (Rows.id · = id) ≤ 1)
    (hfree : ∀ a ∈ ArchiveRows.archived s, ArchiveRows.id a ≠ id) :
    PutAway workspace id f s' := by
  obtain ⟨a, hown, hread, hstands⟩ := h.rows
  have haid : ArchiveRows.id a = id := (ArchiveRows.owns_iff.mp hown).1
  refine ⟨fun r hr ↦ ?_, a, hown, hread, ?_⟩
  · obtain ⟨r₀, hr₀, hown₀⟩ := h.exists_row
    have hmem : r₀ ∈ (Rows.active s).filter (Rows.id · = id) :=
      List.mem_filter.mpr ⟨hr₀, by simpa using (Rows.owns_iff.mp hown₀).1⟩
    rw [List.countP_eq_length_filter] at honce
    obtain ⟨r₁, hr₁⟩ := List.length_eq_one_iff.mp
      (Nat.le_antisymm honce (List.length_pos_of_mem hmem))
    obtain rfl : r₀ = r₁ := by simpa [hr₁] using hmem
    rw [hstands.active_eq] at hr
    simpa using not_of_mem_eraseP (fun x hx ↦ by simpa using (Rows.owns_iff.mp hx).1) hr₁ hown₀ hr
  · have hnone : (ArchiveRows.archived s).filter (ArchiveRows.id · = id) = [] :=
      List.filter_eq_nil_iff.mpr fun x hx ↦ by simpa using hfree x hx
    rw [hstands.archived_eq, List.filter_append, hnone, List.nil_append,
      List.filter_cons_of_pos (by simpa using haid), List.filter_nil]

/-- A flow that comes back is the last one of its workspace. -/
theorem Returns.listFlows (h : Returns workspace id g s s') :
    Store.listFlows workspace s' = do
      let flows ← Store.listFlows workspace s
      let shown ← shown σ g
      return flows ++ [shown] := by
  obtain ⟨r, hown, hread, hstands⟩ := h.rows
  exact LawfulRows.listFlows_of_append hstands.active_eq hown hread

namespace PutAway

theorem getFlow (h : PutAway workspace id f s) (asked : String) :
    Store.getFlow asked id s = .error (.flowNotFound id) := by
  rw [LawfulRows.getFlow_eq, h.find?_active]
  rfl

theorem id_ne_of_read (h : PutAway workspace id f s) (hs : Shelves.Sound s) {r : Rows.Row σ}
    (hr : r ∈ Rows.active s) (hread : Rows.read r = .ok g) : g.id ≠ id := by
  rw [(LawfulRows.faithful hs hr hread).1]
  exact h.inactive r hr

theorem listFlows (h : PutAway workspace id f s) (hs : Shelves.Sound s) {asked : String}
    {fs : List Flow} (hlist : Store.listFlows asked s = .ok fs) (hg : g ∈ fs) : g.id ≠ id := by
  rw [LawfulRows.listFlows_eq] at hlist
  obtain ⟨r, hr, hread⟩ := mem_of_mapM_eq_ok hlist hg
  exact h.id_ne_of_read hs (List.mem_of_mem_filter hr) hread

theorem listLiveFlows (h : PutAway workspace id f s) (hs : Shelves.Sound s) {asked : String}
    {fs : List Flow} (hlist : Store.listLiveFlows asked s = .ok fs) (hg : g ∈ fs) : g.id ≠ id := by
  rw [LawfulRows.listLiveFlows_eq] at hlist
  obtain ⟨r, hr, hread⟩ := mem_of_mapM_eq_ok hlist hg
  exact h.id_ne_of_read hs (List.mem_of_mem_filter hr) hread

theorem getFlow_returned (h : PutAway workspace id f s) (hmove : Returns workspace id g s s') :
    Store.getFlow workspace id s' = shown σ g := by
  obtain ⟨r, hown, hread, hstands⟩ := hmove.rows
  exact LawfulRows.getFlow_of_append hstands.active_eq hown hread (h.find?_active workspace)

end PutAway

end Reads

variable [LawfulMoves σ]

namespace PutAway

/-- A flow that can be read in the archive comes back. -/
theorem restore (h : PutAway workspace id f s) (hs : Shelves.Sound s)
    (hcopy : copy? σ f = some g) :
    ∃ s', Store.restoreFlow workspace id s = (.ok (), s') ∧ Returns workspace id g s s' := by
  obtain ⟨a, hfind, hread⟩ := h.find?_archived
  have hshown : ArchiveRows.read a = .ok g := by
    rw [hread, shown, hcopy]
    rfl
  rcases LawfulMoves.restoreFlow_cases hs workspace id with
    ⟨hunread | ⟨r, hr, hid⟩, -⟩ | ⟨g', s', heq, hmove⟩
  · exact absurd hshown (hunread a g hfind)
  · exact absurd hid (h.inactive r hr)
  · obtain ⟨b, hb, hbread⟩ := hmove.archived
    obtain rfl := Option.some.inj (hfind.symm.trans hb)
    obtain rfl := Except.ok.inj (hshown.symm.trans hbread)
    exact ⟨s', heq, hmove⟩

theorem lost (h : PutAway workspace id f s) (hs : Shelves.Sound s) (hcopy : copy? σ f = none) :
    ∃ e, Store.restoreFlow workspace id s = (.error e, s) := by
  obtain ⟨a, hfind, hread⟩ := h.find?_archived
  rcases LawfulMoves.restoreFlow_cases hs workspace id with ⟨-, herror⟩ | ⟨g', s', -, hmove⟩
  · exact herror
  · obtain ⟨b, hb, hbread⟩ := hmove.archived
    obtain rfl := Option.some.inj (hfind.symm.trans hb)
    rw [hread, shown, hcopy] at hbread
    nomatch hbread

theorem saveFlow (h : PutAway workspace id f s) (hg : g.id = id) (expected : Option UInt64) :
    Store.saveFlow g expected s = (.error (.flowNotFound id), s) := by
  have hfind := h.find?_active g.workspace
  rw [← hg] at hfind
  rw [LawfulMoves.saveFlow_missing expected hfind, hg]

variable [LawfulRows σ]

/-- A flow stays in the archive as long as nothing brings its id back. -/
theorem perform (h : PutAway workspace id f s) (hs : Shelves.Sound s)
    {r : StoreRequest} (hr : r.Leaves id) : PutAway workspace id f (r.perform s).2 := by
  have hactive : ∀ row ∈ Rows.active s, Rows.id row ≠ id := h.inactive
  cases r with
  | insertFlow g =>
    simp only [StoreRequest.perform]
    rcases LawfulMoves.insertFlow_cases g s with heq | ⟨row, hrow, hstands⟩
    · rw [heq]
      exact h
    · refine h.of_stands hstands (fun x hx ↦ ?_) rfl
      rcases List.mem_append.mp hx with hx | hx
      · exact hactive x hx
      · rw [List.mem_singleton.mp hx, (Rows.owns_iff.mp hrow).1]
        exact hr
  | saveFlow g expected =>
    simp only [StoreRequest.perform]
    rcases LawfulMoves.saveFlow_cases g expected s with heq | ⟨change, hchange, hstands⟩
    · rw [heq]
      exact h
    · refine h.of_stands hstands (fun x hx ↦ ?_) rfl
      rcases mem_modifyFirst hx with hx | ⟨old, hold, hown, rfl⟩
      · exact hactive x hx
      · rw [(Rows.owns_iff.mp (hchange old hown)).1, ← (Rows.owns_iff.mp hown).1]
        exact hactive old hold
  | archiveFlow asked i =>
    simp only [StoreRequest.perform]
    rcases LawfulMoves.archiveFlow_cases hs asked i with ⟨-, e, heq⟩ | ⟨g, s', heq, hmove⟩
    · rw [heq]
      exact h
    · obtain ⟨a, hown, -, hstands⟩ := hmove.rows
      obtain ⟨row, hrow, hown'⟩ := hmove.exists_row
      have hi : i ≠ id := (Rows.owns_iff.mp hown').1 ▸ hactive row hrow
      rw [heq]
      refine h.of_stands hstands (fun x hx ↦ hactive x (List.mem_of_mem_eraseP hx)) ?_
      refine filter_append_of_forall_not fun x hx ↦ ?_
      rw [List.mem_singleton.mp hx, (ArchiveRows.owns_iff.mp hown).1]
      simpa using hi
  | restoreFlow asked i =>
    simp only [StoreRequest.perform]
    rcases LawfulMoves.restoreFlow_cases hs asked i with ⟨-, e, heq⟩ | ⟨g, s', heq, hmove⟩
    · rw [heq]
      exact h
    · obtain ⟨row, hrow, -, hstands⟩ := hmove.rows
      rw [heq]
      refine h.of_stands hstands (fun x hx ↦ ?_) (filter_eraseP_of_forall fun x hx ↦ ?_)
      · rcases List.mem_append.mp hx with hx | hx
        · exact hactive x hx
        · rw [List.mem_singleton.mp hx, (Rows.owns_iff.mp hrow).1]
          exact hr
      · have hi : i ≠ id := hr
        rw [(ArchiveRows.owns_iff.mp hx).1]
        simpa using hi
  | putUserState state => exact h.of_stands (LawfulMoves.putUserState state s) hactive rfl
  | recordEvents events => exact h.of_stands (LawfulMoves.recordEvents events s) hactive rfl
  | getFlow _ _ | listFlows _ | listLiveFlows _ | listArchivedFlows _ | getUserState _ _
  | listEvents _ _ => exact h

end PutAway

end Archive

namespace ListStore

instance : ArchiveRows ListStore where
  Row := Flow
  archived := archived
  id := Flow.id
  workspace := Flow.workspace
  read := .ok

instance : LawfulMoves ListStore where
  archived_faithful _ _ _ _ h := by
    obtain rfl := Except.ok.inj h
    rfl
  listArchivedFlows_eq _ _ := (mapM_ok _).symm
  insertFlow_cases f s := by
    rcases insertFlow_cases f s with ⟨-, heq⟩ | ⟨-, heq⟩
    · exact .inl (congrArg Prod.snd heq)
    · refine .inr ⟨f, owns_iff.mpr ⟨rfl, rfl⟩, ?_⟩
      rw [show Store.insertFlow f s = _ from heq]
      exact ⟨rfl, rfl⟩
  saveFlow_missing {f s} expected h := by
    have hfind : find? s.active f.workspace f.id = none := h
    show saveFlow f expected s = _
    simp only [saveFlow, hfind]
  saveFlow_cases f expected s := by
    rcases saveFlow_cases f expected s with ⟨-, heq⟩ | ⟨stored, -, ⟨e, -, -, heq⟩ | ⟨-, heq⟩⟩
    · exact .inl (congrArg Prod.snd heq)
    · exact .inl (congrArg Prod.snd heq)
    · refine .inr ⟨fun _ ↦ { f with revision := stored.revision + 1 },
        fun _ _ ↦ owns_iff.mpr ⟨rfl, rfl⟩, ?_⟩
      rw [show Store.saveFlow f expected s = _ from heq]
      exact ⟨rfl, rfl⟩
  archiveFlow_cases {s} _ workspace id := by
    rcases archiveFlow_cases workspace id s with ⟨hnone, heq⟩ | ⟨f, hfind, heq⟩
    · refine .inl ⟨.inl fun f hget ↦ ?_, _, heq⟩
      nomatch hnone.symm.trans (getFlow_eq_ok_iff.mp hget)
    · exact .inr ⟨f, _, heq, getFlow_eq_ok_iff.mpr hfind, f,
        owns_iff.mpr (find?_some hfind).2, rfl, rfl, rfl⟩
  restoreFlow_cases {s} _ workspace id := by
    rcases restoreFlow_cases workspace id s with ⟨hnone, heq⟩ | ⟨f, hfind, heq⟩
    · refine .inl ⟨.inl fun a f hfind ↦ ?_, _, heq⟩
      nomatch hnone.symm.trans hfind
    · exact .inr ⟨f, _, heq, ⟨f, hfind, rfl⟩, f, owns_iff.mpr (find?_some hfind).2, rfl,
        rfl, rfl⟩
  putUserState _ _ := ⟨rfl, rfl⟩
  recordEvents _ _ := ⟨rfl, rfl⟩

end ListStore

namespace TableStore

instance : ArchiveRows TableStore where
  Row := ArchivedRow
  archived := archived
  id := ArchivedRow.id
  workspace := ArchivedRow.workspace
  read := ArchivedRow.read

theorem archived_read_eq_shown (a : ArchivedRow) : a.read = shown TableStore a.document := by
  show a.document.readBack = a.document.reread?.elim _ Except.ok
  unfold Flow.readBack
  cases a.document.reread? <;> rfl

theorem Sound.active_eraseP {t : TableStore} (h : t.Sound) (workspace : String) (id : FlowId) :
    t.active.eraseP (FlowRow.owns workspace id) =
      t.active.filter fun r ↦ !r.owns workspace id := by
  refine eraseP_eq_filter_not ((List.pairwise_map.mp h.activeKeys).imp fun hne hr hr' ↦ ?_)
  exact hne ((FlowRow.owns_iff.mp hr).1.trans (FlowRow.owns_iff.mp hr').1.symm)

theorem Sound.archived_eraseP {t : TableStore} (h : t.Sound) (workspace : String) (id : FlowId) :
    t.archived.eraseP (ArchivedRow.owns workspace id) =
      t.archived.filter fun r ↦ !r.owns workspace id := by
  refine eraseP_eq_filter_not ((List.pairwise_map.mp h.archivedKeys).imp fun hne hr hr' ↦ ?_)
  exact hne ((ArchivedRow.owns_iff.mp hr).1.trans (ArchivedRow.owns_iff.mp hr').1.symm)

instance : LawfulMoves TableStore where
  archived_faithful hs a ha f h := ((hs.archived a ha).of_read h).1
  listArchivedFlows_eq _ _ := rfl
  insertFlow_cases f t := by
    rcases insertRow_cases (.ofFlow f.workspace f) t with ⟨-, heq⟩ | ⟨-, heq⟩
    · exact .inl (congrArg Prod.snd heq)
    · refine .inr ⟨.ofFlow f.workspace f, FlowRow.owns_iff.mpr ⟨rfl, rfl⟩, ?_⟩
      rw [show Store.insertFlow f t = _ from heq]
      exact ⟨rfl, rfl⟩
  saveFlow_missing {f t} expected h := by
    have hfind : t.active.find? (FlowRow.owns f.workspace f.id) = none := h
    show saveFlow f expected t = _
    simp only [saveFlow, hfind]
  saveFlow_cases f expected t := by
    rcases saveFlow_cases f expected t with ⟨e, heq⟩ | ⟨row, -, -, heq⟩
    · exact .inl (congrArg Prod.snd heq)
    · refine .inr ⟨fun r ↦ { r with live := f.live, revision := row.revision.next, document := f },
        fun _ hr ↦ hr, ?_⟩
      rw [show Store.saveFlow f expected t = _ from heq]
      exact ⟨rfl, rfl⟩
  archiveFlow_cases {t} hs workspace id := by
    cases hget : getFlow workspace id t with
    | error e =>
      refine .inl ⟨.inl fun f hf ↦ ?_, e, ?_⟩
      · nomatch hget.symm.trans hf
      · show archiveFlow workspace id t = _
        simp only [archiveFlow, hget]
    | ok f =>
      by_cases htaken : t.archived.any (·.id = id)
      · have hother : ∃ a ∈ t.archived, a.id = id := by simpa using htaken
        refine .inl ⟨.inr hother, .flowExists id, ?_⟩
        show archiveFlow workspace id t = _
        simp only [archiveFlow, hget, if_pos htaken]
      · refine .inr ⟨f, { t with
          active := t.active.filter fun r ↦ !r.owns workspace id
          archived := t.archived ++ [⟨id, workspace, f⟩] }, ?_, hget, ⟨id, workspace, f⟩,
          ArchivedRow.owns_iff.mpr ⟨rfl, rfl⟩, archived_read_eq_shown _,
          (hs.active_eraseP workspace id).symm, rfl⟩
        show archiveFlow workspace id t = _
        simp only [archiveFlow, hget, if_neg htaken]
  restoreFlow_cases {t} hs workspace id := by
    cases hfind : t.archived.find? (ArchivedRow.owns workspace id) with
    | none =>
      refine .inl ⟨.inl fun a f ha ↦ ?_, .archivedFlowNotFound id, ?_⟩
      · nomatch hfind.symm.trans ha
      · show restoreFlow workspace id t = _
        simp only [restoreFlow, hfind]
    | some a =>
      cases hread : a.read with
      | error e =>
        refine .inl ⟨.inl fun a' f ha hf ↦ ?_, e, ?_⟩
        · obtain rfl := Option.some.inj (hfind.symm.trans ha)
          nomatch hread.symm.trans hf
        · show restoreFlow workspace id t = _
          simp only [restoreFlow, hfind, hread]
      | ok f =>
        rcases insertRow_cases { FlowRow.ofFlow workspace f with id } t with
          ⟨htaken, heq⟩ | ⟨-, heq⟩
        · refine .inl ⟨.inr htaken, .flowExists id, ?_⟩
          show restoreFlow workspace id t = _
          simp only [restoreFlow, hfind, hread, heq]
        · refine .inr ⟨f, { t with
            active := t.active ++ [{ FlowRow.ofFlow workspace f with id }]
            archived := t.archived.filter fun r ↦ !r.owns workspace id }, ?_, ⟨a, hfind, hread⟩,
            { FlowRow.ofFlow workspace f with id }, FlowRow.owns_iff.mpr ⟨rfl, rfl⟩,
            read_eq_shown (RevisionColumn.read_ofRevision f.revision), rfl,
            (hs.archived_eraseP workspace id).symm⟩
          show restoreFlow workspace id t = _
          simp only [restoreFlow, hfind, hread, heq]
  putUserState _ _ := ⟨rfl, rfl⟩
  recordEvents _ _ := ⟨rfl, rfl⟩

end TableStore

end GuidedTours
