import GuidedTours.Proofs.Store.Copies
import GuidedTours.Proofs.Store.Shelves

/-!
What one write changes in a store. The active flows stand in rows, which in a store of lists are the
flows themselves. An insertion puts a row at the end and a save changes the row of its flow where it
stands, so a read of anything else comes across the same rows as before, and the listing of the
workspace shows the written flow in its place.
-/

set_option autoImplicit false

namespace GuidedTours

open Copying

/-- Where all failures are alike, it does not matter which of several attempts is made first. -/
theorem mapM_modifyFirst {α β ε : Type} {p : α → Bool} {q : β → Bool} {f : α → α} {xs : List α}
    {x : α} {y : β} {read : α → Except ε β} {failure : ε}
    (hfails : ∀ x e, read x = .error e → e = failure)
    (hp : ∀ x ∈ xs, ∀ y, read x = .ok y → q y = p x)
    (hfind : xs.find? p = some x) (hx : read x = .ok y) :
    (modifyFirst p f xs).mapM read = do
      let ys ← xs.mapM read
      let changed ← read (f x)
      return modifyFirst q (fun _ ↦ changed) ys := by
  obtain ⟨hpx, before, later, rfl, hbefore⟩ := List.find?_eq_some_iff_append.mp hfind
  have hnone : ∀ z ∈ before, ¬ p z := by simpa using hbefore
  have hqy : q y = true := (hp x (by simp) y hx).trans hpx
  rw [modifyFirst_append_cons hnone hpx, List.mapM_append, List.mapM_append, List.mapM_cons,
    List.mapM_cons, hx]
  cases hread : before.mapM read with
  | error e => rfl
  | ok ys =>
    have hys : ∀ z ∈ ys, ¬ q z := by
      intro z hz
      obtain ⟨w, hw, hwz⟩ := mem_of_mapM_eq_ok hread hz
      rw [hp w (List.mem_append_left _ hw) z hwz]
      exact hnone w hw
    cases hchanged : read (f x) with
    | error e =>
      cases hlater : later.mapM read with
      | error e' =>
        obtain ⟨z, -, hz⟩ := exists_of_mapM_eq_error hlater
        rw [hfails _ e hchanged, hfails z e' hz]
        rfl
      | ok zs => rfl
    | ok changed =>
      cases later.mapM read with
      | error e => rfl
      | ok zs =>
        show Except.ok (ys ++ changed :: zs) =
          .ok (modifyFirst q (fun _ ↦ changed) (ys ++ y :: zs))
        rw [modifyFirst_append_cons hys hqy]

section Reads

variable {σ : Type} [Store σ]

/-- The archive, the user states and the events are the same in two stores. -/
structure SameRecords (s s' : σ) : Prop where
  listArchivedFlows (workspace : String) :
    Store.listArchivedFlows workspace s' = Store.listArchivedFlows workspace s
  getUserState (workspace user : String) :
    Store.getUserState workspace user s' = Store.getUserState workspace user s
  listEvents (workspace : String) (id : FlowId) :
    Store.listEvents workspace id s' = Store.listEvents workspace id s

/-- Two stores differ at most in one active flow. -/
structure SameBut (workspace : String) (id : FlowId) (s s' : σ) : Prop
    extends SameRecords s s' where
  getFlow (other : String) (i : FlowId) (h : other ≠ workspace ∨ i ≠ id) :
    Store.getFlow other i s' = Store.getFlow other i s
  listFlows (other : String) (h : other ≠ workspace) :
    Store.listFlows other s' = Store.listFlows other s
  listLiveFlows (other : String) (h : other ≠ workspace) :
    Store.listLiveFlows other s' = Store.listLiveFlows other s

end Reads

/-- A store whose active flows stand in rows. -/
class Rows (σ : Type) where
  Row : Type
  active : σ → List Row
  id : Row → FlowId
  workspace : Row → String
  live : Row → Bool
  read : Row → Except StoreError Flow

namespace Rows

variable {σ : Type} [Rows σ] {workspace : String} {id : FlowId} {f : Flow} {r : Row σ}

def owns (workspace : String) (id : FlowId) (r : Row σ) : Bool :=
  Rows.id r = id && Rows.workspace r = workspace

theorem owns_iff :
    owns workspace id r ↔ Rows.id r = id ∧ Rows.workspace r = workspace := by
  simp [owns]

theorem not_owns_of_ne {i : FlowId} (h : workspace ≠ f.workspace ∨ i ≠ f.id)
    (hr : owns f.workspace f.id r) : ¬ owns workspace i r := by
  obtain ⟨hid, hworkspace⟩ := owns_iff.mp hr
  rw [owns_iff, hid, hworkspace]
  exact fun hsame ↦ h.elim (fun hne ↦ hne hsame.2.symm) fun hne ↦ hne hsame.1.symm

theorem workspace_ne (h : workspace ≠ f.workspace) (hr : owns f.workspace f.id r) :
    ¬ Rows.workspace r = workspace := by
  rw [(owns_iff.mp hr).2]
  exact h.symm

end Rows

/-- What a read shows of a flow that is kept. -/
def Copying.shown (σ : Type) [Copying σ] (f : Flow) : Except StoreError Flow :=
  (copy? σ f).elim (.error .unreadableRow) .ok

section Writes

variable {σ : Type} [Store σ] [Copying σ] [Rows σ]

/-- A row joins the others at the end. -/
structure Appends (f : Flow) (s s' : σ) : Prop extends SameRecords s s' where
  new : ∀ r ∈ Rows.active s, Rows.id r ≠ f.id
  active : ∃ r, Rows.owns f.workspace f.id r ∧ Rows.read r = shown σ f ∧
    Rows.active s' = Rows.active s ++ [r]
  kept : contents s' = { contents s with active := (contents s).active ++ [f] }

/-- A row is changed where it stands. -/
structure Replaces (f : Flow) (s s' : σ) : Prop extends SameRecords s s' where
  active : ∃ r change, (Rows.active s).find? (Rows.owns f.workspace f.id) = some r ∧
    (∀ r, Rows.owns f.workspace f.id r → Rows.owns f.workspace f.id (change r)) ∧
    Rows.read (change r) = shown σ f ∧
    (∀ old, Rows.read r = .ok old → f.revision = old.revision + 1) ∧
    Rows.active s' = modifyFirst (Rows.owns f.workspace f.id) change (Rows.active s)
  kept : contents s' = { contents s with
    active := modifyFirst (ListStore.owns f.workspace f.id) (fun _ ↦ f) (contents s).active }

end Writes

open Rows in
class LawfulRows (σ : Type) [Store σ] [Shelves σ] [Copying σ] [Rows σ] : Prop where
  faithful {s : σ} (hs : Shelves.Sound s) {r : Row σ} (hr : r ∈ active s) {f : Flow}
    (h : read r = .ok f) : f.id = Rows.id r ∧ f.workspace = Rows.workspace r
  read_of_error {r : Row σ} {e : StoreError} (h : read r = .error e) : e = .unreadableRow
  getFlow_eq (workspace : String) (id : FlowId) (s : σ) :
    Store.getFlow workspace id s =
      ((active s).find? (owns workspace id)).elim (.error (.flowNotFound id)) read
  listFlows_eq (workspace : String) (s : σ) :
    Store.listFlows workspace s = ((active s).filter (Rows.workspace · = workspace)).mapM read
  listLiveFlows_eq (workspace : String) (s : σ) :
    Store.listLiveFlows workspace s =
      ((active s).filter fun r ↦ Rows.workspace r = workspace && live r).mapM read
  insertFlow_ok {s s' : σ} {f : Flow} (h : Store.insertFlow f s = (.ok (), s')) : Appends f s s'
  saveFlow_ok {s s' : σ} (hs : Shelves.Sound s) {f : Flow} {expected : Option UInt64}
    {revision : UInt64} (h : Store.saveFlow f expected s = (.ok revision, s')) :
    Replaces { f with revision } s s'

theorem LawfulRows.keys_of_getFlow {σ : Type} [Store σ] [Shelves σ] [Copying σ] [Rows σ]
    [LawfulRows σ] {s : σ} (hs : Shelves.Sound s) {workspace : String} {id : FlowId} {f : Flow}
    (h : Store.getFlow workspace id s = .ok f) : f.id = id ∧ f.workspace = workspace := by
  rw [getFlow_eq] at h
  cases hfind : (Rows.active s).find? (Rows.owns workspace id) with
  | none => simp [hfind] at h
  | some r =>
    rw [hfind] at h
    obtain ⟨hid, hworkspace⟩ := faithful hs (List.mem_of_find?_eq_some hfind) h
    obtain ⟨hrid, hrworkspace⟩ := Rows.owns_iff.mp (List.find?_some hfind)
    exact ⟨hid.trans hrid, hworkspace.trans hrworkspace⟩

namespace LawfulRows

variable {σ : Type} [Store σ] [Shelves σ] [Copying σ] [Rows σ] [LawfulRows σ] {s s' : σ}
variable {workspace : String} {id : FlowId} {r : Rows.Row σ} {f : Flow}

/-- With distinct ids, a flow that can be read is found under its id. -/
theorem getFlow_of_read (hs : Shelves.Sound s) (hids : ((Rows.active s).map Rows.id).Nodup)
    (hr : r ∈ Rows.active s) (hread : Rows.read r = .ok f) :
    Store.getFlow (Rows.workspace r) f.id s = .ok f := by
  have hid : f.id = Rows.id r := (faithful hs hr hread).1
  have howns : Rows.owns (Rows.workspace r) f.id r := Rows.owns_iff.mpr ⟨hid.symm, rfl⟩
  obtain ⟨other, hother⟩ := Option.isSome_iff_exists.mp (List.find?_isSome.mpr ⟨r, hr, howns⟩)
  have hsame : other = r := by
    refine List.inj_on_of_nodup_map hids (List.mem_of_find?_eq_some hother) hr ?_
    exact (Rows.owns_iff.mp (List.find?_some hother)).1.trans hid
  rw [getFlow_eq, hother, hsame]
  exact hread

/-- A row that has joined the others at the end is found if none of them was. -/
theorem getFlow_of_append (hactive : Rows.active s' = Rows.active s ++ [r])
    (hr : Rows.owns workspace id r) (hread : Rows.read r = shown σ f)
    (hnone : (Rows.active s).find? (Rows.owns workspace id) = none) :
    Store.getFlow workspace id s' = shown σ f := by
  rw [getFlow_eq, hactive, List.find?_append, hnone, Option.none_or, List.find?_singleton,
    if_pos hr]
  exact hread

theorem listFlows_of_append (hactive : Rows.active s' = Rows.active s ++ [r])
    (hr : Rows.owns workspace id r) (hread : Rows.read r = shown σ f) :
    Store.listFlows workspace s' = do
      let flows ← Store.listFlows workspace s
      let shown ← shown σ f
      return flows ++ [shown] := by
  have hlisted : decide (Rows.workspace r = workspace) := by
    simpa using (Rows.owns_iff.mp hr).2
  rw [listFlows_eq, listFlows_eq, hactive,
    filter_append_of_forall fun x hx ↦ List.mem_singleton.mp hx ▸ hlisted, List.mapM_append,
    List.mapM_cons, List.mapM_nil, hread]
  cases shown σ f <;> rfl

end LawfulRows

namespace Appends

variable {σ : Type} [Store σ] [Shelves σ] [Copying σ] [Rows σ] [LawfulRows σ]
variable {s s' : σ} {f : Flow}

theorem getFlow (h : Appends f s s') : Store.getFlow f.workspace f.id s' = shown σ f := by
  obtain ⟨r, hr, hread, hactive⟩ := h.active
  have hnone : (Rows.active s).find? (Rows.owns f.workspace f.id) = none :=
    List.find?_eq_none.mpr fun r hr howns ↦ h.new r hr (Rows.owns_iff.mp howns).1
  exact LawfulRows.getFlow_of_append hactive hr hread hnone

theorem listFlows (h : Appends f s s') :
    Store.listFlows f.workspace s' = do
      let flows ← Store.listFlows f.workspace s
      let shown ← shown σ f
      return flows ++ [shown] := by
  obtain ⟨r, hr, hread, hactive⟩ := h.active
  exact LawfulRows.listFlows_of_append hactive hr hread

theorem sameBut (h : Appends f s s') : SameBut f.workspace f.id s s' := by
  obtain ⟨r, hr, -, hactive⟩ := h.active
  refine ⟨h.toSameRecords, fun other i hne ↦ ?_, fun other hne ↦ ?_, fun other hne ↦ ?_⟩
  · rw [LawfulRows.getFlow_eq, LawfulRows.getFlow_eq, hactive, List.find?_append,
      List.find?_singleton, if_neg (Rows.not_owns_of_ne hne hr), Option.or_none]
  · rw [LawfulRows.listFlows_eq, LawfulRows.listFlows_eq, hactive,
      filter_append_of_forall_not fun x hx ↦ ?_]
    rw [List.mem_singleton.mp hx, decide_eq_true_iff]
    exact Rows.workspace_ne hne hr
  · rw [LawfulRows.listLiveFlows_eq, LawfulRows.listLiveFlows_eq, hactive,
      filter_append_of_forall_not fun x hx ↦ ?_]
    rw [List.mem_singleton.mp hx, Bool.and_eq_true, decide_eq_true_iff]
    exact fun hlive ↦ Rows.workspace_ne hne hr hlive.1

end Appends

namespace Replaces

variable {σ : Type} [Store σ] [Shelves σ] [Copying σ] [Rows σ] [LawfulRows σ]
variable {s s' : σ} {f : Flow}

theorem getFlow (h : Replaces f s s') : Store.getFlow f.workspace f.id s' = shown σ f := by
  obtain ⟨r, change, hfind, hchange, hread, -, hactive⟩ := h.active
  rw [LawfulRows.getFlow_eq, hactive, find?_modifyFirst_self hchange, hfind]
  exact hread

theorem revision (h : Replaces f s s') {old : Flow}
    (hold : Store.getFlow f.workspace f.id s = .ok old) : f.revision = old.revision + 1 := by
  obtain ⟨r, change, hfind, -, -, hrevision, -⟩ := h.active
  rw [LawfulRows.getFlow_eq, hfind] at hold
  exact hrevision old hold

theorem listFlows (h : Replaces f s s') (hs : Shelves.Sound s) {old : Flow}
    (hold : Store.getFlow f.workspace f.id s = .ok old) :
    Store.listFlows f.workspace s' = do
      let flows ← Store.listFlows f.workspace s
      let shown ← shown σ f
      return modifyFirst (ListStore.owns f.workspace f.id) (fun _ ↦ shown) flows := by
  obtain ⟨r, change, hfind, hchange, hread, -, hactive⟩ := h.active
  have hlisted : ∀ r : Rows.Row σ, Rows.owns f.workspace f.id r →
      decide (Rows.workspace r = f.workspace) := fun r hr ↦ by
    simpa using (Rows.owns_iff.mp hr).2
  rw [LawfulRows.getFlow_eq, hfind] at hold
  rw [LawfulRows.listFlows_eq, LawfulRows.listFlows_eq, hactive,
    filter_modifyFirst hlisted fun r hr ↦ hlisted _ (hchange r hr), ← hread]
  refine mapM_modifyFirst (fun _ _ ↦ LawfulRows.read_of_error) (fun r hr f hf ↦ ?_)
    ((find?_filter_of_forall hlisted).trans hfind) hold
  obtain ⟨hid, hworkspace⟩ := LawfulRows.faithful hs (List.mem_of_mem_filter hr) hf
  rw [ListStore.owns, hid, hworkspace]
  rfl

theorem sameBut (h : Replaces f s s') : SameBut f.workspace f.id s s' := by
  obtain ⟨r, change, -, hchange, -, -, hactive⟩ := h.active
  refine ⟨h.toSameRecords, fun other i hne ↦ ?_, fun other hne ↦ ?_, fun other hne ↦ ?_⟩
  · have hpassed : ∀ r : Rows.Row σ, Rows.owns f.workspace f.id r → ¬ Rows.owns other i r :=
      fun r hr ↦ Rows.not_owns_of_ne hne hr
    rw [LawfulRows.getFlow_eq, LawfulRows.getFlow_eq, hactive,
      find?_modifyFirst_of_forall hpassed fun r hr ↦ hpassed _ (hchange r hr)]
  · have hpassed : ∀ r : Rows.Row σ, Rows.owns f.workspace f.id r →
        ¬ decide (Rows.workspace r = other) := fun r hr ↦ by
      simpa using Rows.workspace_ne hne hr
    rw [LawfulRows.listFlows_eq, LawfulRows.listFlows_eq, hactive,
      filter_modifyFirst_of_forall hpassed fun r hr ↦ hpassed _ (hchange r hr)]
  · have hpassed : ∀ r : Rows.Row σ, Rows.owns f.workspace f.id r →
        ¬ (decide (Rows.workspace r = other) && Rows.live r) := fun r hr ↦ by
      simp [Rows.workspace_ne hne hr]
    rw [LawfulRows.listLiveFlows_eq, LawfulRows.listLiveFlows_eq, hactive,
      filter_modifyFirst_of_forall hpassed fun r hr ↦ hpassed _ (hchange r hr)]

end Replaces

namespace ListStore

instance : Rows ListStore where
  Row := Flow
  active := active
  id := Flow.id
  workspace := Flow.workspace
  live := Flow.live
  read := .ok

instance : LawfulRows ListStore where
  faithful _ _ _ _ h := by
    obtain rfl := Except.ok.inj h
    exact ⟨rfl, rfl⟩
  read_of_error h := nomatch h
  getFlow_eq workspace id s := by
    show getFlow workspace id s = (find? s.active workspace id).elim _ Except.ok
    unfold getFlow
    cases find? s.active workspace id <;> rfl
  listFlows_eq _ _ := (mapM_ok _).symm
  listLiveFlows_eq _ _ := (mapM_ok _).symm
  insertFlow_ok {s s' f} h := by
    rcases insertFlow_cases f s with ⟨-, heq⟩ | ⟨hnew, heq⟩
    · nomatch heq.symm.trans h
    · obtain ⟨-, rfl⟩ := Prod.mk.inj (heq.symm.trans h)
      exact ⟨⟨fun _ ↦ rfl, fun _ _ ↦ rfl, fun _ _ ↦ rfl⟩, hnew,
        ⟨f, owns_iff.mpr ⟨rfl, rfl⟩, rfl, rfl⟩, rfl⟩
  saveFlow_ok {s s'} _ {f expected revision} h := by
    rcases saveFlow_cases f expected s with
      ⟨-, heq⟩ | ⟨stored, hfind, ⟨e, -, -, heq⟩ | ⟨-, heq⟩⟩
    · nomatch heq.symm.trans h
    · nomatch heq.symm.trans h
    · obtain ⟨hrevision, rfl⟩ := Prod.mk.inj (heq.symm.trans h)
      obtain rfl := Except.ok.inj hrevision
      refine ⟨⟨fun _ ↦ rfl, fun _ _ ↦ rfl, fun _ _ ↦ rfl⟩,
        ⟨stored, fun _ ↦ { f with revision := stored.revision + 1 }, hfind,
          fun _ _ ↦ owns_iff.mpr ⟨rfl, rfl⟩, rfl, fun old hold ↦ ?_, rfl⟩, rfl⟩
      obtain rfl := Except.ok.inj hold
      rfl

end ListStore

namespace TableStore

instance : Rows TableStore where
  Row := FlowRow
  active := active
  id := FlowRow.id
  workspace := FlowRow.workspace
  live := FlowRow.live
  read := FlowRow.read

theorem read_eq_shown {r : FlowRow} {revision : UInt64} (h : r.revision.read = .ok revision) :
    r.read = shown TableStore { r.document with revision } := by
  show r.read = (Flow.reread? { r.document with revision }).elim _ Except.ok
  rw [Flow.reread?_revision, FlowRow.read, Flow.readBack, h]
  cases r.document.reread? <;> rfl

/-- A save counts up the revision that was read. -/
theorem revision_of_next {row : FlowRow} {old : Flow} {revision : UInt64}
    (hnext : row.revision.next.read = .ok revision) (hold : row.read = .ok old) :
    revision = old.revision + 1 := by
  obtain ⟨document, -, hold⟩ := bind_eq_ok_iff.mp hold
  obtain ⟨before, hbefore, hold⟩ := bind_eq_ok_iff.mp hold
  rw [← Except.ok.inj hold]
  cases hcolumn : row.revision with
  | overflown =>
    rw [hcolumn] at hbefore
    nomatch hbefore
  | whole n =>
    rw [hcolumn] at hbefore hnext
    by_cases hmax : n = Int64.maxValue
    · rw [RevisionColumn.next, if_pos hmax] at hnext
      nomatch hnext
    · rw [RevisionColumn.next, if_neg hmax] at hnext
      rw [← Except.ok.inj hbefore, ← Except.ok.inj hnext, Int64.toUInt64_add]
      rfl

theorem Sound.replaces {t : TableStore} {f : Flow} {row : FlowRow} {revision : UInt64}
    (h : t.Sound) (hfind : t.active.find? (FlowRow.owns f.workspace f.id) = some row)
    (hnext : row.revision.next.read = .ok revision) :
    Replaces { f with revision } t { t with
      active := modifyFirst (FlowRow.owns f.workspace f.id)
        (fun r ↦ { r with live := f.live, revision := row.revision.next, document := f })
        t.active } := by
  let change (r : FlowRow) : FlowRow :=
    { r with live := f.live, revision := row.revision.next, document := f }
  have hactive : (modifyFirst (FlowRow.owns f.workspace f.id) change t.active).map FlowRow.flow =
      modifyFirst (ListStore.owns f.workspace f.id) (fun _ ↦ { f with revision })
        (t.active.map FlowRow.flow) := by
    refine map_modifyFirst_of_corresponds (fun r hr ↦ (h.active r hr).owns_flow) fun r _ _ ↦ ?_
    show ({ f with revision := row.revision.next.revision } : Flow) = _
    rw [RevisionColumn.revision_of_read hnext]
  refine ⟨⟨fun _ ↦ rfl, fun _ _ ↦ rfl, fun _ _ ↦ rfl⟩, ⟨row, change, hfind, fun _ hr ↦ hr,
    read_eq_shown (r := change row) hnext, fun old hold ↦ revision_of_next hnext hold, rfl⟩, ?_⟩
  exact congrArg (fun active ↦ { t.contents with active }) hactive

instance : LawfulRows TableStore where
  faithful hs r hr f h := by
    obtain ⟨hid, hworkspace, -⟩ := (hs.active r hr).of_read h
    exact ⟨hid, hworkspace⟩
  read_of_error h := FlowRow.read_of_error h
  getFlow_eq workspace id t := by
    show getFlow workspace id t = (t.active.find? (FlowRow.owns workspace id)).elim _ FlowRow.read
    unfold getFlow
    cases t.active.find? (FlowRow.owns workspace id) <;> rfl
  listFlows_eq _ _ := rfl
  listLiveFlows_eq _ _ := rfl
  insertFlow_ok {t t' f} h := by
    rcases insertRow_cases (.ofFlow f.workspace f) t with ⟨-, heq⟩ | ⟨hnew, heq⟩
    · nomatch heq.symm.trans h
    · obtain ⟨-, rfl⟩ := Prod.mk.inj (heq.symm.trans h)
      refine ⟨⟨fun _ ↦ rfl, fun _ _ ↦ rfl, fun _ _ ↦ rfl⟩, hnew,
        ⟨.ofFlow f.workspace f, FlowRow.owns_iff.mpr ⟨rfl, rfl⟩, ?_, rfl⟩,
        Sound.contents_append t f.workspace f⟩
      exact read_eq_shown (r := .ofFlow f.workspace f)
        (RevisionColumn.read_ofRevision f.revision)
  saveFlow_ok {t t'} hs {f expected revision} h := by
    rcases saveFlow_cases f expected t with ⟨e, heq⟩ | ⟨row, hfind, -, heq⟩
    · nomatch heq.symm.trans h
    · obtain ⟨hnext, rfl⟩ := Prod.mk.inj (heq.symm.trans h)
      exact hs.replaces hfind hnext

end TableStore

end GuidedTours
