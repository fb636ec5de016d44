import GuidedTours.Proofs.Editor.Revise
import GuidedTours.Proofs.Store.Copies

/-!
What becomes of the flows in a schedule. A move leaves them as they are, or adds one at revision
zero under the id it was given, or saves one and counts up its revision, or replaces one that goes
to the archive or comes back by its copy. So a flow can be followed by its id from move to move: its
revision is the number of its saves, and between two saves it is copied each time that it is moved.
-/

set_option autoImplicit false

namespace GuidedTours

open Copying

namespace Move

/-- The id of the flow that the move tries to create. -/
def created? : Move → Option FlowId
  | .create _ _ id _ => some id
  | _ => none

def ticket? : Move → Option Nat
  | .load ticket .. | .save ticket => some ticket
  | _ => none

/-- The id of the flow that the move tries to archive or to restore. -/
def moved? : Move → Option FlowId
  | .archive _ flowId | .restore _ flowId => FlowId.parseEntered? flowId
  | _ => none

end Move

namespace Desk

section Saves

variable {σ : Type} [Store σ]

/-- Whether the move is a save of the flow with the id, and a successful one. -/
def saves (id : FlowId) (d : Desk σ) : Move → Bool
  | .save ticket => (d.writes ticket).any fun w ↦
      w.loaded.id = id && (Editor.save w.config w.edit w.loaded d.store).1.isOk
  | _ => false

theorem saves_save {d : Desk σ} {ticket : Nat} {w : Write} (h : d.writes ticket = some w) :
    d.saves w.loaded.id (.save ticket) ↔
      (Editor.save w.config w.edit w.loaded d.store).1.isOk := by
  simp [saves, h]

/-- How often the flow with the id is saved. -/
def saveCount (id : FlowId) : Desk σ → List Move → Nat
  | _, [] => 0
  | d, m :: rest => (d.saves id m).toNat + saveCount id (d.perform m).2 rest

/-- Whether the move is one of the flow with the id to the archive or back, and a successful one. -/
def relocates (id : FlowId) (d : Desk σ) (m : Move) : Bool :=
  m.moved? = some id && (d.perform m).1.isOk

/-- How often the flow with the id is moved to the archive or back. -/
def relocationCount (id : FlowId) : Desk σ → List Move → Nat
  | _, [] => 0
  | d, m :: rest => (d.relocates id m).toNat + relocationCount id (d.perform m).2 rest

theorem not_relocates {id : FlowId} {d : Desk σ} {m : Move} (h : m.moved? = none) :
    ¬ d.relocates id m := by
  simp [relocates, h]

theorem saveCount_append (id : FlowId) (d : Desk σ) (moves later : List Move) :
    saveCount id d (moves ++ later) =
      saveCount id d moves + saveCount id (d.after moves) later := by
  induction moves generalizing d with
  | nil => simp [saveCount]
  | cons m rest ih => rw [List.cons_append, saveCount, ih, saveCount, after_cons, Nat.add_assoc]

theorem writes_after {d : Desk σ} {moves : List Move} {ticket : Nat}
    (h : ∀ m ∈ moves, m.ticket? ≠ some ticket) :
    (d.after moves).writes ticket = d.writes ticket := by
  induction moves generalizing d with
  | nil => rfl
  | cons m rest ih =>
    rw [after_cons, ih fun m hm ↦ h m (List.mem_cons_of_mem _ hm)]
    have hm := h m List.mem_cons_self
    cases m with
    | create workspace input id now => rw [perform_create]
    | load other config workspace flowId edit =>
      have hne : ticket ≠ other := fun heq ↦ hm (by rw [heq]; rfl)
      exact writes_setWrite_of_ne hne
    | save other =>
      have hne : ticket ≠ other := fun heq ↦ hm (by rw [heq]; rfl)
      cases hw : d.writes other with
      | none => rw [perform_save_of_none hw]
      | some w =>
        rw [perform_save_of_some hw]
        exact writes_setWrite_of_ne hne
    | archive workspace flowId => rw [perform_archive]
    | restore workspace flowId => rw [perform_restore]

end Saves

section Lists

variable {config : EditorConfig} {edit : Edit} {loaded : Flow} {s : ListStore}

theorem save_cases (config : EditorConfig) (edit : Edit) (loaded : Flow) (s : ListStore) :
    (∃ e, Editor.save config edit loaded s = (.error e, s)) ∨
      ∃ revised revision, edit.revise config loaded = .ok revised ∧
        (ListStore.saveFlow revised (edit.expectedRevision config loaded) s).1 = .ok revision ∧
        Editor.save config edit loaded s = (.ok { revised with revision },
          (ListStore.saveFlow revised (edit.expectedRevision config loaded) s).2) := by
  rcases Editor.save_cases config edit loaded s with ⟨e, -, heq⟩ | ⟨revised, hrevised, heq⟩
  · exact .inl ⟨e, heq⟩
  · rw [heq]
    show (∃ e, (Except.map _ (Editor.fromStore (ListStore.saveFlow _ _ s).1),
      (ListStore.saveFlow _ _ s).2) = (Except.error e, s)) ∨ _
    cases hsave : (ListStore.saveFlow revised (edit.expectedRevision config loaded) s).1 with
    | error e => exact .inl ⟨.store e, by rw [ListStore.saveFlow_of_error hsave]; rfl⟩
    | ok revision => exact .inr ⟨revised, revision, hrevised, hsave, rfl⟩

/-- When a save succeeds. -/
theorem save_isOk_iff : (Editor.save config edit loaded s).1.isOk ↔
    (∃ revised, edit.revise config loaded = .ok revised) ∧
    ∃ stored, ListStore.find? s.active loaded.workspace loaded.id = some stored ∧
      ∀ e, edit.expectedRevision config loaded = some e → e = stored.revision := by
  rcases Editor.save_cases config edit loaded s with ⟨e, hrevise, heq⟩ | ⟨revised, hrevised, heq⟩
  · simp [heq, hrevise, Except.isOk, Except.toBool]
  · obtain ⟨hid, hworkspace, -⟩ := Edit.revise_keeps hrevised
    have hok : (Editor.save config edit loaded s).1.isOk ↔ ∃ revision,
        (ListStore.saveFlow revised (edit.expectedRevision config loaded) s).1 = .ok revision := by
      rw [heq, isOk_iff]
      show (∃ a, Except.map _ (Editor.fromStore (ListStore.saveFlow _ _ s).1) = .ok a) ↔ _
      simp only [map_eq_ok_iff, Editor.fromStore, mapError_eq_ok_iff]
      exact ⟨fun ⟨_, revision, h, _⟩ ↦ ⟨revision, h⟩, fun ⟨revision, h⟩ ↦ ⟨_, revision, h, rfl⟩⟩
    rw [hok]
    simp only [ListStore.saveFlow_eq_ok_iff, hid, hworkspace, hrevised]
    constructor
    · intro hsave
      obtain ⟨revision, stored, hfind, hexpected, -⟩ := hsave
      exact ⟨⟨revised, rfl⟩, stored, hfind, hexpected⟩
    · intro hsave
      obtain ⟨-, stored, hfind, hexpected⟩ := hsave
      exact ⟨_, stored, hfind, hexpected, rfl⟩

/-- What a save does to the contents of the store: nothing, or it counts up the revision of the
flow that it replaces. -/
theorem save_perm (config : EditorConfig) (edit : Edit) (loaded : Flow) (s : ListStore) :
    (¬ (Editor.save config edit loaded s).1.isOk ∧ (Editor.save config edit loaded s).2 = s) ∨
      (Editor.save config edit loaded s).1.isOk ∧
        ∃ stored saved rest, stored.id = loaded.id ∧ saved.id = stored.id ∧
          saved.revision = stored.revision + 1 ∧ s.flows.Perm (stored :: rest) ∧
          (Editor.save config edit loaded s).2.flows.Perm (saved :: rest) := by
  rcases save_cases config edit loaded s with ⟨e, heq⟩ | ⟨revised, revision, hrevised, hsave, heq⟩
  · rw [heq]
    exact .inl ⟨Bool.false_ne_true, rfl⟩
  · obtain ⟨stored, hfind, hexpected, -⟩ := ListStore.saveFlow_eq_ok_iff.mp hsave
    obtain ⟨rest, hbefore, hafter⟩ := ListStore.saveFlow_perm hfind hexpected
    have hid : stored.id = revised.id := (ListStore.find?_some hfind).2.1
    have hloaded : revised.id = loaded.id := (Edit.revise_keeps hrevised).1
    rw [heq]
    exact .inr ⟨rfl, stored, { revised with revision := stored.revision + 1 }, rest,
      hid.trans hloaded, hid.symm, rfl, hbefore, hafter⟩

theorem create_perm (workspace : String) (input : FlowUpdate) (id : FlowId) (now : Moment)
    (s : ListStore) :
    (Editor.create workspace input id now s).2 = s ∨
      ∃ f, f.id = id ∧ f.revision = 0 ∧
        (Editor.create workspace input id now s).2.flows.Perm (f :: s.flows) := by
  rcases Editor.create_cases workspace input id now s with ⟨e, heq⟩ | ⟨f, hf, heq⟩
  · exact .inl (congrArg Prod.snd heq)
  · rw [heq]
    rcases ListStore.insertFlow_perm f s with hsame | ⟨-, hperm⟩
    · exact .inl hsame
    · obtain ⟨hid, -, -, hrevision⟩ := Editor.newFlow_keeps hf
      exact .inr ⟨f, hid, hrevision, hperm⟩

end Lists

section Contents

variable {σ : Type} [Store σ] [Copying σ] [LawfulCopying σ] {s : σ}

theorem create_contents (hs : Sound s) (workspace : String) (input : FlowUpdate) (id : FlowId)
    (now : Moment) :
    contents (Editor.create workspace input id now s).2 =
        (Editor.create workspace input id now (contents s)).2 ∧
      Sound (Editor.create workspace input id now s).2 := by
  unfold Editor.create
  cases Editor.newFlow workspace input id now with
  | error e => exact ⟨rfl, hs⟩
  | ok f => exact (LawfulCopying.insertFlow_eq hs f).2

theorem save_contents (hs : Ready s) (config : EditorConfig) (edit : Edit) (loaded : Flow) :
    (Editor.save config edit loaded s).1 = (Editor.save config edit loaded (contents s)).1 ∧
      contents (Editor.save config edit loaded s).2 =
        (Editor.save config edit loaded (contents s)).2 ∧
      Sound (Editor.save config edit loaded s).2 := by
  unfold Editor.save
  cases edit.revise config loaded with
  | error e => exact ⟨rfl, rfl, hs.sound⟩
  | ok revised =>
    obtain ⟨hanswer, hcontents, hsound⟩ :=
      LawfulCopying.saveFlow_eq hs revised (edit.expectedRevision config loaded)
    refine ⟨?_, hcontents, hsound⟩
    show (Editor.fromStore (Store.saveFlow _ _ s).1).map _ =
      (Editor.fromStore (ListStore.saveFlow _ _ (contents s)).1).map _
    rw [hanswer]

end Contents

theorem add_ofNat_eq_self_iff {r : UInt64} {n : Nat} (hn : n < 2 ^ 64) :
    r + UInt64.ofNat n = r ↔ n = 0 := by
  constructor
  · intro h
    have hzero : UInt64.ofNat n = 0 := by simpa using h
    have htoNat := congrArg UInt64.toNat hzero
    rwa [UInt64.toNat_ofNat_of_lt' hn] at htoNat
  · intro h
    rw [h]
    exact UInt64.add_zero r

section Turns

variable {σ : Type} [Copying σ] {d : Desk σ} {m : Move} {moves later : List Move}
variable {id : FlowId} {f : Flow}

/-- The flows as they are kept. -/
def flows (d : Desk σ) : List Flow := Copying.flows d.store

/-- No two flows have one id, and no move creates a flow under the id of another. -/
def Fresh (d : Desk σ) (moves : List Move) : Prop :=
  (d.flows.map Flow.id ++ moves.filterMap Move.created?).Nodup

theorem Fresh.distinct (h : d.Fresh moves) : (d.flows.map Flow.id).Nodup :=
  (List.nodup_append.mp h).1

theorem Fresh.created_ne (h : d.Fresh moves) (hf : f ∈ d.flows) (hm : m ∈ moves) :
    m.created? ≠ some f.id := by
  intro hcreated
  exact (List.nodup_append.mp h).2.2 f.id (List.mem_map_of_mem hf) f.id
    (List.mem_filterMap.mpr ⟨m, hm, hcreated⟩) rfl

variable [Store σ]

/-- What a move can do to the flows. -/
inductive Turn (d : Desk σ) (m : Move) (after : List Flow) : Prop
  | kept (hperm : after.Perm d.flows) (hsaves : ∀ id, ¬ d.saves id m)
    (hrelocates : ∀ id, ¬ d.relocates id m)
  | created (f : Flow) (hcreated : m.created? = some f.id) (hrevision : f.revision = 0)
    (hperm : after.Perm (f :: d.flows)) (hsaves : ∀ id, ¬ d.saves id m)
    (hrelocates : ∀ id, ¬ d.relocates id m)
  | saved (f g : Flow) (rest : List Flow) (hid : g.id = f.id)
    (hrevision : g.revision = f.revision + 1) (hbefore : d.flows.Perm (f :: rest))
    (hafter : after.Perm (g :: rest)) (hsaves : ∀ id, d.saves id m ↔ f.id = id)
    (hrelocates : ∀ id, ¬ d.relocates id m)
  | moved (f g : Flow) (rest : List Flow) (hcopy : copy? σ f = some g)
    (hbefore : d.flows.Perm (f :: rest)) (hafter : after.Perm (g :: rest))
    (hsaves : ∀ id, ¬ d.saves id m) (hrelocates : ∀ id, d.relocates id m ↔ f.id = id)

theorem turn_of_fails {e : EditError} (hsaves : ∀ id, ¬ d.saves id m)
    (hperform : d.perform m = (.error e, d)) (hsound : Sound d.store) :
    Sound (d.perform m).2.store ∧ d.Turn m (d.perform m).2.flows := by
  have hrelocates : ∀ id, ¬ d.relocates id m := by
    simp [relocates, hperform, Except.isOk, Except.toBool]
  rw [hperform]
  exact ⟨hsound, .kept (.refl _) hsaves hrelocates⟩

/-- What archiving and restoring do. -/
theorem turn_of_relocates {result : Except StoreError Unit × σ} (hmoved : m.moved? = some id)
    (hsaves : ∀ id, ¬ d.saves id m)
    (hperform : d.perform m =
      ((Editor.fromStore result.1).map fun _ ↦ .done, { d with store := result.2 }))
    (h : Sound result.2 ∧ Relocates id d.store result) :
    Sound (d.perform m).2.store ∧ d.Turn m (d.perform m).2.flows := by
  obtain ⟨hsound, hrelocates⟩ := h
  cases hrelocates with
  | fails e heq =>
    rw [heq] at hperform hsound
    exact turn_of_fails hsaves hperform hsound
  | succeeds s' f g rest heq hid hcopy hbefore hafter =>
    rw [heq] at hperform hsound
    have hanswer : (d.perform m).1 = .ok .done := congrArg Prod.fst hperform
    have hsucceeds : ∀ other, d.relocates other m ↔ f.id = other := by
      simp [relocates, hmoved, hid, hanswer, Except.isOk, Except.toBool]
    rw [hperform]
    exact ⟨hsound, .moved f g rest hcopy hbefore hafter hsaves hsucceeds⟩

variable [LawfulCopying σ]

theorem turn (h : Ready d.store) (m : Move) :
    Sound (d.perform m).2.store ∧ d.Turn m (d.perform m).2.flows := by
  cases m with
  | create workspace input id now =>
    obtain ⟨hcontents, hsound⟩ := create_contents h.sound workspace input id now
    rw [perform_create]
    refine ⟨hsound, ?_⟩
    have hflows := congrArg ListStore.flows hcontents
    rcases create_perm workspace input id now (contents d.store) with
      hsame | ⟨f, hid, hrevision, hperm⟩
    · exact .kept (.of_eq (hflows.trans (congrArg ListStore.flows hsame)))
        (fun _ ↦ Bool.false_ne_true) fun _ ↦ not_relocates rfl
    · exact .created f (congrArg some hid.symm) hrevision ((List.Perm.of_eq hflows).trans hperm)
        (fun _ ↦ Bool.false_ne_true) fun _ ↦ not_relocates rfl
  | load ticket config workspace flowId edit =>
    exact ⟨h.sound, .kept (.refl _) (fun _ ↦ Bool.false_ne_true) fun _ ↦ not_relocates rfl⟩
  | save ticket =>
    cases hw : d.writes ticket with
    | none =>
      rw [perform_save_of_none hw]
      exact ⟨h.sound, .kept (.refl _) (fun id ↦ by simp [saves, hw]) fun _ ↦ not_relocates rfl⟩
    | some w =>
      obtain ⟨hanswer, hcontents, hsound⟩ := save_contents h w.config w.edit w.loaded
      have hflows := congrArg ListStore.flows hcontents
      rw [perform_save_of_some hw]
      refine ⟨hsound, ?_⟩
      rcases save_perm w.config w.edit w.loaded (contents d.store) with ⟨hfails, hsame⟩ |
        ⟨hok, stored, saved, rest, hloaded, hid, hrevision, hbefore, hafter⟩
      · refine .kept (.of_eq (hflows.trans (congrArg ListStore.flows hsame))) (fun id ↦ ?_)
          fun _ ↦ not_relocates rfl
        simp [saves, hw, hanswer, hfails]
      · refine .saved stored saved rest hid hrevision hbefore
          ((List.Perm.of_eq hflows).trans hafter) (fun id ↦ ?_) fun _ ↦ not_relocates rfl
        simp [saves, hw, hanswer, hok, hloaded]
  | archive workspace flowId =>
    have hperform := perform_archive (d := d) workspace flowId
    rcases Editor.archive_cases workspace flowId d.store with ⟨e, heq⟩ | ⟨id, hparse, heq⟩
    · rw [heq] at hperform
      exact turn_of_fails (fun _ ↦ Bool.false_ne_true) hperform h.sound
    · rw [heq] at hperform
      exact turn_of_relocates (parseFlowId_eq_ok_iff.mp hparse) (fun _ ↦ Bool.false_ne_true)
        hperform (LawfulCopying.archiveFlow_relocates h.sound workspace id)
  | restore workspace flowId =>
    have hperform := perform_restore (d := d) workspace flowId
    rcases Editor.restore_cases workspace flowId d.store with ⟨e, heq⟩ | ⟨id, hparse, heq⟩
    · rw [heq] at hperform
      exact turn_of_fails (fun _ ↦ Bool.false_ne_true) hperform h.sound
    · rw [heq] at hperform
      exact turn_of_relocates (parseFlowId_eq_ok_iff.mp hparse) (fun _ ↦ Bool.false_ne_true)
        hperform (LawfulCopying.restoreFlow_relocates h.sound workspace id)

/-- What becomes of a flow in one move. -/
theorem holds_perform (hready : Ready d.store) (h : (contents d.store).Holds id f)
    (hm : m.created? ≠ some id) :
    ∃ g, (contents (d.perform m).2.store).Holds id g ∧
      (d.saves id m ∧ g.revision = f.revision + 1 ∨
        ¬ d.saves id m ∧ copies? σ (d.relocates id m).toNat f = some g) := by
  have hself (hnot : ¬ d.relocates id m) : copies? σ (d.relocates id m).toNat f = some f := by
    rw [Bool.eq_false_iff.mpr hnot]
    rfl
  cases (turn hready m).2 with
  | kept hperm hsaves hrelocates =>
    exact ⟨f, h.of_perm hperm, .inr ⟨hsaves id, hself (hrelocates id)⟩⟩
  | created g hcreated _ hperm hsaves hrelocates =>
    have hne : g.id ≠ id := fun hid ↦ hm (hid ▸ hcreated)
    exact ⟨f, h.of_perm_cons hne hperm, .inr ⟨hsaves id, hself (hrelocates id)⟩⟩
  | saved stored saved rest hsame hrevision hbefore hafter hsaves hrelocates =>
    have hnext := h.of_replaced hsame hbefore hafter
    by_cases hid : stored.id = id
    · rw [if_pos hid] at hnext
      exact ⟨saved, hnext.2, .inl ⟨(hsaves id).mpr hid, hnext.1 ▸ hrevision⟩⟩
    · rw [if_neg hid] at hnext
      exact ⟨f, hnext, .inr ⟨mt (hsaves id).mp hid, hself (hrelocates id)⟩⟩
  | moved stored copy rest hcopy hbefore hafter hsaves hrelocates =>
    have hnext := h.of_replaced (copy_id hcopy) hbefore hafter
    by_cases hid : stored.id = id
    · rw [if_pos hid] at hnext
      refine ⟨copy, hnext.2, .inr ⟨hsaves id, ?_⟩⟩
      rw [(hrelocates id).mpr hid, ← hnext.1, Bool.toNat_true, copies?_one, hcopy]
    · rw [if_neg hid] at hnext
      exact ⟨f, hnext, .inr ⟨hsaves id, hself (mt (hrelocates id).mp hid)⟩⟩

/-- What becomes of a flow in a run: its revision counts its saves, and without any it is copied as
often as it goes to the archive or comes back. -/
theorem holds_after (halong : d.Along (fun d _ ↦ Ready d.store) moves)
    (h : (contents d.store).Holds id f) (hmoves : ∀ m ∈ moves, m.created? ≠ some id) :
    ∃ g, (contents (d.after moves).store).Holds id g ∧
      g.revision = f.revision + UInt64.ofNat (saveCount id d moves) ∧
      (saveCount id d moves = 0 → copies? σ (relocationCount id d moves) f = some g) := by
  induction moves generalizing d f with
  | nil => exact ⟨f, h, by simp [saveCount], fun _ ↦ rfl⟩
  | cons m rest ih =>
    obtain ⟨g, hg, hstep⟩ := holds_perform halong.1 h (hmoves m List.mem_cons_self)
    obtain ⟨last, hlast, hrevision, hnone⟩ :=
      ih halong.2 hg fun m hm ↦ hmoves m (List.mem_cons_of_mem _ hm)
    refine ⟨last, hlast, ?_, ?_⟩
    · -- A save counts the revision up by one, and a move copies the flow at the revision it has.
      rw [hrevision, saveCount, UInt64.ofNat_add, ← UInt64.add_assoc]
      rcases hstep with ⟨hsaves, hnext⟩ | ⟨hsaves, hcopies⟩
      · rw [hnext, hsaves]
        rfl
      · rw [Bool.eq_false_iff.mpr hsaves, (copies?_keeps hcopies).2]
        show f.revision + _ = f.revision + 0 + _
        rw [UInt64.add_zero]
    · intro hcount
      rw [saveCount] at hcount
      rcases hstep with ⟨hsaves, -⟩ | ⟨-, hcopies⟩
      · simp [hsaves] at hcount
      · rw [relocationCount, copies?_add, hcopies, Option.bind_some]
        exact hnone (by omega)

theorem Fresh.perform (hready : Ready d.store) (h : d.Fresh (m :: moves)) :
    (d.perform m).2.Fresh moves := by
  have hmoves : (d.flows.map Flow.id ++ moves.filterMap Move.created?).Nodup :=
    h.sublist (((List.sublist_cons_self m moves).filterMap _).append_left _)
  cases (turn hready m).2 with
  | kept hperm _ _ => exact ((hperm.map Flow.id).append_right _).nodup_iff.mpr hmoves
  | created f hcreated _ hperm _ _ =>
    rw [Fresh, List.filterMap_cons_some hcreated] at h
    refine ((hperm.map Flow.id).append_right _).nodup_iff.mpr ?_
    exact List.perm_middle.nodup_iff.mp h
  | saved f g rest hid _ hbefore hafter _ _ =>
    have hids := hafter.map Flow.id
    rw [List.map_cons, hid, ← List.map_cons] at hids
    exact ((hids.trans (hbefore.map Flow.id).symm).append_right _).nodup_iff.mpr hmoves
  | moved f g rest hcopy hbefore hafter _ _ =>
    have hids := hafter.map Flow.id
    rw [List.map_cons, copy_id hcopy, ← List.map_cons] at hids
    exact ((hids.trans (hbefore.map Flow.id).symm).append_right _).nodup_iff.mpr hmoves

theorem Fresh.after (halong : d.Along (fun d _ ↦ Ready d.store) moves)
    (h : d.Fresh (moves ++ later)) : (d.after moves).Fresh later := by
  induction moves generalizing d with
  | nil => exact h
  | cons m rest ih => exact ih halong.2 (h.perform halong.1)

theorem fresh_opening (h : (moves.filterMap Move.created?).Nodup) :
    (opening : Desk σ).Fresh moves := by
  show ((contents (Store.empty : σ)).flows.map Flow.id ++ _).Nodup
  rw [LawfulCopying.contents_empty]
  exact h

end Turns

end Desk

end GuidedTours
