import GuidedTours.Proofs.Editor.Tracks

/-!
What a save tells about the saves before it. The revision of a flow counts its saves, through the
archive and back, so a save that is conditioned on a revision tells how many others came first. An
optimistic editor conditions a save on the revision that it loaded, and then none came first; but a
revision that the update names goes before the loaded one, and a save under a later revision
overwrites what came in between.
-/

set_option autoImplicit false

namespace GuidedTours

namespace Edit

/-- The revision that an edit itself names. -/
def namedRevision : Edit → Option UInt64
  | .update u _ => u.expectedRevision
  | _ => none

theorem expectedRevision_of_optimistic {config : EditorConfig} (e : Edit) (loaded : Flow)
    (h : config.concurrency = .optimistic) :
    e.expectedRevision config loaded = some (e.namedRevision.getD loaded.revision) := by
  have hcases : e.expectedRevision config loaded = e.namedRevision.or (some loaded.revision) := by
    cases e <;> simp [expectedRevision, namedRevision, h]
  rw [hcases]
  cases e.namedRevision <;> rfl

end Edit

namespace Desk

variable {d : Desk ListStore} {config : EditorConfig} {edit : Edit} {loaded : Flow}

theorem along_ready (d : Desk ListStore) (moves : List Move) :
    d.Along (fun d _ ↦ Copying.Ready d.store) moves :=
  along_of_forall (fun d _ ↦ d.store.ready) d moves

/-- The loaded flow is the only one with its id when it is loaded, and it can be followed from there
to the save. -/
theorem holds_until_save {before between : List Move} {ticket : Nat} {workspace flowId : String}
    (hcreated : ((before ++ between).filterMap Move.created?).Nodup)
    (hload : Editor.get workspace flowId ((opening : Desk ListStore).after before).store =
      .ok loaded)
    (hd : d = (opening.after before).after [.load ticket config workspace flowId edit]) :
    d.writes ticket = some ⟨config, edit, loaded⟩ ∧
      ∃ f, (d.after between).store.Holds loaded.id f ∧
        f.revision = loaded.revision + UInt64.ofNat (saveCount loaded.id d between) ∧
        (saveCount loaded.id d between = 0 → f = loaded) := by
  have hfresh : ((opening : Desk ListStore).after before).Fresh between :=
    (fresh_opening hcreated).after (along_ready opening before)
  obtain ⟨id, -, hget⟩ := Editor.get_eq_ok_iff.mp hload
  have hmem : loaded ∈ ((opening : Desk ListStore).after before).flows :=
    List.mem_append_left _ (ListStore.find?_some (ListStore.getFlow_eq_ok_iff.mp hget)).1
  have hstore : d.store = (opening.after before).store := by rw [hd]; rfl
  have hholds : d.store.Holds loaded.id loaded :=
    hstore ▸ ListStore.holds_of_nodup hfresh.distinct hmem
  obtain ⟨f, hf, hrevision, hsame⟩ := holds_after (along_ready d between) hholds fun m hm ↦
    hfresh.created_ne hmem hm
  refine ⟨?_, f, hf, hrevision, fun hnone ↦ ListStore.eq_of_copies? (hsame hnone)⟩
  rw [hd, after_cons, after_nil]
  simp only [perform, writes_setWrite_self, hload, toOption_eq_some_iff.mpr rfl, Option.map_some]

/-- The save of an optimistic editor, with any other moves between its load and itself. It succeeds
if the edit can be made, the flow is active, and the revision that the save is conditioned on is the
loaded one counted up by the saves in between; otherwise it changes nothing. So it overwrites no
other save exactly if the edit names no revision but the loaded one. -/
theorem optimistic_save {before between : List Move} {ticket : Nat} {workspace flowId : String}
    (hcreated : ((before ++ between).filterMap Move.created?).Nodup)
    (hconfig : config.concurrency = .optimistic)
    (hload : Editor.get workspace flowId ((opening : Desk ListStore).after before).store =
      .ok loaded)
    (hticket : ∀ m ∈ between, m.ticket? ≠ some ticket)
    (hd : d = (opening.after before).after [.load ticket config workspace flowId edit]) :
    ((d.after between).saves loaded.id (.save ticket) ↔
      (∃ revised, edit.revise config loaded = .ok revised) ∧
      (∃ stored, Store.getFlow loaded.workspace loaded.id (d.after between).store = .ok stored) ∧
      edit.namedRevision.getD loaded.revision =
        loaded.revision + UInt64.ofNat (saveCount loaded.id d between)) ∧
    (¬ (d.after between).saves loaded.id (.save ticket) →
      ((d.after between).perform (.save ticket)).2.store = (d.after between).store) ∧
    ((d.after between).saves loaded.id (.save ticket) → saveCount loaded.id d between < 2 ^ 64 →
      (saveCount loaded.id d between = 0 ↔
        edit.namedRevision.getD loaded.revision = loaded.revision)) ∧
    (saveCount loaded.id d between = 0 → ∀ stored,
      Store.getFlow loaded.workspace loaded.id (d.after between).store = .ok stored →
      stored = loaded) := by
  obtain ⟨hwrite, f, hholds, hrevision, hsame⟩ := holds_until_save hcreated hload hd
  rw [← writes_after hticket] at hwrite
  have hsaves : (d.after between).saves loaded.id (.save ticket) ↔
      (∃ revised, edit.revise config loaded = .ok revised) ∧
      (∃ stored, Store.getFlow loaded.workspace loaded.id (d.after between).store = .ok stored) ∧
      edit.namedRevision.getD loaded.revision =
        loaded.revision + UInt64.ofNat (saveCount loaded.id d between) := by
    rw [← hrevision, saves_save hwrite, save_isOk_iff,
      Edit.expectedRevision_of_optimistic edit loaded hconfig]
    simp only [Option.some.injEq, forall_eq']
    refine and_congr_right fun _ ↦ ⟨fun h ↦ ?_, fun h ↦ ?_⟩
    · obtain ⟨stored, hfind, hexpected⟩ := h
      exact ⟨⟨stored, ListStore.getFlow_eq_ok_iff.mpr hfind⟩, hholds.find?_eq hfind ▸ hexpected⟩
    · obtain ⟨⟨stored, hget⟩, hexpected⟩ := h
      have hfind := ListStore.getFlow_eq_ok_iff.mp hget
      exact ⟨stored, hfind, hholds.find?_eq hfind ▸ hexpected⟩
  refine ⟨hsaves, ?_, ?_, ?_⟩
  · intro hnot
    rw [saves_save hwrite] at hnot
    rw [perform_save_of_some hwrite]
    rcases save_perm config edit loaded (d.after between).store with ⟨-, hstore⟩ | ⟨hok, -⟩
    · exact hstore
    · exact absurd hok hnot
  · intro hok hfew
    obtain ⟨-, -, hconditioned⟩ := hsaves.mp hok
    rw [hconditioned, add_ofNat_eq_self_iff hfew]
  · intro hnone stored hget
    rw [← hsame hnone]
    exact hholds.find?_eq (ListStore.getFlow_eq_ok_iff.mp hget)

def optimist : EditorConfig := { concurrency := .optimistic }

def drafting : Move :=
  .create "w" { name := some "Draft", baseUrl := some "/" } draft.id draft.createdAt

def titling (named : Option UInt64) : Edit :=
  .update { name := some "Tour", expectedRevision := named } fun _ ↦ ""

def publishing : List Move :=
  [.load 1 optimist "w" draft.id.text (.setLive true), .save 1]

/-- The desk at which the draft is loaded to get a title. -/
def titlingDesk (named : Option UInt64) : Desk ListStore :=
  (opening.after [drafting]).after [.load 0 optimist "w" draft.id.text (titling named)]

theorem optimistic_save_after_publishing :
    (([drafting] ++ publishing).filterMap Move.created?).Nodup ∧
    Editor.get "w" draft.id.text ((opening : Desk ListStore).after [drafting]).store = .ok draft ∧
    (∀ m ∈ publishing, m.ticket? ≠ some 0) ∧
    ¬ ((titlingDesk none).after publishing).saves draft.id (.save 0) ∧
    (((titlingDesk none).after publishing).perform (.save 0)).2.store =
      ((titlingDesk none).after publishing).store := by
  have hcreated : (([drafting] ++ publishing).filterMap Move.created?).Nodup := by decide
  have hload : Editor.get "w" draft.id.text ((opening : Desk ListStore).after [drafting]).store =
      .ok draft := rfl
  have hticket : ∀ m ∈ publishing, m.ticket? ≠ some 0 := by decide
  have hconfig : optimist.concurrency = .optimistic := rfl
  have hd : titlingDesk none = (opening.after [drafting]).after
      [.load 0 optimist "w" draft.id.text (titling none)] := rfl
  obtain ⟨hsaves, hunchanged, -, -⟩ := optimistic_save hcreated hconfig hload hticket hd
  have hcount : saveCount draft.id (titlingDesk none) publishing = 1 := by decide
  have hnot : ¬ ((titlingDesk none).after publishing).saves draft.id (.save 0) := by
    rw [hsaves, hcount]
    intro hsucceeds
    obtain ⟨-, -, hrevision⟩ := hsucceeds
    exact absurd hrevision (by decide)
  exact ⟨hcreated, hload, hticket, hnot, hunchanged hnot⟩

/-- The title names the revision that publishing leaves, and the flow is no longer live. -/
theorem optimistic_save_overwrites_publishing :
    ¬ (((titlingDesk (some 1)).after publishing).saves draft.id (.save 0) →
      saveCount draft.id (titlingDesk (some 1)) publishing = 0) ∧
    ((titlingDesk (some 1)).after (publishing ++ [.save 0])).store.flows.map
      (fun f ↦ (f.name, f.live, f.revision)) = [("Tour", false, 2)] := by
  decide

end Desk

end GuidedTours
