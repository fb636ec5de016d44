import GuidedTours.Proofs.Editor.Saves
import GuidedTours.Proofs.FlowIds

/-!
What a revision tells about a flow. From the opening on it is the number of saves, so it is the
same at two times only if nothing was saved in between, and then a store of lists shows the same
document at both. A store of tables shows at the second time what comes of the document when it is
copied as often as it was moved in between: a move writes what it has read, which need not be what
had been written.
-/

set_option autoImplicit false

namespace GuidedTours

open Copying

/-- The flow and its revision. -/
def Flow.stamp (f : Flow) : FlowId × UInt64 := (f.id, f.revision)

namespace Editor

variable {σ : Type} [Store σ] {s : σ} {f : Flow}

/-- The flow is among the answers to a read. -/
inductive Shows (s : σ) (f : Flow) : Prop
  | get (workspace flowId : String) (h : get workspace flowId s = .ok f)
  | list (workspace : String) (flows : List Flow)
    (h : list workspace s = .ok flows) (hf : f ∈ flows)
  | listArchived (workspace : String) (flows : List Flow)
    (h : listArchived workspace s = .ok flows) (hf : f ∈ flows)

theorem Shows.copies [Copying σ] [LawfulCopying σ] (h : Shows s f) :
    ∃ g ∈ Copying.flows s, copy? σ g = some f := by
  cases h with
  | get workspace flowId h =>
    obtain ⟨id, -, hget⟩ := get_eq_ok_iff.mp h
    exact LawfulCopying.getFlow_copies hget
  | list workspace flows h hf =>
    exact LawfulCopying.listFlows_copies (mapError_eq_ok_iff.mp h) f hf
  | listArchived workspace flows h hf =>
    exact LawfulCopying.listArchivedFlows_copies (mapError_eq_ok_iff.mp h) f hf

end Editor

namespace OpenData

/-- Data of one number. -/
def double (name : String) (x : Decimal.Binary64) : OpenData :=
  ⟨[(name, .double x)], List.pairwise_singleton _ _, trivial, trivial⟩

theorem reread?_double {name : String} {x y : Decimal.Binary64} {around : Nat}
    (haround : around < Json.depthLimit) (h : Json.number? x.render = some (.double y)) :
    (double name x).reread? around = some (double name y) := by
  have hreread : (double name x).toJson.reread around = (double name y).toJson := by
    simp [toJson, double, Json.reread, Json.rereadMembers, haround, h]
  rw [reread?, hreread]
  exact ofJson?_toJson ⟨trivial, trivial⟩

end OpenData

namespace Desk

variable {σ : Type} [Copying σ] {d d' : Desk σ} {n : FlowId → Nat} {m : Move}
  {moves later : List Move} {f g : Flow}

/-- The revision of every flow is a given number, which is zero for the ids that no flow has. -/
structure Tallied (n : FlowId → Nat) (d : Desk σ) : Prop where
  sound : Sound d.store
  count : ∀ f ∈ d.flows, f.revision.toNat = n f.id
  none : ∀ id, id ∉ d.flows.map Flow.id → n id = 0

theorem Tallied.ready (h : d.Tallied n) (hfew : ∀ id, n id < capacity σ) : Ready d.store :=
  ⟨h.sound, fun f hf ↦ h.count f hf ▸ hfew f.id⟩

theorem Tallied.of_stamps (h : d.Tallied n) (hsound : Sound d'.store)
    (hstamps : (d'.flows.map Flow.stamp).Perm (d.flows.map Flow.stamp)) : d'.Tallied n := by
  refine ⟨hsound, fun f hf ↦ ?_, fun id hid ↦ h.none id fun hmem ↦ hid ?_⟩
  · obtain ⟨g, hg, hstamp⟩ := List.mem_map.mp (hstamps.subset (List.mem_map_of_mem hf))
    obtain ⟨hgid, hrevision⟩ := Prod.mk.inj hstamp
    rw [← hgid, ← hrevision]
    exact h.count g hg
  · have hids := hstamps.symm.map Prod.fst
    rw [List.map_map, List.map_map] at hids
    exact hids.subset hmem

theorem Tallied.of_created (h : d.Tallied n) (hsound : Sound d'.store)
    (hnew : f.id ∉ d.flows.map Flow.id) (hrevision : f.revision = 0)
    (hperm : d'.flows.Perm (f :: d.flows)) : d'.Tallied n := by
  refine ⟨hsound, fun g hg ↦ ?_, fun id hid ↦ h.none id fun hmem ↦ hid ?_⟩
  · rcases List.mem_cons.mp (hperm.mem_iff.mp hg) with rfl | hg
    · rw [hrevision]
      exact (h.none g.id hnew).symm
    · exact h.count g hg
  · exact (hperm.map Flow.id).symm.subset (List.mem_cons_of_mem _ hmem)

theorem Tallied.of_saved {rest : List Flow} (h : d.Tallied n) (hsound : Sound d'.store)
    (hdistinct : (d.flows.map Flow.id).Nodup) (hid : g.id = f.id)
    (hrevision : g.revision = f.revision + 1) (hbefore : d.flows.Perm (f :: rest))
    (hafter : d'.flows.Perm (g :: rest)) (hfew : n f.id + 1 < UInt64.size) :
    d'.Tallied (Function.update n f.id (n f.id + 1)) := by
  have hids := hbefore.map Flow.id
  rw [List.map_cons, ← hid, ← List.map_cons] at hids
  refine ⟨hsound, fun x hx ↦ ?_, fun id hnew ↦ ?_⟩
  · rcases List.mem_cons.mp (hafter.mem_iff.mp hx) with rfl | hx
    · have hf : f.revision.toNat = n f.id := h.count f (hbefore.mem_iff.mpr List.mem_cons_self)
      rw [hid, Function.update_self, hrevision, UInt64.toNat_add, hf]
      exact Nat.mod_eq_of_lt hfew
    · have hne : x.id ≠ f.id := by
        rw [← hid]
        exact fun hsame ↦ (List.nodup_cons.mp (hids.nodup_iff.mp hdistinct)).1
          (hsame ▸ List.mem_map_of_mem hx)
      rw [Function.update_of_ne hne]
      exact h.count x (hbefore.mem_iff.mpr (List.mem_cons_of_mem _ hx))
  · have hold : id ∉ d.flows.map Flow.id := fun hmem ↦
      hnew ((hafter.map Flow.id).mem_iff.mpr (hids.mem_iff.mp hmem))
    have hne : id ≠ f.id := fun hsame ↦
      hold (hsame ▸ List.mem_map_of_mem (hbefore.mem_iff.mpr List.mem_cons_self))
    rw [Function.update_of_ne hne]
    exact h.none id hold

variable [Store σ] [LawfulCopying σ]

theorem stamps_of_replaced {after rest : List Flow} (hcopy : copy? σ f = some g)
    (hbefore : d.flows.Perm (f :: rest)) (hafter : after.Perm (g :: rest)) :
    (after.map Flow.stamp).Perm (d.flows.map Flow.stamp) := by
  have hstamp : g.stamp = f.stamp :=
    Prod.ext (copy_id hcopy) (LawfulCopying.copy_keeps hcopy).2
  have hstamps := hafter.map Flow.stamp
  rw [List.map_cons, hstamp, ← List.map_cons] at hstamps
  exact hstamps.trans (hbefore.map Flow.stamp).symm

/-- Archiving and restoring keep all flows and their revisions. -/
theorem stamps_perform_of_moved (h : Ready d.store) (hm : m.moved?.isSome) :
    ((d.perform m).2.flows.map Flow.stamp).Perm (d.flows.map Flow.stamp) := by
  cases (turn h m).2 with
  | kept hperm _ _ => exact hperm.map Flow.stamp
  | created f hcreated _ _ _ _ => cases m <;> simp [Move.moved?, Move.created?] at hm hcreated
  | saved f g rest _ _ _ _ hsaves _ =>
    have hsaved := (hsaves f.id).mpr rfl
    cases m <;> simp [Move.moved?, saves] at hm hsaved
  | moved f g rest hcopy hbefore hafter _ _ => exact stamps_of_replaced hcopy hbefore hafter

theorem Tallied.perform (h : d.Tallied n) (hready : Ready d.store) (hfresh : d.Fresh (m :: moves))
    (hfew : ∀ id, n id + (d.saves id m).toNat < UInt64.size) :
    (d.perform m).2.Tallied fun id ↦ n id + (d.saves id m).toNat := by
  have hunsaved (hsaves : ∀ id, ¬ d.saves id m) : (fun id ↦ n id + (d.saves id m).toNat) = n :=
    funext fun id ↦ by rw [Bool.eq_false_iff.mpr (hsaves id)]; rfl
  obtain ⟨hsound, hturn⟩ := turn hready m
  cases hturn with
  | kept hperm hsaves _ =>
    rw [hunsaved hsaves]
    exact h.of_stamps hsound (hperm.map Flow.stamp)
  | created f hcreated hrevision hperm hsaves _ =>
    rw [hunsaved hsaves]
    refine h.of_created hsound (fun hmem ↦ ?_) hrevision hperm
    obtain ⟨old, hold, hsame⟩ := List.mem_map.mp hmem
    exact hfresh.created_ne hold List.mem_cons_self (hsame ▸ hcreated)
  | saved f g rest hid hrevision hbefore hafter hsaves _ =>
    have hcount : (fun id ↦ n id + (d.saves id m).toNat) =
        Function.update n f.id (n f.id + 1) := by
      funext id
      by_cases hsame : id = f.id
      · rw [hsame, Function.update_self, (hsaves f.id).mpr rfl]
        rfl
      · rw [Function.update_of_ne hsame,
          Bool.eq_false_iff.mpr (mt (hsaves id).mp (Ne.symm hsame))]
        rfl
    have hsmall := hfew f.id
    rw [(hsaves f.id).mpr rfl] at hsmall
    rw [hcount]
    exact h.of_saved hsound hfresh.distinct hid hrevision hbefore hafter hsmall
  | moved f g rest hcopy hbefore hafter hsaves _ =>
    rw [hunsaved hsaves]
    exact h.of_stamps hsound (stamps_of_replaced hcopy hbefore hafter)

theorem Tallied.after (h : d.Tallied n) (hfresh : d.Fresh moves)
    (hfew : ∀ id, n id + saveCount id d moves < capacity σ) :
    d.Along (fun d _ ↦ Ready d.store) moves ∧
      (d.after moves).Tallied fun id ↦ n id + saveCount id d moves := by
  induction moves generalizing n d with
  | nil => exact ⟨trivial, h⟩
  | cons m rest ih =>
    -- The bound on the whole run bounds the counts before every move, as the saves need it.
    simp only [saveCount, ← Nat.add_assoc] at hfew ⊢
    have hstep : ∀ id, n id + (d.saves id m).toNat < capacity σ :=
      fun id ↦ Nat.lt_of_le_of_lt (Nat.le_add_right _ _) (hfew id)
    have hready : Ready d.store :=
      h.ready fun id ↦ Nat.lt_of_le_of_lt (Nat.le_add_right _ _) (hstep id)
    have hnext := h.perform hready hfresh fun id ↦
      Nat.lt_of_lt_of_le (hstep id) LawfulCopying.capacity_le
    obtain ⟨halong, hlast⟩ := ih hnext (hfresh.perform hready) hfew
    exact ⟨⟨hready, halong⟩, hlast⟩

theorem tallied_opening : (opening : Desk σ).Tallied fun _ ↦ 0 := by
  refine ⟨LawfulCopying.sound_empty, fun f hf ↦ ?_, fun _ _ ↦ rfl⟩
  replace hf : f ∈ (contents (Store.empty : σ)).flows := hf
  rw [LawfulCopying.contents_empty] at hf
  nomatch hf

/-- A flow that is shown is at the revision of the one that is kept. -/
theorem Tallied.count_of_shows (h : d.Tallied n) (hf : f ∈ d.flows ∨ Editor.Shows d.store f) :
    f.revision.toNat = n f.id := by
  rcases hf with hf | hf
  · exact h.count f hf
  · obtain ⟨g, hg, hcopy⟩ := hf.copies
    rw [copy_id hcopy, (LawfulCopying.copy_keeps hcopy).2]
    exact h.count g hg

/-- Two reads that show a flow at one revision. -/
theorem copies_of_same_stamp (halong : d.Along (fun d _ ↦ Ready d.store) moves)
    (hfresh : d.Fresh moves) (hfew : ∀ id, saveCount id d moves < UInt64.size)
    (hf : Editor.Shows d.store f) (hg : Editor.Shows (d.after moves).store g)
    (hstamp : f.stamp = g.stamp) :
    copies? σ (relocationCount f.id d moves) f = some g := by
  obtain ⟨kept, hkept, hcopy⟩ := hf.copies
  obtain ⟨kept', hkept', hcopy'⟩ := hg.copies
  obtain ⟨hid, hrevision⟩ := Prod.mk.inj hstamp
  obtain ⟨last, hlast, hcount, hnone⟩ := holds_after halong
    (ListStore.holds_of_nodup hfresh.distinct hkept) fun m hm ↦ hfresh.created_ne hkept hm
  have hsame : kept' = last := by
    refine hlast.mem_iff.mp ⟨hkept', ?_⟩
    rw [← copy_id hcopy', ← hid, copy_id hcopy]
  -- The revisions agree, so nothing was saved and the flow that is kept was at most copied.
  have hunsaved : saveCount kept.id d moves = 0 := by
    rw [← add_ofNat_eq_self_iff (hfew kept.id), ← hcount, ← hsame,
      ← (LawfulCopying.copy_keeps hcopy').2, ← hrevision, (LawfulCopying.copy_keeps hcopy).2]
  rw [copy_id hcopy]
  exact copies?_of_copy (hnone hunsaved) hcopy (hsame ▸ hcopy')

theorem answer_of_save {ticket : Nat} {w : Write} (h : Ready d.store)
    (hw : d.writes ticket = some w) : (d.perform (.save ticket)).1 =
      (Editor.save w.config w.edit w.loaded (contents d.store)).1.map .flow := by
  rw [perform_save_of_some hw, (save_contents h w.config w.edit w.loaded).1]

/-- A successful save answers the next revision. -/
theorem stamp_of_save {ticket : Nat} {w : Write} (h : Ready d.store)
    (hw : d.writes ticket = some w) (hok : (d.perform (.save ticket)).1 = .ok (.flow g)) :
    ∃ f, ListStore.find? (contents d.store).active w.loaded.workspace w.loaded.id = some f ∧
      g.stamp = (f.id, f.revision + 1) := by
  rw [answer_of_save h hw] at hok
  obtain ⟨saved, hsave, hanswer⟩ := map_eq_ok_iff.mp hok
  obtain rfl : saved = g := EditorAnswer.flow.inj hanswer
  rcases save_cases w.config w.edit w.loaded (contents d.store) with
    ⟨e, heq⟩ | ⟨revised, revision, hrevised, hstore, heq⟩
  · simp [heq] at hsave
  · obtain ⟨hid, hworkspace, -⟩ := Edit.revise_keeps hrevised
    obtain ⟨f, hfind, -, rfl⟩ := ListStore.saveFlow_eq_ok_iff.mp hstore
    rw [heq] at hsave
    rw [← Except.ok.inj hsave, ← hworkspace, ← hid]
    exact ⟨f, hfind, Prod.ext (ListStore.find?_some hfind).2.1.symm rfl⟩

/-- When a save succeeds that carries a revision. -/
theorem save_succeeds_iff {ticket : Nat} {w : Write} {revised : Flow} {e : UInt64}
    (h : Ready d.store) (hw : d.writes ticket = some w)
    (hrevise : w.edit.revise w.config w.loaded = .ok revised)
    (hexpected : w.edit.expectedRevision w.config w.loaded = some e) :
    (∃ g, (d.perform (.save ticket)).1 = .ok (.flow g)) ↔
      ∃ f, ListStore.find? (contents d.store).active w.loaded.workspace w.loaded.id = some f ∧
        f.revision = e := by
  have hok : (∃ g, (d.perform (.save ticket)).1 = .ok (.flow g)) ↔
      (Editor.save w.config w.edit w.loaded (contents d.store)).1.isOk := by
    rw [answer_of_save h hw, isOk_iff]
    simp [map_eq_ok_iff]
  rw [hok, save_isOk_iff, hrevise, hexpected]
  simp [eq_comm]

/-- A run from the opening, looked at twice. The revision of a flow counts its saves, whether the
flow is read as it is kept or as it is shown, and moving it changes no revision. Of two documents
that are shown under one revision, the later is what comes of the other by as many copies as the
flow was moved in between, so they are the same but for open data, and the very same if the flow was
not moved or the first reads back as itself. A successful save answers the next revision, and one
that expects a revision succeeds exactly if the flow is active at that revision. -/
theorem revision_identifies_document {before between : List Move}
    (hcreated : ((before ++ between).filterMap Move.created?).Nodup)
    (hfew : ∀ id, saveCount id (opening : Desk σ) (before ++ between) < capacity σ)
    (hd : d = opening.after before) (hd' : d' = d.after between) :
    (∀ f, f ∈ d'.flows ∨ Editor.Shows d'.store f →
      f.revision.toNat = saveCount f.id (opening : Desk σ) (before ++ between)) ∧
    (∀ m, m.moved?.isSome →
      ((d'.perform m).2.flows.map Flow.stamp).Perm (d'.flows.map Flow.stamp)) ∧
    (∀ f g, Editor.Shows d.store f → Editor.Shows d'.store g → f.stamp = g.stamp →
      copies? σ (relocationCount f.id d between) f = some g ∧ f.core = g.core ∧
        (relocationCount f.id d between = 0 ∨ copy? σ f = some f → f = g)) ∧
    ∀ ticket w, d'.writes ticket = some w →
      (∀ g, (d'.perform (.save ticket)).1 = .ok (.flow g) →
        ∃ f, ListStore.find? (contents d'.store).active w.loaded.workspace w.loaded.id = some f ∧
          g.stamp = (f.id, f.revision + 1)) ∧
      ∀ revised e, w.edit.revise w.config w.loaded = .ok revised →
        w.edit.expectedRevision w.config w.loaded = some e →
        ((∃ g, (d'.perform (.save ticket)).1 = .ok (.flow g)) ↔
          ∃ f, ListStore.find? (contents d'.store).active w.loaded.workspace w.loaded.id =
            some f ∧ f.revision = e) := by
  have hbefore : (opening : Desk σ).Fresh before :=
    fresh_opening (hcreated.sublist ((List.sublist_append_left before between).filterMap _))
  have hcount : ∀ id, 0 + saveCount id (opening : Desk σ) before + saveCount id d between =
      saveCount id (opening : Desk σ) (before ++ between) := by
    intro id
    rw [saveCount_append, ← hd, Nat.zero_add]
  have hfew' : ∀ id, 0 + saveCount id opening before + saveCount id d between < capacity σ :=
    fun id ↦ hcount id ▸ hfew id
  obtain ⟨halong, htally⟩ := tallied_opening.after hbefore fun id ↦
    Nat.lt_of_le_of_lt (Nat.le_add_right _ _) (hfew' id)
  have hfresh : d.Fresh between := hd ▸ (fresh_opening hcreated).after halong
  obtain ⟨halong', htally'⟩ := Tallied.after (hd ▸ htally) hfresh hfew'
  rw [funext hcount, ← hd'] at htally'
  have hready : Ready d'.store := htally'.ready hfew
  refine ⟨fun f hf ↦ htally'.count_of_shows hf, fun m hm ↦ stamps_perform_of_moved hready hm,
    fun f g hf hg hstamp ↦ ?_, fun ticket w hw ↦ ?_⟩
  · have hsaves : ∀ id, saveCount id d between < UInt64.size := fun id ↦
      Nat.lt_of_le_of_lt (Nat.le_add_left _ _)
        (Nat.lt_of_lt_of_le (hfew' id) LawfulCopying.capacity_le)
    have hcopies := copies_of_same_stamp halong' hfresh hsaves hf (hd' ▸ hg) hstamp
    refine ⟨hcopies, (copies?_keeps hcopies).1.symm, fun hcases ↦ ?_⟩
    rcases hcases with hstays | hself
    · rw [hstays] at hcopies
      exact Option.some.inj hcopies
    · rw [copies?_of_self hself] at hcopies
      exact Option.some.inj hcopies
  · exact ⟨fun g hok ↦ stamp_of_save hready hw hok, fun revised e hrevise hexpected ↦
      save_succeeds_iff hready hw hrevise hexpected⟩

section Examples

theorem saveCount_le_length {σ : Type} [Store σ] (id : FlowId) (d : Desk σ) (moves : List Move) :
    saveCount id d moves ≤ moves.length := by
  induction moves generalizing d with
  | nil => exact Nat.le_refl _
  | cons m rest ih =>
    rw [saveCount, List.length_cons, Nat.add_comm]
    exact Nat.add_le_add (ih _) (Bool.toNat_le _)

def shelving : Move := .archive "w" draft.id.text

theorem store_after_shelving {d : Desk TableStore} {row : FlowRow} {f : Flow}
    (hstore : d.store = { active := [row] }) (hrow : row.owns "w" draft.id)
    (hread : row.read = .ok f) :
    (d.after [shelving]).store = { archived := [⟨draft.id, "w", f⟩] } := by
  have hparse : parseFlowId draft.id.text = .ok draft.id :=
    parseFlowId_eq_ok_iff.mpr (FlowId.parseEntered?_text draft.id)
  have harchive : TableStore.archiveFlow "w" draft.id { active := [row] } =
      (.ok (), { archived := [⟨draft.id, "w", f⟩] }) := by
    simp [TableStore.archiveFlow, TableStore.getFlow, hrow, hread]
  rw [after_cons, after_nil, shelving, perform_archive, hstore, Editor.archive, hparse]
  exact congrArg Prod.snd harchive

/-- The draft is published, and then it is loaded to get a title. -/
def publication : List Move :=
  drafting :: publishing ++ [.load 0 {} "w" draft.id.text (titling (some 1))]

def publishedDesk : Desk TableStore := opening.after publication

def published : Flow := { draft with live := true, revision := 1 }

def publishedRow : FlowRow :=
  ⟨draft.id, "w", true, .ofRevision 1, { draft with live := true }⟩

theorem revision_identifies_document_shelving :
    ((publication ++ [shelving]).filterMap Move.created?).Nodup ∧
    (∀ id, saveCount id (opening : Desk TableStore) (publication ++ [shelving]) <
      capacity TableStore) ∧
    Editor.Shows publishedDesk.store published ∧
    (∀ g, Editor.Shows (publishedDesk.after [shelving]).store g → published.stamp = g.stamp →
      published = g) ∧
    ¬ ∃ g, ((publishedDesk.after [shelving]).perform (.save 0)).1 = .ok (.flow g) := by
  have hcreated : ((publication ++ [shelving]).filterMap Move.created?).Nodup := by decide
  have hfew : ∀ id, saveCount id (opening : Desk TableStore) (publication ++ [shelving]) <
      capacity TableStore :=
    fun id ↦ Nat.lt_of_le_of_lt (saveCount_le_length id _ _) (by decide)
  have hshown : Editor.Shows publishedDesk.store published := .get "w" draft.id.text rfl
  obtain ⟨-, -, hsame, hsaves⟩ := revision_identifies_document hcreated hfew
    (d := publishedDesk) rfl rfl
  refine ⟨hcreated, hfew, hshown, fun g hg hstamp ↦ ?_, ?_⟩
  · exact (hsame published g hshown hg hstamp).2.2 (.inr rfl)
  · have hwrite : (publishedDesk.after [shelving]).writes 0 =
        some ⟨{}, titling (some 1), published⟩ :=
      writes_after (by decide)
    have hstore : publishedDesk.store = { active := [publishedRow] } := rfl
    rw [(hsaves 0 _ hwrite).2 { published with name := "Tour" } 1 rfl rfl,
      store_after_shelving hstore rfl (f := published) rfl]
    intro hactive
    obtain ⟨f, hfind, -⟩ := hactive
    nomatch hfind

/-- The draft with a number in its open data. -/
def weighed (x : Decimal.Binary64) : Flow :=
  { draft with opts := { trigger := { data := .double "x" x } } }

/-- Two doubles next to each other, 3.9000000000000004e-22 and 3.9e-22. Each is read where the other
was written. -/
def upper : Decimal.Binary64 := ⟨false, 4286714028695669076, by decide⟩

def lower : Decimal.Binary64 := ⟨false, 4286714028695669075, by decide⟩

def weighing : List Move := [drafting,
  .load 0 {} "w" draft.id.text
    (.update { trigger := some { data := .double "x" upper } } fun _ ↦ ""),
  .save 0]

def weighedRow (x : Decimal.Binary64) : FlowRow := ⟨draft.id, "w", false, .ofRevision 1, weighed x⟩

theorem reread?_weighed {x y : Decimal.Binary64}
    (h : Json.number? x.render = some (.double y)) : (weighed x).reread? = some (weighed y) := by
  have hdata : (OpenData.double "x" x).reread? 3 = some (.double "x" y) :=
    OpenData.reread?_double (by decide) h
  have hempty : OpenData.empty.reread? 3 = some .empty :=
    OpenData.ofJson?_toJson (d := .empty) trivial
  simp [Flow.reread?, weighed, draft, hdata, hempty]

/-- A number is saved, listed, archived and listed again. -/
theorem documents_of_one_revision_differ :
    ¬ ∀ f g, Editor.Shows ((opening : Desk TableStore).after weighing).store f →
      Editor.Shows (((opening : Desk TableStore).after weighing).after [shelving]).store g →
      f.stamp = g.stamp → f = g := by
  intro hidentical
  have hstore : ((opening : Desk TableStore).after weighing).store =
      { active := [weighedRow upper] } := rfl
  have hread : (weighedRow upper).read = .ok { weighed lower with revision := 1 } := by
    rw [weighedRow, FlowRow.read, Flow.readBack, reread?_weighed (y := lower) rfl]
    rfl
  have hread' : Flow.readBack { weighed lower with revision := 1 } =
      .ok { weighed upper with revision := 1 } := by
    rw [Flow.readBack, Flow.reread?_revision, reread?_weighed (y := upper) rfl]
    rfl
  have hlist : Editor.list "w" ((opening : Desk TableStore).after weighing).store =
      .ok [{ weighed lower with revision := 1 }] := by
    rw [hstore]
    show Editor.fromStore ([weighedRow upper].mapM FlowRow.read) = _
    rw [List.mapM_cons, hread]
    rfl
  have hlistArchived : Editor.listArchived "w"
      (((opening : Desk TableStore).after weighing).after [shelving]).store =
        .ok [{ weighed upper with revision := 1 }] := by
    rw [store_after_shelving hstore rfl hread]
    show Editor.fromStore ([ArchivedRow.mk draft.id "w" _].mapM ArchivedRow.read) = _
    rw [List.mapM_cons, ArchivedRow.read, hread']
    rfl
  have hsame := hidentical _ _ (.list "w" _ hlist List.mem_cons_self)
    (.listArchived "w" _ hlistArchived List.mem_cons_self) rfl
  have hmembers : [("x", Json.double lower)] = [("x", Json.double upper)] :=
    congrArg (fun f : Flow ↦ f.opts.trigger.data.members) hsame
  have hdoubles : lower = upper := by simpa using hmembers
  exact absurd hdoubles (by decide)

end Examples

end Desk

end GuidedTours
