import GuidedTours.Proofs.Calendar
import GuidedTours.Proofs.Enrollment.Resolution
import GuidedTours.Proofs.Spellings
import Mathlib.Logic.Relation

/-!
What keeps a flow on offer. A flow that may be offered to a user may still be offered later, after
more flows have been finished, after skipped ones have been forgotten, and however the two lists of
ids are written. One lemma says what rewriting a list keeps, one what each change keeps, and an
induction over the changes puts them together.
-/

set_option autoImplicit false

namespace GuidedTours

theorem names_append {texts others : List String} {id : FlowId} :
    Names (texts ++ others) id ↔ Names texts id ∨ Names others id := by
  simp [Names, or_and_right, exists_or]

theorem names_cons {text : String} {texts : List String} {id : FlowId} :
    Names (text :: texts) id ↔ FlowId.parseEntered? text = some id ∨ Names texts id := by
  simp [Names]

/-- The second list has the entries of the first in another order, repeated or respelled. -/
inductive Rewritten : List String → List String → Prop
  | reordered {texts others : List String} (h : texts.Perm others) : Rewritten texts others
  | repeated {text : String} {texts : List String} (h : text ∈ texts) :
    Rewritten texts (text :: texts)
  | respelled {text other : String} (before later : List String) (h : Respelling text other) :
    Rewritten (before ++ text :: later) (before ++ other :: later)

/-- Rewriting a list leaves the ids in it. -/
theorem Rewritten.names_iff {texts others : List String} (h : Rewritten texts others)
    (id : FlowId) : Names others id ↔ Names texts id := by
  cases h with
  | reordered h => exact exists_congr fun text ↦ and_congr_left' h.mem_iff.symm
  | @repeated text _ h =>
    rw [names_cons, or_iff_right_iff_imp]
    exact fun hid ↦ ⟨text, h, hid⟩
  | respelled before later h =>
    rw [names_append, names_append, names_cons, names_cons, h.parseEntered?_eq]

/-- A change of what is known of a user that puts nothing in the way of offering a flow. Outside
leap seconds time may pass, flows other than this may be finished and entries that are no ids come
in, skipped flows may be forgotten, and either list may be rewritten. -/
inductive Relaxes (f : Flow) : EnrollmentOpts × Moment → EnrollmentOpts × Moment → Prop
  | later {opts : EnrollmentOpts} {now later : Moment} (hnow : now.isLeapSecond = false)
    (hlater : later.isLeapSecond = false) (h : now < later) : Relaxes f (opts, now) (opts, later)
  | finishedMore {opts : EnrollmentOpts} {now : Moment} (more : List String)
    (h : ∀ text ∈ more, FlowId.parseEntered? text ≠ some f.id) :
    Relaxes f (opts, now) ({ opts with finishedIds := opts.finishedIds ++ more }, now)
  | skippedFewer {opts : EnrollmentOpts} {now : Moment} {fewer : List String}
    (h : fewer.Sublist opts.skippedIds) :
    Relaxes f (opts, now) ({ opts with skippedIds := fewer }, now)
  | finishedRewritten {opts : EnrollmentOpts} {now : Moment} {texts : List String}
    (h : Rewritten opts.finishedIds texts) :
    Relaxes f (opts, now) ({ opts with finishedIds := texts }, now)
  | skippedRewritten {opts : EnrollmentOpts} {now : Moment} {texts : List String}
    (h : Rewritten opts.skippedIds texts) :
    Relaxes f (opts, now) ({ opts with skippedIds := texts }, now)

namespace EnrollmentOpts

variable {opts : EnrollmentOpts} {now later : Moment} {f : Flow}

/-- What a user has met is met for good: whole days since the sign-up do not get fewer. -/
theorem Meets.of_lt (hnow : now.isLeapSecond = false) (hlater : later.isLeapSecond = false)
    (hlt : now < later) {r : TargetingRule} (h : opts.Meets now r) : opts.Meets later r := by
  cases r with
  | elapsedDays days =>
    obtain ⟨second, hsignUp, hsecond, hdays⟩ := h
    have hpassed := Moment.unixNanosecond_lt hnow hlater hlt
    refine ⟨second, hsignUp, hsecond, Int.le_trans hdays ?_⟩
    exact Int.tdiv_le_tdiv (by decide) (by omega)
  | registeredAfter _ | userSegment _ | userId _ => exact h

theorem MeetsKind.mono (hmeets : ∀ r, opts.Meets now r → opts.Meets later r)
    {rules : List TargetingRule} {kind : RuleKind} (h : opts.MeetsKind now rules kind) :
    opts.MeetsKind later rules kind := by
  rcases h with hnone | ⟨r, hr, hkind, hmet⟩
  · exact .inl hnone
  · exact .inr ⟨r, hr, hkind, hmeets r hmet⟩

theorem InGeneralAudience.mono (hmeets : ∀ r, opts.Meets now r → opts.Meets later r)
    (h : opts.InGeneralAudience now f) : opts.InGeneralAudience later f where
  nobodyNamed := h.nobodyNamed
  elapsedDays := h.elapsedDays.mono hmeets
  registeredAfter := h.registeredAfter.mono hmeets
  userSegment := h.userSegment.mono hmeets

end EnrollmentOpts

namespace Eligibility

variable {opts opts' : EnrollmentOpts} {now later : Moment} {f : Flow}

/-- A flow is accepted with the same or a wider audience, if at least as much is finished but not
the flow itself, and if at most as much is skipped. -/
theorem accepts_of_accepts (h : (of opts now).accepts f)
    (hfinished : ∀ id, Names opts.finishedIds id → Names opts'.finishedIds id)
    (hself : Names opts'.finishedIds f.id → Names opts.finishedIds f.id)
    (hskipped : Names opts'.skippedIds f.id → Names opts.skippedIds f.id)
    (hgeneral : (of opts now).generalAudience f → (of opts' later).generalAudience f)
    (hnamed : (of opts now).explicitTarget f → (of opts' later).explicitTarget f) :
    (of opts' later).accepts f := by
  rw [accepts, Bool.and_eq_true, Bool.and_eq_true, Bool.or_eq_true, dependenciesMet_iff,
    Bool.not_eq_true', ← Bool.not_eq_true, excluded_iff] at h ⊢
  obtain ⟨⟨hdependencies, hexcluded⟩, haudience⟩ := h
  refine ⟨⟨fun id hid ↦ hfinished id (hdependencies id hid), ?_⟩, haudience.imp hgeneral hnamed⟩
  exact mt (Or.imp hself hskipped) hexcluded

/-- Every change keeps the flow on offer. -/
theorem accepts_of_relaxes {before after : EnrollmentOpts × Moment} (h : Relaxes f before after)
    (haccepts : (of before.1 before.2).accepts f) : (of after.1 after.2).accepts f := by
  cases h with
  | later hnow hlater hlt =>
    refine accepts_of_accepts haccepts (fun _ ↦ id) id id (fun hgeneral ↦ ?_) id
    exact (generalAudience_iff hlater).mpr (((generalAudience_iff hnow).mp hgeneral).mono
      fun _ hmet ↦ hmet.of_lt hnow hlater hlt)
  | finishedMore more hmore =>
    refine accepts_of_accepts haccepts (fun id hid ↦ names_append.mpr (.inl hid)) (fun hself ↦ ?_)
      id id id
    rcases names_append.mp hself with hold | ⟨text, htext, hid⟩
    · exact hold
    · exact absurd hid (hmore text htext)
  | skippedFewer hfewer =>
    refine accepts_of_accepts haccepts (fun _ ↦ id) id (fun hskipped ↦ ?_) id id
    obtain ⟨text, htext, hid⟩ := hskipped
    exact ⟨text, hfewer.subset htext, hid⟩
  | finishedRewritten hsame =>
    exact accepts_of_accepts haccepts (fun id ↦ (hsame.names_iff id).mpr) (hsame.names_iff f.id).mp
      id id id
  | skippedRewritten hsame =>
    exact accepts_of_accepts haccepts (fun _ ↦ id) id (hsame.names_iff f.id).mp id id

/-- Once a flow may be offered, no changes that relax its conditions take it away again. -/
theorem accepted_stays_accepted {opts opts' : EnrollmentOpts} {now now' : Moment} {f : Flow}
    (hchanges : Relation.ReflTransGen (Relaxes f) (opts, now) (opts', now'))
    (h : (of opts now).accepts f) : (of opts' now').accepts f := by
  have hkept : ∀ after, Relation.ReflTransGen (Relaxes f) (opts, now) after →
      (of after.1 after.2).accepts f := by
    intro after hafter
    induction hafter with
    | refl => exact h
    | tail _ hchange ih => exact accepts_of_relaxes hchange ih
  exact hkept _ hchanges

section Examples

/-- A flow for those who have been there for thirty days and have finished another one. -/
def secondTour : Flow :=
  { Enrollment.forVeterans with
    opts := { targeting := .ofRules [.elapsedDays 30], dependsOn := [⟨0xAB⟩] } }

def firstTourDigits : List Char := List.replicate 30 '0' ++ ['a', 'b']

/-- The same digits, the letters among them in upper case. -/
def upperFirstTourDigits : List Char := List.replicate 30 '0' ++ ['A', 'B']

/-- What the finished flow is called, and what it is called later. -/
def firstTourText : String := String.ofList firstTourDigits

def bracedFirstTourText : String :=
  String.ofList ('\x7b' :: (FlowId.hyphenate FlowId.groups upperFirstTourDigits ++ ['\x7d']))

theorem respelling_firstTourText :
    Respelling firstTourText (" " ++ bracedFirstTourText ++ "  ") := by
  have hupper : Respelling firstTourText (String.ofList upperFirstTourDigits) :=
    .recased (by decide)
  have hdigits : ∀ c ∈ upperFirstTourDigits, (Text.hexDigit? c).isSome :=
    List.all_eq_true.mp (by decide)
  have hbraced : Respelling (String.ofList upperFirstTourDigits) bracedFirstTourText :=
    .reformed (by decide) hdigits .plain .braced
  exact .trans hupper (.trans hbraced (.padded bracedFirstTourText (by decide) (by decide)))

/-- Of a user who signed up fifty days ago. -/
def veteran : EnrollmentOpts where
  finishedIds := [firstTourText]
  skippedIds := [FlowId.text ⟨9⟩]
  signUpTimestamp := some 1699747200

def nextDay : Moment :=
  { Desk.draft.createdAt with
    date := { Desk.draft.createdAt.date with day := 2, day_mem := by decide } }

def laterVeteran : EnrollmentOpts :=
  { veteran with
    finishedIds := ["nonsense", " " ++ bracedFirstTourText ++ "  "], skippedIds := [] }

theorem relaxes_nextDay : Relation.ReflTransGen (Relaxes secondTour)
    (veteran, Desk.draft.createdAt) (laterVeteran, nextDay) := by
  have hlater : Relaxes secondTour (veteran, Desk.draft.createdAt) (veteran, nextDay) :=
    .later (by decide) (by decide) (by decide)
  have hmore : Relaxes secondTour (veteran, nextDay)
      ({ veteran with finishedIds := [firstTourText] ++ ["nonsense"] }, nextDay) :=
    .finishedMore ["nonsense"] (by decide)
  have hreordered : Relaxes secondTour
      ({ veteran with finishedIds := [firstTourText] ++ ["nonsense"] }, nextDay)
      ({ veteran with finishedIds := ["nonsense", firstTourText] }, nextDay) :=
    .finishedRewritten (.reordered List.perm_append_comm)
  have hrespelled : Relaxes secondTour
      ({ veteran with finishedIds := ["nonsense", firstTourText] }, nextDay)
      ({ veteran with finishedIds := ["nonsense", " " ++ bracedFirstTourText ++ "  "] }, nextDay) :=
    .finishedRewritten (.respelled ["nonsense"] [] respelling_firstTourText)
  have hforgotten : Relaxes secondTour
      ({ veteran with finishedIds := ["nonsense", " " ++ bracedFirstTourText ++ "  "] }, nextDay)
      (laterVeteran, nextDay) := .skippedFewer (List.nil_sublist _)
  exact .tail (.tail (.tail (.tail (.single hlater) hmore) hreordered) hrespelled) hforgotten

theorem accepted_stays_accepted_next_day :
    Relation.ReflTransGen (Relaxes secondTour) (veteran, Desk.draft.createdAt)
      (laterVeteran, nextDay) ∧
    (of veteran Desk.draft.createdAt).accepts secondTour ∧
    (of laterVeteran nextDay).accepts secondTour :=
  have haccepts : (of veteran Desk.draft.createdAt).accepts secondTour := by rfl
  ⟨relaxes_nextDay, haccepts, accepted_stays_accepted relaxes_nextDay haccepts⟩

end Examples

end Eligibility

end GuidedTours
