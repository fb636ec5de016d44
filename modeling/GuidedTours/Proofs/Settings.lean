import GuidedTours.Document.Update
import GuidedTours.Proofs.Lists
import GuidedTours.Proofs.Moments
import GuidedTours.Settings

/-!
What the variables say about the settings. Each of them is settled by itself: by what its value
denotes, or by the default if it has none. The three whose values can be wrong are settled first, so
the settings are those that agree with every variable, and the error is the first of the three that
cannot be settled. Settings written out as variables are read back as they were.
-/

set_option autoImplicit false

namespace GuidedTours

open Text

namespace Text

variable {c : Char} {cs : List Char} {digits : List Nat} {d n : Nat}

theorem digit?_eq_some_iff : digit? c = some d ↔ d < 10 ∧ c = digitChar d := by
  constructor
  · intro h
    rw [digit?] at h
    split at h
    next hc =>
      have hfirst : 48 ≤ c.toNat := hc.1
      have hlast : c.toNat ≤ 57 := hc.2
      obtain rfl : c.toNat - 48 = d := Option.some.inj h
      refine ⟨by omega, ?_⟩
      rw [digitChar, if_pos (by omega), show '0'.toNat = 48 from rfl, Nat.add_sub_cancel' hfirst,
        Char.ofNat_toNat]
    next => nomatch h
  · rintro ⟨hd, rfl⟩
    exact digit?_digitChar hd

theorem spanDigits_eq_nil_iff :
    spanDigits cs = (digits, []) ↔ (∀ d ∈ digits, d < 10) ∧ cs = digits.map digitChar := by
  constructor
  · intro h
    induction cs generalizing digits with
    | nil =>
      obtain rfl : [] = digits := congrArg Prod.fst h
      simp
    | cons c cs ih =>
      rw [spanDigits] at h
      cases hc : digit? c with
      | none => simp [hc] at h
      | some d =>
        simp only [hc, Prod.mk.injEq] at h
        obtain ⟨rfl, hrest⟩ := h
        obtain ⟨hd, rfl⟩ := digit?_eq_some_iff.mp hc
        obtain ⟨hdigits, hcs⟩ := ih (Prod.ext rfl hrest)
        refine ⟨List.forall_mem_cons.mpr ⟨hd, hdigits⟩, ?_⟩
        rw [List.map_cons, ← hcs]
  · rintro ⟨hdigits, rfl⟩
    have hend : NoDigit [] := by simp [NoDigit]
    simpa using spanDigits_digits hdigits hend

/-- A number in decimal digits, perhaps after a plus sign. -/
def Decimal (text : String) (n : Nat) : Prop :=
  ∃ digits : List Nat, digits ≠ [] ∧ (∀ d ∈ digits, d < 10) ∧ ofDigits 10 digits = n ∧
    (text.toList = digits.map digitChar ∨ text.toList = '+' :: digits.map digitChar)

end Text

namespace Settings

variable {lookup : String → Option String} {v : Variable} {value : String} {e : InvalidValue}
  {c : Settings}

def Variable.Value : Variable → Type
  | .databaseUrl => String
  | .maxConnections => UInt32
  | .deletePolicy => DeletePolicy
  | .concurrency => Concurrency
  | .assetBaseUrl => String

/-- The setting that a variable is for. -/
def field (c : Settings) : (v : Variable) → v.Value
  | .databaseUrl => c.databaseUrl
  | .maxConnections => c.maxConnections
  | .deletePolicy => c.editor.deletePolicy
  | .concurrency => c.editor.concurrency
  | .assetBaseUrl => c.editor.assetBaseUrl

/-- What a value of a variable denotes: an address itself, a number or a name without regard to the
blanks around it. -/
inductive Denotes : (v : Variable) → String → v.Value → Prop
  | databaseUrl (value : String) : Denotes .databaseUrl value value
  | maxConnections {value : String} {n : UInt32} (hpos : 1 ≤ n.toNat)
    (h : Decimal (trimmed value) n.toNat) : Denotes .maxConnections value n
  | deletePolicy {value : String} {policy : DeletePolicy} (h : trimmed value = policy.name) :
    Denotes .deletePolicy value policy
  | concurrency {value : String} {mode : Concurrency} (h : trimmed value = mode.name) :
    Denotes .concurrency value mode
  | assetBaseUrl (value : String) : Denotes .assetBaseUrl value value

/-- The variable has a value that is not blank. -/
def Given (lookup : String → Option String) (v : Variable) (value : String) : Prop :=
  lookup v.name = some value ∧ ¬ isBlankText value

/-- The setting for a variable is what its value denotes, or the default if it has none. -/
def Settles (lookup : String → Option String) (v : Variable) (x : v.Value) : Prop :=
  (∀ value, Given lookup v value → Denotes v value x) ∧
    ((∀ value, ¬ Given lookup v value) → x = ({} : Settings).field v)

/-- The value of the variable is not blank and denotes nothing. -/
def Faulty (lookup : String → Option String) (e : InvalidValue) : Prop :=
  Given lookup e.var e.value ∧ ∀ x, ¬ Denotes e.var e.value x

/-- The variables that not every value is right for, in the order in which they are read. -/
def checked : List Variable :=
  [.maxConnections, .deletePolicy, .concurrency]

theorem given_eq_some_iff : given lookup v = some value ↔ Given lookup v value := by
  simp [given, Given, Option.filter_eq_some_iff]

theorem given_eq_none_iff : given lookup v = none ↔ ∀ value, ¬ Given lookup v value := by
  simp only [← given_eq_some_iff, Option.eq_none_iff_forall_ne_some, ne_eq]

theorem digitChar_ne_plus {d : Nat} (h : d < 10) : digitChar d ≠ '+' := by
  have all : ∀ k : Fin 10, digitChar k ≠ '+' := by decide
  exact all ⟨d, h⟩

theorem connections?_eq_some_iff {s : String} {n : UInt32} :
    connections? s = some n ↔ 1 ≤ n.toNat ∧ Decimal s n.toNat := by
  unfold connections?
  extract_lets cs
  have hsign (digits : List Nat) (hdigits : ∀ d ∈ digits, d < 10) : cs = digits.map digitChar ↔
      s.toList = digits.map digitChar ∨ s.toList = '+' :: digits.map digitChar := by
    simp only [cs]
    split
    next rest hs =>
      have hplus : '+' :: rest ≠ digits.map digitChar := by
        intro h
        obtain ⟨d, hd, hplus⟩ := List.mem_map.mp (h ▸ List.mem_cons_self)
        exact digitChar_ne_plus (hdigits d hd) hplus
      simp [hs, hplus]
    next hs => exact ⟨.inl, fun h ↦ h.resolve_right (hs _)⟩
  constructor
  · intro h
    split at h
    next d ds hspan =>
      obtain ⟨hdigits, hcs⟩ := spanDigits_eq_nil_iff.mp hspan
      dsimp only at h
      split at h
      next hrange =>
        obtain rfl := Option.some.inj h
        rw [UInt32.toNat_ofNat_of_lt' hrange.2]
        exact ⟨hrange.1, d :: ds, List.cons_ne_nil d ds, hdigits, rfl, (hsign _ hdigits).mp hcs⟩
      next => nomatch h
    next => nomatch h
  · rintro ⟨hpos, digits, hnonempty, hdigits, hvalue, hspelled⟩
    have hspan := spanDigits_eq_nil_iff.mpr ⟨hdigits, (hsign digits hdigits).mpr hspelled⟩
    obtain ⟨d, ds, rfl⟩ := List.exists_cons_of_ne_nil hnonempty
    simp only [hspan, hvalue]
    rw [if_pos ⟨hpos, n.toNat_lt⟩, UInt32.ofNat_toNat]

theorem deletePolicy?_eq_some_iff {s : String} {policy : DeletePolicy} :
    deletePolicy? s = some policy ↔ s = policy.name := by
  unfold deletePolicy?
  cases policy <;> split_ifs <;> simp_all [DeletePolicy.name]

theorem concurrency?_eq_some_iff {s : String} {mode : Concurrency} :
    concurrency? s = some mode ↔ s = mode.name := by
  unfold concurrency?
  cases mode <;> split_ifs <;> simp_all [Concurrency.name]

/-! ### One variable -/

/-- What a value is read as, if it denotes something. -/
def Variable.read : (v : Variable) → String → Option v.Value
  | .databaseUrl, value => some value
  | .maxConnections, value => connections? (trimmed value)
  | .deletePolicy, value => deletePolicy? (trimmed value)
  | .concurrency, value => concurrency? (trimmed value)
  | .assetBaseUrl, value => some value

theorem read_eq_some_iff {x : v.Value} : v.read value = some x ↔ Denotes v value x := by
  cases v with
  | databaseUrl =>
    refine Option.some_inj.trans ⟨fun h ↦ h ▸ .databaseUrl value, fun h ↦ ?_⟩
    cases h with
    | databaseUrl => rfl
  | maxConnections =>
    rw [Variable.read]
    refine connections?_eq_some_iff.trans ⟨fun h ↦ .maxConnections h.1 h.2, fun h ↦ ?_⟩
    cases h with
    | maxConnections hpos hvalue => exact ⟨hpos, hvalue⟩
  | deletePolicy =>
    rw [Variable.read]
    refine deletePolicy?_eq_some_iff.trans ⟨.deletePolicy, fun h ↦ ?_⟩
    cases h with
    | deletePolicy hname => exact hname
  | concurrency =>
    rw [Variable.read]
    refine concurrency?_eq_some_iff.trans ⟨.concurrency, fun h ↦ ?_⟩
    cases h with
    | concurrency hname => exact hname
  | assetBaseUrl =>
    refine Option.some_inj.trans ⟨fun h ↦ h ▸ .assetBaseUrl value, fun h ↦ ?_⟩
    cases h with
    | assetBaseUrl => rfl

/-- The setting for a variable, or the fault in its value. -/
def settled (lookup : String → Option String) : (v : Variable) → Except InvalidValue v.Value
  | .databaseUrl => .ok ((given lookup .databaseUrl).getD ({} : Settings).databaseUrl)
  | .maxConnections => denoted lookup .maxConnections ({} : Settings).maxConnections connections?
  | .deletePolicy => denoted lookup .deletePolicy ({} : Settings).editor.deletePolicy deletePolicy?
  | .concurrency => denoted lookup .concurrency ({} : Settings).editor.concurrency concurrency?
  | .assetBaseUrl => .ok ((given lookup .assetBaseUrl).getD ({} : Settings).editor.assetBaseUrl)

theorem ofVariables_eq (lookup : String → Option String) : ofVariables lookup = do
    let maxConnections ← settled lookup .maxConnections
    let deletePolicy ← settled lookup .deletePolicy
    let concurrency ← settled lookup .concurrency
    let databaseUrl ← settled lookup .databaseUrl
    let assetBaseUrl ← settled lookup .assetBaseUrl
    return ⟨databaseUrl, maxConnections, ⟨deletePolicy, concurrency, assetBaseUrl⟩⟩ :=
  rfl

section Denoted

variable {α : Type} (default : α) (read : String → Option α)

theorem denoted_of_given (h : given lookup v = some value) : denoted lookup v default read =
    (read (trimmed value)).elim (.error ⟨v, value⟩) .ok := by
  rw [denoted, h]
  cases hread : read (trimmed value) <;> simp only [hread] <;> rfl

theorem denoted_of_not_given (h : given lookup v = none) :
    denoted lookup v default read = .ok default := by
  rw [denoted, h]

end Denoted

theorem settled_of_given (h : given lookup v = some value) :
    settled lookup v = (v.read value).elim (.error ⟨v, value⟩) .ok := by
  cases v with
  | databaseUrl | assetBaseUrl =>
    rw [settled, h]
    rfl
  | maxConnections | deletePolicy | concurrency =>
    rw [settled, Variable.read]
    exact denoted_of_given _ _ h

theorem settled_of_not_given (h : given lookup v = none) :
    settled lookup v = .ok (({} : Settings).field v) := by
  cases v with
  | databaseUrl | assetBaseUrl =>
    rw [settled, h]
    rfl
  | maxConnections | deletePolicy | concurrency =>
    rw [settled]
    exact denoted_of_not_given _ _ h

theorem settled_eq_ok_iff {x : v.Value} : settled lookup v = .ok x ↔ Settles lookup v x := by
  cases hvalue : given lookup v with
  | none =>
    have hnot := given_eq_none_iff.mp hvalue
    rw [settled_of_not_given hvalue, Except.ok.injEq, eq_comm]
    exact ⟨fun h ↦ ⟨fun value hgiven ↦ absurd hgiven (hnot value), fun _ ↦ h⟩, fun h ↦ h.2 hnot⟩
  | some value =>
    have hgiven := given_eq_some_iff.mp hvalue
    have hread : settled lookup v = .ok x ↔ v.read value = some x := by
      rw [settled_of_given hvalue]
      cases v.read value <;> simp
    rw [hread, read_eq_some_iff]
    constructor
    · intro h
      refine ⟨fun other hother ↦ ?_, fun hnot ↦ absurd hgiven (hnot value)⟩
      obtain rfl := Option.some.inj (hgiven.1.symm.trans hother.1)
      exact h
    · intro h
      exact h.1 value hgiven

theorem settled_eq_error_iff : settled lookup v = .error e ↔ e.var = v ∧ Faulty lookup e := by
  cases hvalue : given lookup v with
  | none =>
    have hnot := given_eq_none_iff.mp hvalue
    rw [settled_of_not_given hvalue]
    constructor
    · nofun
    · rintro ⟨rfl, hfaulty⟩
      exact absurd hfaulty.1 (hnot e.value)
  | some value =>
    have hgiven := given_eq_some_iff.mp hvalue
    have hread : settled lookup v = .error e ↔ v.read value = none ∧ e = ⟨v, value⟩ := by
      rw [settled_of_given hvalue]
      cases v.read value <;> simp [eq_comm]
    simp only [hread, Option.eq_none_iff_forall_ne_some, ne_eq, read_eq_some_iff]
    constructor
    · rintro ⟨hdenotes, rfl⟩
      exact ⟨rfl, hgiven, hdenotes⟩
    · rintro ⟨rfl, hfaulty⟩
      obtain rfl := Option.some.inj (hgiven.1.symm.trans hfaulty.1.1)
      exact ⟨hfaulty.2, rfl⟩

/-! ### All variables -/

theorem ofVariables_congr {other : String → Option String}
    (h : ∀ v : Variable, other v.name = lookup v.name) :
    ofVariables other = ofVariables lookup := by
  simp only [ofVariables, denoted, given, h]

theorem ofVariables_eq_ok_iff : ofVariables lookup = .ok c ↔ ∀ v, Settles lookup v (c.field v) := by
  simp only [← settled_eq_ok_iff]
  constructor
  · intro h
    rw [ofVariables_eq] at h
    obtain ⟨m, hm, h⟩ := bind_eq_ok_iff.mp h
    obtain ⟨p, hp, h⟩ := bind_eq_ok_iff.mp h
    obtain ⟨k, hk, h⟩ := bind_eq_ok_iff.mp h
    obtain ⟨d, hd, h⟩ := bind_eq_ok_iff.mp h
    obtain ⟨a, ha, h⟩ := bind_eq_ok_iff.mp h
    obtain rfl := Except.ok.inj h
    intro v
    cases v with
    | databaseUrl => exact hd
    | maxConnections => exact hm
    | deletePolicy => exact hp
    | concurrency => exact hk
    | assetBaseUrl => exact ha
  · intro h
    rw [ofVariables_eq, h .maxConnections, h .deletePolicy, h .concurrency, h .databaseUrl,
      h .assetBaseUrl]
    rfl

theorem not_faulty_of_settled {x : v.Value} (h : settled lookup v = .ok x) :
    ¬ ∃ value, Faulty lookup ⟨v, value⟩ := by
  rintro ⟨value, hfaulty⟩
  have herror := settled_eq_error_iff.mpr ⟨rfl, hfaulty⟩
  rw [h] at herror
  nomatch herror

theorem first_of_error (h : ofVariables lookup = .error e) :
    ∃ before after, checked = before ++ e.var :: after ∧ Faulty lookup e ∧
      ∀ v ∈ before, ¬ ∃ value, Faulty lookup ⟨v, value⟩ := by
  rw [ofVariables_eq] at h
  rcases bind_eq_error_iff.mp h with h | ⟨m, hm, h⟩
  · obtain ⟨hvar, hfaulty⟩ := settled_eq_error_iff.mp h
    exact ⟨[], _, by rw [hvar]; rfl, hfaulty, by simp⟩
  rcases bind_eq_error_iff.mp h with h | ⟨p, hp, h⟩
  · obtain ⟨hvar, hfaulty⟩ := settled_eq_error_iff.mp h
    exact ⟨[.maxConnections], _, by rw [hvar]; rfl, hfaulty,
      List.forall_mem_singleton.mpr (not_faulty_of_settled hm)⟩
  rcases bind_eq_error_iff.mp h with h | ⟨k, hk, h⟩
  · obtain ⟨hvar, hfaulty⟩ := settled_eq_error_iff.mp h
    exact ⟨[.maxConnections, .deletePolicy], _, by rw [hvar]; rfl, hfaulty,
      List.forall_mem_cons.mpr ⟨not_faulty_of_settled hm,
        List.forall_mem_singleton.mpr (not_faulty_of_settled hp)⟩⟩
  · nomatch h

theorem ofVariables_eq_error_iff : ofVariables lookup = .error e ↔
    ∃ before after, checked = before ++ e.var :: after ∧ Faulty lookup e ∧
      ∀ v ∈ before, ¬ ∃ value, Faulty lookup ⟨v, value⟩ := by
  constructor
  · exact first_of_error
  · rintro ⟨before, after, hsplit, hfaulty, hbefore⟩
    cases hread : ofVariables lookup with
    | ok c =>
      have hsettled := settled_eq_ok_iff.mpr (ofVariables_eq_ok_iff.mp hread e.var)
      exact absurd ⟨e.value, hfaulty⟩ (not_faulty_of_settled hsettled)
    | error e' =>
      obtain ⟨before', after', hsplit', hfaulty', hbefore'⟩ := first_of_error hread
      obtain ⟨v, value⟩ := e
      obtain ⟨v', value'⟩ := e'
      obtain rfl : v' = v := eq_of_first (hsplit'.symm.trans hsplit) hbefore' hbefore
        ⟨value', hfaulty'⟩ ⟨value, hfaulty⟩
      obtain rfl : value' = value := Option.some.inj (hfaulty'.1.1.symm.trans hfaulty.1.1)
      rfl

/-- The settings as the values of the variables. -/
def written (c : Settings) : Variable → String
  | .databaseUrl => c.databaseUrl
  | .maxConnections => String.ofList (padded 0 c.maxConnections.toNat)
  | .deletePolicy => c.editor.deletePolicy.name
  | .concurrency => c.editor.concurrency.name
  | .assetBaseUrl => c.editor.assetBaseUrl

def Variable.all : List Variable :=
  [.databaseUrl, .maxConnections, .deletePolicy, .concurrency, .assetBaseUrl]

def toVariables (c : Settings) (name : String) : Option String :=
  (Variable.all.find? (·.name = name)).map c.written

theorem toVariables_name (c : Settings) (v : Variable) :
    c.toVariables v.name = some (c.written v) := by
  cases v <;> rfl

theorem not_blank_padded (width n : Nat) : ∀ d ∈ padded width n, ¬ isBlank d := by
  intro d hd
  obtain ⟨k, hk, rfl⟩ := List.mem_map.mp hd
  exact isBlank_digitChar (paddedDigits_lt k hk)

theorem decimal_padded (width n : Nat) : Decimal (String.ofList (padded width n)) n :=
  ⟨paddedDigits width n, paddedDigits_ne_nil width n, paddedDigits_lt,
    ofDigits_paddedDigits width n, .inl String.toList_ofList⟩

theorem not_isBlankText_padded (width n : Nat) :
    ¬ isBlankText (String.ofList (padded width n)) := by
  obtain ⟨d, ds, hd, hpadded⟩ := exists_padded_eq width n
  simp [isBlankText, hpadded, isBlank_digitChar hd]

theorem plain_name_deletePolicy (policy : DeletePolicy) :
    ¬ isBlankText policy.name ∧ trimmed policy.name = policy.name := by
  cases policy <;> decide

theorem plain_name_concurrency (mode : Concurrency) :
    ¬ isBlankText mode.name ∧ trimmed mode.name = mode.name := by
  cases mode <;> decide

theorem not_isBlankText_written (hdatabase : ¬ isBlankText c.databaseUrl)
    (hassets : ¬ isBlankText c.editor.assetBaseUrl) (v : Variable) :
    ¬ isBlankText (c.written v) := by
  cases v with
  | databaseUrl => exact hdatabase
  | maxConnections => exact not_isBlankText_padded 0 _
  | deletePolicy => exact (plain_name_deletePolicy _).1
  | concurrency => exact (plain_name_concurrency _).1
  | assetBaseUrl => exact hassets

theorem denotes_written (hconnections : 1 ≤ c.maxConnections.toNat) (v : Variable) :
    Denotes v (c.written v) (c.field v) := by
  cases v with
  | databaseUrl => exact .databaseUrl _
  | maxConnections =>
    have hdecimal : Decimal (trimmed (c.written .maxConnections)) c.maxConnections.toNat := by
      rw [written, trimmed_of_forall (by simpa using not_blank_padded 0 _)]
      exact decimal_padded 0 _
    exact .maxConnections hconnections hdecimal
  | deletePolicy => exact .deletePolicy (plain_name_deletePolicy _).2
  | concurrency => exact .concurrency (plain_name_concurrency _).2
  | assetBaseUrl => exact .assetBaseUrl _

theorem ofVariables_toVariables (hconnections : 1 ≤ c.maxConnections.toNat)
    (hdatabase : ¬ isBlankText c.databaseUrl) (hassets : ¬ isBlankText c.editor.assetBaseUrl) :
    ofVariables c.toVariables = .ok c := by
  refine ofVariables_eq_ok_iff.mpr fun v ↦ ⟨fun value hvalue ↦ ?_, fun hnot ↦ ?_⟩
  · obtain rfl := Option.some.inj ((toVariables_name c v).symm.trans hvalue.1)
    exact denotes_written hconnections v
  · exact absurd ⟨toVariables_name c v, not_isBlankText_written hdatabase hassets v⟩
      (hnot (c.written v))

/-- No value is passed over in silence: the settings are those that every variable settles, or there
are none because of the first of the faulty values. -/
theorem variables_settle_settings :
    (∀ lookup : String → Option String,
      (∀ other : String → Option String, (∀ v : Variable, other v.name = lookup v.name) →
        ofVariables other = ofVariables lookup) ∧
      ((∃ e, ofVariables lookup = .error e) ↔
        ∃ v ∈ checked, ∃ value, Faulty lookup ⟨v, value⟩) ∧
      (∀ e, ofVariables lookup = .error e ↔
        ∃ before after, checked = before ++ e.var :: after ∧ Faulty lookup e ∧
          ∀ v ∈ before, ¬ ∃ value, Faulty lookup ⟨v, value⟩) ∧
      ∀ c, ofVariables lookup = .ok c ↔ ∀ v, Settles lookup v (c.field v)) ∧
    ∀ c : Settings, 1 ≤ c.maxConnections.toNat → ¬ isBlankText c.databaseUrl →
      ¬ isBlankText c.editor.assetBaseUrl → ofVariables c.toVariables = .ok c := by
  refine ⟨fun lookup ↦ ⟨fun other h ↦ ofVariables_congr h, ?_, fun e ↦ ofVariables_eq_error_iff,
    fun c ↦ ofVariables_eq_ok_iff⟩, fun c ↦ ofVariables_toVariables⟩
  constructor
  · rintro ⟨e, h⟩
    obtain ⟨before, after, hsplit, hfaulty, -⟩ := first_of_error h
    exact ⟨e.var, hsplit ▸ by simp, e.value, hfaulty⟩
  · rintro ⟨v, -, value, hfaulty⟩
    cases hread : ofVariables lookup with
    | ok c =>
      have hsettled := settled_eq_ok_iff.mpr (ofVariables_eq_ok_iff.mp hread v)
      exact absurd ⟨value, hfaulty⟩ (not_faulty_of_settled hsettled)
    | error e => exact ⟨e, rfl⟩

theorem variables_settle_settings_custom :
    let c : Settings := ⟨"sqlite:tours.db", 12, ⟨.reconnectAll, .optimistic, "https://cdn/"⟩⟩
    let lookup : String → Option String := fun name ↦
      if name = Variable.deletePolicy.name then some " none " else
        if name = Variable.concurrency.name then some "none" else c.toVariables name
    c.toVariables Variable.maxConnections.name = some "12" ∧
      ofVariables c.toVariables = .ok c ∧
      ofVariables lookup = .error ⟨.deletePolicy, " none "⟩ ∧
      Faulty lookup ⟨.deletePolicy, " none "⟩ := by
  intro c lookup
  have hread := variables_settle_settings.2 c (by decide) (by decide) (by decide)
  have herror : ofVariables lookup = .error ⟨.deletePolicy, " none "⟩ := by decide
  obtain ⟨-, -, -, hfaulty, -⟩ := ((variables_settle_settings.1 lookup).2.2.1 _).mp herror
  exact ⟨by decide, hread, herror, hfaulty⟩

end Settings

end GuidedTours
