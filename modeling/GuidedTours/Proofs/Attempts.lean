/-!
Attempts that may fail. One that is made of several succeeds if each of them does, and what every
step of a fold keeps the whole fold keeps.
-/

set_option autoImplicit false

namespace GuidedTours

variable {α β ε ε' : Type} {x : Except ε α} {a : α} {b : β}

theorem ok_bind (a : α) (f : α → Except ε β) : ((.ok a : Except ε α) >>= f) = f a := rfl

theorem bind_eq_ok_iff {f : α → Except ε β} :
    (x >>= f) = .ok b ↔ ∃ a, x = .ok a ∧ f a = .ok b := by
  cases x with
  | error e =>
    show Except.error e = Except.ok b ↔ _
    simp
  | ok a =>
    show f a = .ok b ↔ _
    simp

theorem bind_eq_error_iff {f : α → Except ε β} {e : ε} :
    (x >>= f) = .error e ↔ x = .error e ∨ ∃ a, x = .ok a ∧ f a = .error e := by
  cases x with
  | error e' =>
    show Except.error e' = Except.error e ↔ _
    simp
  | ok a =>
    show f a = .error e ↔ _
    simp

theorem map_eq_ok_iff {f : α → β} : x.map f = .ok b ↔ ∃ a, x = .ok a ∧ f a = b := by
  cases x with
  | error e =>
    show Except.error e = Except.ok b ↔ _
    simp
  | ok a =>
    show Except.ok (f a) = Except.ok b ↔ _
    simp

theorem map_eq_error_iff {f : α → β} {e : ε} : x.map f = .error e ↔ x = .error e := by
  cases x with
  | error e' =>
    show Except.error e' = Except.error e ↔ _
    simp
  | ok a =>
    show Except.ok (f a) = Except.error e ↔ _
    simp

theorem mapError_eq_ok_iff {f : ε → ε'} : x.mapError f = .ok a ↔ x = .ok a := by
  cases x with
  | error e =>
    show Except.error (f e) = Except.ok a ↔ _
    simp
  | ok b =>
    show Except.ok b = Except.ok a ↔ _
    simp

theorem map_mapError (f : α → β) (g : ε → ε') (x : Except ε α) :
    (x.mapError g).map f = (x.map f).mapError g := by
  cases x with
  | error e => rfl
  | ok a => rfl

theorem toOption_eq_some_iff : x.toOption = some a ↔ x = .ok a := by
  cases x with
  | error e =>
    show none = some a ↔ _
    simp
  | ok b =>
    show some b = some a ↔ _
    simp

theorem isOk_iff : x.isOk ↔ ∃ a, x = .ok a := by
  cases x with
  | error e =>
    show false = true ↔ _
    simp
  | ok a =>
    show true = true ↔ _
    simp

theorem mapM_eq_ok_map {f : α → Except ε β} {g : α → β} {xs : List α}
    (h : ∀ x ∈ xs, f x = .ok (g x)) : xs.mapM f = .ok (xs.map g) := by
  induction xs with
  | nil => rfl
  | cons x xs ih =>
    rw [List.mapM_cons, h x List.mem_cons_self, ih fun y hy ↦ h y (List.mem_cons_of_mem x hy)]
    rfl

theorem mapM_ok (xs : List α) : xs.mapM (.ok : α → Except ε α) = .ok xs :=
  (mapM_eq_ok_map fun _ _ ↦ rfl).trans (congrArg Except.ok (List.map_id xs))

/-- Each of several attempts succeeds, or one of them decides on the failure of all. -/
theorem mapM_cases (f : α → Except ε β) (xs : List α) :
    xs.mapM f = .ok (xs.filterMap fun x ↦ (f x).toOption) ∨
      ∃ x ∈ xs, ∃ e, f x = .error e ∧ xs.mapM f = .error e := by
  induction xs with
  | nil => exact .inl rfl
  | cons x xs ih =>
    rw [List.mapM_cons]
    cases hx : f x with
    | error e => exact .inr ⟨x, List.mem_cons_self, e, hx, rfl⟩
    | ok b =>
      rcases ih with hok | ⟨y, hy, e, hfy, herror⟩
      · refine .inl ?_
        rw [hok, List.filterMap_cons_some (f := fun x ↦ (f x).toOption)
          (toOption_eq_some_iff.mpr hx)]
        rfl
      · refine .inr ⟨y, List.mem_cons_of_mem x hy, e, hfy, ?_⟩
        rw [herror]
        rfl

theorem mem_of_mapM_eq_ok {f : α → Except ε β} {xs : List α} {ys : List β}
    (h : xs.mapM f = .ok ys) (hb : b ∈ ys) : ∃ x ∈ xs, f x = .ok b := by
  rcases mapM_cases f xs with hok | ⟨x, -, e, -, herror⟩
  · rw [← Except.ok.inj (hok.symm.trans h)] at hb
    obtain ⟨x, hx, hfx⟩ := List.mem_filterMap.mp hb
    exact ⟨x, hx, toOption_eq_some_iff.mp hfx⟩
  · rw [herror] at h
    nomatch h

/-- Of attempts that each keep a key the answers have the same keys. -/
theorem map_eq_of_mapM_eq_ok {γ : Type} {f : α → Except ε β} {g : β → γ} {key : α → γ}
    {xs : List α} {ys : List β} (hkey : ∀ x ∈ xs, ∀ b, f x = .ok b → g b = key x)
    (h : xs.mapM f = .ok ys) : ys.map g = xs.map key := by
  induction xs generalizing ys with
  | nil =>
    obtain rfl := Except.ok.inj h
    rfl
  | cons x xs ih =>
    rw [List.mapM_cons] at h
    obtain ⟨b, hb, h⟩ := bind_eq_ok_iff.mp h
    obtain ⟨rest, hrest, h⟩ := bind_eq_ok_iff.mp h
    obtain rfl := Except.ok.inj h
    rw [List.map_cons, List.map_cons, hkey x List.mem_cons_self b hb,
      ih (fun y hy ↦ hkey y (List.mem_cons_of_mem x hy)) hrest]

theorem exists_of_mapM_eq_error {f : α → Except ε β} {xs : List α} {e : ε}
    (h : xs.mapM f = .error e) : ∃ x ∈ xs, f x = .error e := by
  rcases mapM_cases f xs with hok | ⟨x, hx, e', hfx, herror⟩
  · rw [hok] at h
    nomatch h
  · rw [← Except.error.inj (herror.symm.trans h)]
    exact ⟨x, hx, hfx⟩

theorem foldlM_ok {P : β → Prop} {step : β → α → Except ε β}
    (hstep : ∀ b x b', P b → step b x = .ok b' → P b') {xs : List α} {result : β} (hb : P b)
    (h : xs.foldlM step b = .ok result) : P result := by
  induction xs generalizing b with
  | nil => exact Except.ok.inj h ▸ hb
  | cons x xs ih =>
    rw [List.foldlM_cons] at h
    obtain ⟨next, hx, hrest⟩ := bind_eq_ok_iff.mp h
    exact ih (hstep b x next hb hx) hrest

section Options

variable {x : Option α} {f : α → Option β}

theorem bind_eq_some_iff_of_eq (hx : x = some a) : (x >>= f) = some b ↔ f a = some b := by
  rw [hx]
  exact Iff.rfl

theorem bind_of_eq_some (hx : x = some a) (hf : f a = some b) : (x >>= f) = some b :=
  (bind_eq_some_iff_of_eq hx).mpr hf

end Options

end GuidedTours
