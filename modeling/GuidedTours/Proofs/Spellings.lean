import GuidedTours.Proofs.FlowIds
import Mathlib.Data.List.TakeWhile

/-!
Texts that are spelled differently. Blanks around a text, the case of its letters and the form in
which the digits of an id are written make no difference to the id that is read, nor to whether one
is read at all.
-/

set_option autoImplicit false

namespace GuidedTours

open Text

/-- The forms of 32 digits: by themselves, in groups, in groups and braces, or in groups after
`urn:uuid:`. -/
inductive FlowId.Form (digits : List Char) : List Char → Prop
  | plain : Form digits digits
  | grouped : Form digits (hyphenate groups digits)
  | braced : Form digits ('\x7b' :: (hyphenate groups digits ++ ['\x7d']))
  | urn : Form digits (FlowId.urn ++ hyphenate groups digits)

/-- The texts are the same but for their spelling. -/
inductive Respelling : String → String → Prop
  | padded {left right : String} (text : String) (hleft : isBlankText left)
    (hright : isBlankText right) : Respelling text (left ++ text ++ right)
  | recased {text other : String}
    (h : text.toList.map Char.toLower = other.toList.map Char.toLower) : Respelling text other
  | reformed {digits form form' : List Char} (hlength : digits.length = 32)
    (hdigits : ∀ c ∈ digits, (hexDigit? c).isSome) (h : FlowId.Form digits form)
    (h' : FlowId.Form digits form') : Respelling (String.ofList form) (String.ofList form')
  | symm {text other : String} (h : Respelling text other) : Respelling other text
  | trans {text other last : String} (h : Respelling text other) (h' : Respelling other last) :
    Respelling text last

namespace Text

variable {p : Char → Bool} {cs left right : List Char}

theorem dropEndWhile_append (cs : List Char) (h : ∀ c ∈ right, p c) :
    dropEndWhile p (cs ++ right) = dropEndWhile p cs := by
  rw [dropEndWhile, List.reverse_append,
    List.dropWhile_append_of_pos fun c hc ↦ h c (List.mem_reverse.mp hc), dropEndWhile]

theorem trimmed_padded {left right : String} (text : String) (hleft : isBlankText left)
    (hright : isBlankText right) : trimmed (left ++ text ++ right) = trimmed text := by
  have hbefore : ∀ c ∈ left.toList, isBlank c := List.all_eq_true.mp hleft
  have hafter : ∀ c ∈ right.toList, isBlank c := List.all_eq_true.mp hright
  simp only [trimmed, String.toList_append, List.append_assoc]
  rw [List.dropWhile_append_of_pos hbefore, List.dropWhile_append]
  split
  next hempty =>
    have hnone : right.toList.dropWhile isBlank = [] := List.dropWhile_eq_nil_iff.mpr hafter
    rw [hnone, List.isEmpty_iff.mp hempty]
  next => rw [dropEndWhile_append _ hafter]

/-- What is the same for the 26 letters in both cases is the same in both cases for all
characters. -/
theorem toLower_invariant {β : Type} {g : Char → β}
    (h : ∀ k : Fin 26, g (Char.ofNat (97 + k)) = g (Char.ofNat (65 + k))) (c : Char) :
    g c.toLower = g c := by
  by_cases hupper : c.val ≥ 'A'.val ∧ c.val ≤ 'Z'.val
  · have hletters : ∀ k : Fin 26, (Char.ofNat (65 + k)).toLower = Char.ofNat (97 + k) := by decide
    have hfirst : 65 ≤ c.toNat := hupper.1
    have hlast : c.toNat ≤ 90 := hupper.2
    have hc : c = Char.ofNat (65 + (c.toNat - 65)) := by
      rw [Nat.add_sub_cancel' hfirst, Char.ofNat_toNat]
    have hk := hletters ⟨c.toNat - 65, by omega⟩
    rw [hc, hk]
    exact h ⟨c.toNat - 65, by omega⟩
  · have hsame : c.toLower = c := dif_neg hupper
    rw [hsame]

theorem isBlank_toLower (c : Char) : isBlank c.toLower = isBlank c :=
  toLower_invariant (by decide) c

theorem hexDigit?_toLower (c : Char) : hexDigit? c.toLower = hexDigit? c :=
  toLower_invariant (by decide) c

theorem toLower_eq_iff {d : Char}
    (hd : ∀ k : Fin 26, Char.ofNat (97 + k) = d ↔ Char.ofNat (65 + k) = d) (c : Char) :
    c.toLower = d ↔ c = d := by
  have hsame := toLower_invariant (g := fun c ↦ decide (c = d))
    (fun k ↦ decide_eq_decide.mpr (hd k)) c
  exact decide_eq_decide.mp hsame

theorem toLower_toLower (c : Char) : c.toLower.toLower = c.toLower :=
  toLower_invariant (by decide) c

theorem trimmed_lower (cs : List Char) : trimmed (String.ofList (cs.map Char.toLower)) =
    String.ofList ((trimmed (String.ofList cs)).toList.map Char.toLower) := by
  have hblank : isBlank ∘ Char.toLower = isBlank := funext isBlank_toLower
  simp only [trimmed, dropEndWhile, String.toList_ofList, List.dropWhile_map, hblank,
    ← List.map_reverse]

end Text

namespace FlowId

variable {cs digits form : List Char}

theorem dehyphenate?_lower (sizes : List Nat) (cs : List Char) :
    dehyphenate? sizes (cs.map Char.toLower) =
      (dehyphenate? sizes cs).map (List.map Char.toLower) := by
  induction sizes generalizing cs with
  | nil => cases cs <;> rfl
  | cons n ns ih =>
    cases ns with
    | nil =>
      simp only [dehyphenate?, List.length_map]
      split <;> rfl
    | cons m ms =>
      rw [dehyphenate?, dehyphenate?, ← List.map_drop]
      · cases cs.drop n with
        | nil => rfl
        | cons c rest =>
          by_cases hc : c = '-'
          · subst hc
            simp [ih, Function.comp_def]
          · have hlower : c.toLower ≠ '-' := mt (toLower_eq_iff (by decide) c).mp hc
            simp [hc, hlower]
      · exact List.cons_ne_nil m ms
      · exact List.cons_ne_nil m ms

theorem ofDigits?_lower (cs : List Char) : ofDigits? (cs.map Char.toLower) = ofDigits? cs := by
  have hdigit : hexDigit? ∘ Char.toLower = hexDigit? := funext hexDigit?_toLower
  rw [ofDigits?, List.mapM_map, hdigit, ofDigits?]

theorem ofGroups?_lower (cs : List Char) : ofGroups? (cs.map Char.toLower) = ofGroups? cs := by
  rw [ofGroups?, dehyphenate?_lower, Option.bind_map, ofGroups?]
  exact Option.bind_congr fun ds _ ↦ ofDigits?_lower ds

theorem parse?_lower (cs : List Char) :
    parse? (String.ofList (cs.map Char.toLower)) = parse? (String.ofList cs) := by
  have hopens : (cs.map Char.toLower).head? = some '\x7b' ↔ cs.head? = some '\x7b' := by
    simp [List.head?_map, toLower_eq_iff (d := '\x7b') (by decide)]
  have hcloses : (cs.map Char.toLower).getLast? = some '\x7d' ↔ cs.getLast? = some '\x7d' := by
    simp [List.getLast?_map, toLower_eq_iff (d := '\x7d') (by decide)]
  have hlower (cs : List Char) : (cs.map Char.toLower).map Char.toLower = cs.map Char.toLower := by
    rw [List.map_map]
    exact List.map_congr_left fun c _ ↦ toLower_toLower c
  simp only [parse?, String.toList_ofList, List.length_map, hopens, hcloses, ← List.map_take,
    ← List.map_drop, ← List.map_dropLast, hlower, ofDigits?_lower, ofGroups?_lower]

/-- The id that a text is read as depends on its letters in lower case alone. -/
theorem parseEntered?_recased {text other : String}
    (h : text.toList.map Char.toLower = other.toList.map Char.toLower) :
    parseEntered? text = parseEntered? other := by
  have hlower (s : String) :
      parse? (trimmed (String.ofList (s.toList.map Char.toLower))) = parseEntered? s := by
    rw [trimmed_lower, parse?_lower, String.ofList_toList, String.ofList_toList, parseEntered?]
  rw [← hlower text, h, hlower other]

/-- A digit is neither blank nor a brace. -/
theorem plain_of_hexDigit? {c : Char} (h : (hexDigit? c).isSome) : ¬ isBlank c ∧ c ≠ '\x7b' := by
  have hrange : (48 ≤ c.toNat ∧ c.toNat ≤ 57) ∨ (97 ≤ c.toNat ∧ c.toNat ≤ 102) ∨
      (65 ≤ c.toNat ∧ c.toNat ≤ 70) := by
    unfold hexDigit? at h
    split at h
    next hc => exact .inl hc
    next =>
      split at h
      next hc => exact .inr (.inl hc)
      next =>
        split at h
        next hc => exact .inr (.inr hc)
        next => nomatch h
  constructor
  · simp only [isBlank, Bool.or_eq_true, Bool.and_eq_true, decide_eq_true_eq, beq_iff_eq]
    omega
  · rintro rfl
    simp at hrange

section Forms

theorem plain_of_mem_grouped (hdigits : ∀ c ∈ digits, (hexDigit? c).isSome) {c : Char}
    (h : c ∈ hyphenate groups digits) : ¬ isBlank c ∧ c ≠ '\x7b' := by
  rcases mem_hyphenate h with rfl | h
  · decide
  · exact plain_of_hexDigit? (hdigits c h)

theorem Form.not_blank (hdigits : ∀ c ∈ digits, (hexDigit? c).isSome) (h : Form digits form) :
    ∀ c ∈ form, ¬ isBlank c := by
  intro c hc
  have hgrouped {c : Char} (hc : c ∈ hyphenate groups digits) : ¬ isBlank c :=
    (plain_of_mem_grouped hdigits hc).1
  cases h with
  | plain => exact (plain_of_hexDigit? (hdigits c hc)).1
  | grouped => exact hgrouped hc
  | braced =>
    rw [List.mem_cons, List.mem_append, List.mem_singleton] at hc
    rcases hc with rfl | hc | rfl
    · decide
    · exact hgrouped hc
    · decide
  | urn =>
    have hurn : ∀ c ∈ FlowId.urn, ¬ isBlank c := by simp [FlowId.urn, isBlank]
    exact (List.mem_append.mp hc).elim (hurn c) hgrouped

variable (hlength : digits.length = 32) (hdigits : ∀ c ∈ digits, (hexDigit? c).isSome)

include hlength

theorem ofGroups?_hyphenate : ofGroups? (hyphenate groups digits) = ofDigits? digits := by
  rw [ofGroups?, dehyphenate?_hyphenate (hlength.trans rfl), Option.bind_some]

theorem length_grouped : (hyphenate groups digits).length = 36 := by
  have hcount : (hyphenate groups digits).length + 1 = digits.length + groups.length :=
    length_hyphenate (by decide) (hlength.trans rfl)
  rw [hlength] at hcount
  exact Nat.succ.inj hcount

include hdigits

/-- In every form the digits are read as their number. -/
theorem Form.parseEntered?_eq (h : Form digits form) :
    parseEntered? (String.ofList form) = ofDigits? digits := by
  have hgrouped := length_grouped hlength
  have htrimmed : trimmed (String.ofList form) = String.ofList form :=
    trimmed_of_forall fun c hc ↦ h.not_blank hdigits c (by simpa using hc)
  rw [parseEntered?, htrimmed, parse?, String.toList_ofList, ← ofGroups?_hyphenate hlength]
  cases h with
  | plain => rw [if_pos hlength, ofGroups?_hyphenate hlength]
  | grouped =>
    have hbrace : (hyphenate groups digits).head? ≠ some '\x7b' := fun hhead ↦
      (plain_of_mem_grouped hdigits (List.mem_of_mem_head? hhead)).2 rfl
    simp [hgrouped, hbrace]
  | braced =>
    have hlast : ('\x7b' :: (hyphenate groups digits ++ ['\x7d'])).getLast? = some '\x7d' := by
      rw [← List.cons_append, List.getLast?_concat]
    simp [hgrouped, hlast]
  | urn => simp [hgrouped, FlowId.urn]

end Forms

end FlowId

/-- Respelled texts are read as the same id, or both as none. -/
theorem Respelling.parseEntered?_eq {text other : String} (h : Respelling text other) :
    FlowId.parseEntered? text = FlowId.parseEntered? other := by
  induction h with
  | padded text hleft hright =>
    rw [FlowId.parseEntered?, FlowId.parseEntered?, trimmed_padded text hleft hright]
  | recased h => exact FlowId.parseEntered?_recased h
  | reformed hlength hdigits h h' =>
    rw [h.parseEntered?_eq hlength hdigits, h'.parseEntered?_eq hlength hdigits]
  | symm _ ih => exact ih.symm
  | trans _ _ ih ih' => exact ih.trans ih'

end GuidedTours
