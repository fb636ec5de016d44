import GuidedTours.FlowId
import GuidedTours.Proofs.Ascending
import Mathlib.Algebra.GroupWithZero.Nat
import Mathlib.Data.List.Basic

/-!
Flow ids as texts and in sets. The text of an id is read back as the id: its hyphens stand where
reading expects them, and it has neither blanks nor braces around it. The sets behave as sets.
-/

set_option autoImplicit false

namespace GuidedTours

open Text

namespace Text

theorem trimmed_of_forall {s : String} (h : ∀ c ∈ s.toList, ¬ isBlank c) : trimmed s = s := by
  have hkept : ∀ cs : List Char, (∀ c ∈ cs, ¬ isBlank c) → cs.dropWhile isBlank = cs := by
    intro cs hcs
    cases cs with
    | nil => rfl
    | cons c cs => exact List.dropWhile_cons_of_neg (hcs c List.mem_cons_self)
  have hreverse : ∀ c ∈ s.toList.reverse, ¬ isBlank c := fun c hc ↦ h c (List.mem_reverse.mp hc)
  rw [trimmed, dropEndWhile, hkept _ h, hkept _ hreverse, List.reverse_reverse,
    String.ofList_toList]

theorem length_toDigits (base : Nat) : ∀ count n, (toDigits base count n).length = count
  | 0, _ => rfl
  | count + 1, n => by
    rw [toDigits, List.length_append, length_toDigits base count, List.length_singleton]

theorem mapM_hexDigit? {digits : List Nat} (h : ∀ d ∈ digits, d < 16) :
    (digits.map digitChar).mapM hexDigit? = some digits := by
  induction digits with
  | nil => rfl
  | cons d ds ih =>
    rw [List.map_cons, List.mapM_cons, hexDigit?_digitChar (h d List.mem_cons_self),
      ih fun x hx ↦ h x (List.mem_cons_of_mem d hx)]
    rfl

end Text

namespace FlowId

variable {sizes : List Nat} {cs : List Char} {c : Char}

theorem dehyphenate?_hyphenate (h : cs.length = sizes.sum) :
    dehyphenate? sizes (hyphenate sizes cs) = some cs := by
  induction sizes generalizing cs with
  | nil =>
    rw [List.length_eq_zero_iff.mp h]
    rfl
  | cons n ns ih =>
    have hn : (cs.take n).length = n := by
      rw [List.length_take, h, List.sum_cons]
      omega
    cases ns with
    | nil => rw [hyphenate, dehyphenate?, if_pos hn, List.take_of_length_le (by simp [h])]
    | cons m ms =>
      have hrest : (cs.drop n).length = (m :: ms).sum := by
        rw [List.length_drop, h, List.sum_cons]
        omega
      rw [hyphenate, dehyphenate?, List.drop_left' hn, List.take_left' hn]
      · simp only [ih hrest, Option.map_some, List.take_append_drop]
      · exact List.cons_ne_nil m ms
      · exact List.cons_ne_nil m ms

theorem mem_hyphenate (h : c ∈ hyphenate sizes cs) : c = '-' ∨ c ∈ cs := by
  induction sizes generalizing cs with
  | nil => exact absurd h List.not_mem_nil
  | cons n ns ih =>
    cases ns with
    | nil => exact .inr (List.mem_of_mem_take h)
    | cons m ms =>
      rcases List.mem_append.mp h with h | h
      · exact .inr (List.mem_of_mem_take h)
      · rcases List.mem_cons.mp h with h | h
        · exact .inl h
        · exact (ih h).imp_right List.mem_of_mem_drop

theorem length_hyphenate (hsizes : sizes ≠ []) (h : cs.length = sizes.sum) :
    (hyphenate sizes cs).length + 1 = cs.length + sizes.length := by
  induction sizes generalizing cs with
  | nil => exact absurd rfl hsizes
  | cons n ns ih =>
    rw [List.sum_cons] at h
    cases ns with
    | nil =>
      rw [hyphenate, List.length_take, h]
      simp
    | cons m ms =>
      have hrest : (cs.drop n).length = (m :: ms).sum := by
        rw [List.length_drop, h]
        omega
      have hlater := ih (List.cons_ne_nil m ms) hrest
      rw [List.length_drop] at hlater
      rw [hyphenate, List.length_append, List.length_take, List.length_cons, List.length_cons]
      · omega
      · exact List.cons_ne_nil m ms

variable {id : FlowId}

theorem digits_lt : ∀ d ∈ id.digits, d < 16 := toDigits_lt (by decide) 32 id.bits.toNat

theorem length_digits : (id.digits.map digitChar).length = groups.sum := by
  rw [List.length_map, digits, length_toDigits]
  rfl

theorem ofDigits?_digits (id : FlowId) : ofDigits? (id.digits.map digitChar) = some id := by
  have hvalue : ofDigits 16 id.digits = id.bits.toNat := by
    rw [digits, ofDigits_toDigits]
    exact Nat.mod_eq_of_lt id.bits.isLt
  rw [ofDigits?, mapM_hexDigit? digits_lt, Option.map_some, hvalue, BitVec.ofNat_toNat,
    BitVec.setWidth_eq]

theorem plain_of_mem_text (h : c ∈ id.text.toList) : ¬ isBlank c ∧ c ≠ '\x7b' := by
  have hdigits : ∀ d : Fin 16, ¬ isBlank (digitChar d) ∧ digitChar d ≠ '\x7b' := by decide
  rw [text, String.toList_ofList] at h
  rcases mem_hyphenate h with rfl | h
  · decide
  · obtain ⟨d, hd, rfl⟩ := List.mem_map.mp h
    exact hdigits ⟨d, digits_lt d hd⟩

/-- The text of an id parses back to the id. -/
theorem parse?_text (id : FlowId) : parse? id.text = some id := by
  have hlength : id.text.toList.length = 36 := by
    have hcount : (hyphenate groups (id.digits.map digitChar)).length + 1 =
        (id.digits.map digitChar).length + groups.length :=
      length_hyphenate (by decide) length_digits
    rw [length_digits] at hcount
    rw [text, String.toList_ofList]
    exact Nat.succ.inj hcount
  have hbrace : ¬ (id.text.toList.head? = some '\x7b' ∧ id.text.toList.getLast? = some '\x7d') :=
    fun h ↦ (plain_of_mem_text (List.mem_of_mem_head? h.1)).2 rfl
  have hgroups : ofGroups? id.text.toList = some id := by
    rw [ofGroups?, text, String.toList_ofList, dehyphenate?_hyphenate length_digits,
      Option.bind_some, ofDigits?_digits]
  rw [parse?]
  rw [if_neg (by rw [hlength]; decide), if_neg hbrace, if_neg (by simp [hlength]), hgroups]

theorem parseEntered?_text (id : FlowId) : parseEntered? id.text = some id := by
  rw [parseEntered?, trimmed_of_forall fun c hc ↦ (plain_of_mem_text hc).1, parse?_text]

theorem text_ne_empty (id : FlowId) : id.text ≠ "" := by
  intro h
  have hempty : parseEntered? "" = none := by decide
  exact Option.some_ne_none id ((parseEntered?_text id).symm.trans (h ▸ hempty))

end FlowId

namespace FlowIdSet

variable {s t : FlowIdSet} {x y : FlowId}

/-- Sets of the same ids are equal. -/
theorem ext_mem (h : ∀ x, x ∈ s.ids ↔ x ∈ t.ids) : s = t := by
  obtain ⟨ids, hs⟩ := s
  obtain ⟨ids', ht⟩ := t
  obtain rfl : ids = ids' := Ascending.eq_of_mem_iff hs ht h
  rfl

theorem mem_insert : y ∈ (s.insert x).ids ↔ y = x ∨ y ∈ s.ids :=
  Ascending.mem_insert_iff fun _ _ hkey ↦ hkey

theorem mem_diff : y ∈ (s.diff t).ids ↔ y ∈ s.ids ∧ y ∉ t.ids := by
  simp [diff, contains]

end FlowIdSet

end GuidedTours
