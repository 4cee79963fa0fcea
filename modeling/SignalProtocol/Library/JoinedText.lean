import Mathlib.Data.List.Basic

/-! # Texts of joined fields

Fields that a separator joins, the fields that a text has, and keys under prefixes of which none
starts with another. -/

namespace JoinedText

open List

variable {α : Type*} {separator : α} {field other rest last final : List α}

/-- The text up to the first separator is the first field. -/
theorem cons_inj (hfield : separator ∉ field) (hother : separator ∉ other) :
    field ++ separator :: rest = other ++ separator :: last ↔ field = other ∧ rest = last := by
  induction field generalizing other with
  | nil =>
    cases other with
    | nil => simp
    | cons head tail =>
      have hhead : separator ≠ head := fun heq => hother (heq ▸ mem_cons_self)
      simp [hhead]
  | cons first field ih =>
    rw [mem_cons, not_or] at hfield
    cases other with
    | nil => simp [Ne.symm hfield.1]
    | cons head tail =>
      rw [mem_cons, not_or] at hother
      simp [ih hfield.2 hother.2, and_assoc]

/-- The text after the last separator is the last field. -/
theorem concat_inj (hlast : separator ∉ last) (hfinal : separator ∉ final) :
    field ++ separator :: last = other ++ separator :: final ↔ field = other ∧ last = final := by
  have hreverse : field ++ separator :: last = other ++ separator :: final ↔
      last.reverse ++ separator :: field.reverse = final.reverse ++ separator :: other.reverse := by
    rw [← reverse_inj]
    simp
  rw [hreverse, cons_inj (by simpa using hlast) (by simpa using hfinal), reverse_inj,
    reverse_inj, and_comm]

/-- A text starts with a field and its separator exactly when it is its first field. -/
theorem isPrefix_iff (hfield : separator ∉ field) (hother : separator ∉ other) :
    field ++ separator :: rest <+: other ++ separator :: last ↔ field = other ∧ rest <+: last := by
  constructor
  · rintro ⟨tail, htail⟩
    rw [append_assoc, cons_append, cons_inj hfield hother] at htail
    exact ⟨htail.1, tail, htail.2⟩
  · rintro ⟨rfl, tail, rfl⟩
    exact ⟨tail, by simp⟩

theorem mem_intercalate {char : α} {fields : List (List α)}
    (hchar : char ∈ [separator].intercalate fields) :
    char = separator ∨ ∃ field ∈ fields, char ∈ field := by
  induction fields with
  | nil => cases hchar
  | cons field fields ih =>
    cases fields with
    | nil =>
      rw [intercalate_singleton] at hchar
      exact Or.inr ⟨field, mem_cons_self, hchar⟩
    | cons next fields =>
      rw [intercalate_cons_cons, append_assoc, singleton_append, mem_append, mem_cons] at hchar
      obtain hfield | hsep | hrest := hchar
      · exact Or.inr ⟨field, mem_cons_self, hfield⟩
      · exact Or.inl hsep
      · obtain hsep | ⟨last, hlast, hmem⟩ := ih hrest
        · exact Or.inl hsep
        · exact Or.inr ⟨last, mem_cons_of_mem _ hlast, hmem⟩

variable [DecidableEq α]

/-- The fields of a text. -/
def split (separator : α) : List α → List (List α)
  | [] => [[]]
  | head :: tail =>
    if head = separator then [] :: split separator tail
    else
      match split separator tail with
      | [] => [[head]]
      | field :: fields => (head :: field) :: fields

theorem split_of_not_mem (hfield : separator ∉ field) : split separator field = [field] := by
  induction field with
  | nil => rfl
  | cons head field ih =>
    rw [mem_cons, not_or] at hfield
    rw [split, if_neg (Ne.symm hfield.1), ih hfield.2]

theorem split_append (hfield : separator ∉ field) :
    split separator (field ++ separator :: rest) = field :: split separator rest := by
  induction field with
  | nil => simp [split]
  | cons head field ih =>
    rw [mem_cons, not_or] at hfield
    rw [cons_append, split, if_neg (Ne.symm hfield.1), ih hfield.2]

/-- A text is its fields. -/
theorem splitOn_inj {first second : List α} :
    first.splitOn separator = second.splitOn separator ↔ first = second := by
  constructor
  · intro hfields
    have hjoined := congrArg [separator].intercalate hfields
    rwa [intercalate_splitOn, intercalate_splitOn] at hjoined
  · exact congrArg (List.splitOn separator)

/-- The text after the last separator. -/
def afterLast (separator : α) (text : List α) : List α :=
  (text.reverse.takeWhile (· ≠ separator)).reverse

theorem afterLast_append (hlast : separator ∉ last) :
    afterLast separator (field ++ separator :: last) = last := by
  have hreverse : (field ++ separator :: last).reverse =
      last.reverse ++ separator :: field.reverse := by
    simp
  have hkept : ∀ char ∈ last.reverse, decide (char ≠ separator) = true := by
    intro char hchar
    rw [mem_reverse] at hchar
    exact decide_eq_true fun heq => hlast (heq ▸ hchar)
  rw [afterLast, hreverse, List.takeWhile_append_of_pos hkept, List.takeWhile_cons]
  simp

omit [DecidableEq α] in
/-- Texts under prefixes of which none starts with another. -/
theorem prefix_inj {ι : Type*} {start : ι → List α}
    (hfree : ∀ first second, start first <+: start second → first = second) {first second : ι} :
    start first ++ field = start second ++ other ↔ first = second ∧ field = other := by
  constructor
  · intro heq
    have hfst : start first <+: start second ++ other := heq ▸ prefix_append _ _
    obtain hprefix | hprefix := prefix_or_prefix_of_prefix hfst (prefix_append _ other)
    · obtain rfl := hfree first second hprefix
      exact ⟨rfl, append_cancel_left heq⟩
    · obtain rfl := hfree second first hprefix
      exact ⟨rfl, append_cancel_left heq⟩
  · rintro ⟨rfl, rfl⟩
    rfl

end JoinedText
