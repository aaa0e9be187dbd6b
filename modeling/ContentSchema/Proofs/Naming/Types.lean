import ContentSchema.Naming.Basic
import ContentSchema.Proofs.Text.Spelling
import Mathlib.Data.List.Basic

/-! # Types as identifiers

By the standard rules, a type is named by the words of an id, each with a capital, and nothing else
is added but to what does not begin like an identifier. The characters that no identifier has are
dropped after the capitals are set. Where all words lose theirs that way, what is left is in small
letters and may be a reserved word.
-/

namespace ContentSchema

open Text

namespace Naming

variable {naming : Naming} {id : String} {word : List Char} {c d : Char}

/-- What a name keeps of a word's capital. -/
def capital (word : List Char) : List Char :=
  (((lowercase word).take 1).flatMap capitals).filter continuesIdentifier

/-- What a name keeps of a word after its first letter. -/
def remainder (word : List Char) : List Char :=
  ((lowercase word).drop 1).filter continuesIdentifier

theorem toList_pascalCase (naming : Naming) (id : String) :
    (naming.pascalCase id).toList =
      (words id).flatMap fun word => (naming.capitalized word).filter continuesIdentifier := by
  rw [pascalCase, String.toList_ofList, List.filter_flatMap]

theorem continuesIdentifier_pascalCase (naming : Naming) (id : String) :
    ∀ c ∈ (naming.pascalCase id).toList, continuesIdentifier c = true := by
  intro c hc
  rw [pascalCase, String.toList_ofList] at hc
  exact (List.mem_filter.1 hc).2

theorem isLower_eq_false_of_mem_capitals (h : d ∈ capitals c) : d.isLower = false := by
  have hall : (capitals c).all (fun d => !d.isLower) = true := by
    unfold capitals
    split
    case h_18 =>
      split
      · rw [List.all_cons, isLower_toUpper]
        rfl
      · rfl
    all_goals rfl
  simpa using List.all_eq_true.1 hall d h

theorem isLower_eq_false_of_mem_capital (h : d ∈ capital word) : d.isLower = false := by
  obtain ⟨c, -, hd⟩ := List.mem_flatMap.1 (List.mem_filter.1 h).1
  exact isLower_eq_false_of_mem_capitals hd

theorem filter_capitalized
    (h : naming.abbreviations.contains (String.ofList (lowercase word)) = false) :
    (naming.capitalized word).filter continuesIdentifier = capital word ++ remainder word := by
  simp only [capitalized, h, Bool.false_eq_true, if_false]
  cases hw : lowercase word with
  | nil => simp [capital, remainder, hw]
  | cons c rest => simp [capital, remainder, hw]

theorem mem_filter_capitalized (naming : Naming) (h : d ∈ capital word) :
    d ∈ (naming.capitalized word).filter continuesIdentifier := by
  cases ha : naming.abbreviations.contains (String.ofList (lowercase word)) with
  | false =>
    rw [filter_capitalized ha]
    exact List.mem_append_left _ h
  | true =>
    simp only [capitalized, ha, if_true]
    obtain ⟨hd, hc⟩ := List.mem_filter.1 h
    obtain ⟨c, hm, hd⟩ := List.mem_flatMap.1 hd
    exact List.mem_filter.2 ⟨List.mem_flatMap.2 ⟨c, List.mem_of_mem_take hm, hd⟩, hc⟩

theorem abbreviations_contains_of_capital (h : capital word = []) :
    standard.abbreviations.contains (String.ofList (lowercase word)) = false := by
  rw [← Bool.not_eq_true, List.contains_iff_mem]
  intro hm
  have hw {s : String} (hs : String.ofList (lowercase word) = s) : lowercase word = s.toList := by
    rw [← hs, String.toList_ofList]
  simp only [standard, List.mem_cons, List.not_mem_nil, or_false] at hm
  rcases hm with hs | hs | hs | hs
  all_goals
    rw [capital, hw hs] at h
    exact absurd h (by decide)

theorem pascalCase_eq_of_capital (h : ∀ word ∈ words id, capital word = []) :
    standard.pascalCase id = String.ofList ((words id).flatMap remainder) := by
  rw [← String.toList_inj, toList_pascalCase, String.toList_ofList]
  apply List.flatMap_congr
  intro word hw
  rw [filter_capitalized (abbreviations_contains_of_capital (h word hw)), h word hw, List.nil_append]

/-- Any capital that is kept tells a name from the reserved words. -/
theorem pascalCase_mem_reservedWords_iff :
    standard.pascalCase id ∈ reservedWords ↔
      (∀ word ∈ words id, capital word = []) ∧
        String.ofList ((words id).flatMap remainder) ∈ reservedWords := by
  constructor
  · intro h
    have hcapital : ∀ word ∈ words id, capital word = [] := by
      intro word hw
      rw [List.eq_nil_iff_forall_not_mem]
      intro d hd
      have hm : d ∈ (standard.pascalCase id).toList := by
        rw [toList_pascalCase]
        exact List.mem_flatMap.2 ⟨word, hw, mem_filter_capitalized standard hd⟩
      have hl := isLower_of_mem_reservedWords h d hm
      rw [isLower_eq_false_of_mem_capital hd] at hl
      cases hl
    rw [pascalCase_eq_of_capital hcapital] at h
    exact ⟨hcapital, h⟩
  · rintro ⟨hcapital, h⟩
    rwa [pascalCase_eq_of_capital hcapital]

theorem typeName_standard (id : String) :
    standard.typeName id =
      if (standard.pascalCase id).toList.head?.any startsIdentifier then standard.pascalCase id
      else "Type" ++ standard.pascalCase id := by
  have hp : standard.typePrefix = "" := rfl
  have hs : standard.typeSuffix = "" := rfl
  rw [typeName, hp, hs, String.empty_append, String.append_empty]

theorem spelled_typeName (id : String) : Spelled (standard.typeName id) := by
  have hc := continuesIdentifier_pascalCase standard id
  rw [typeName_standard]
  split
  · next hs => exact ⟨hs, hc⟩
  · exact Spelled.append (isIdentifier_iff.1 rfl).1 hc

theorem typeName_mem_reservedWords_iff :
    standard.typeName id ∈ reservedWords ↔ standard.pascalCase id ∈ reservedWords := by
  rw [typeName_standard]
  split
  · rfl
  · next hs =>
    constructor
    · intro h
      have hm : 'T' ∈ ("Type" ++ standard.pascalCase id).toList := by
        rw [String.toList_append]
        exact List.mem_append_left _ (by decide)
      exact absurd (isLower_of_mem_reservedWords h 'T' hm) (by decide)
    · intro h
      exact absurd (starts_of_mem_reservedWords h) hs

theorem isIdentifier_typeName_iff :
    isIdentifier (standard.typeName id) = true ↔
      ((∀ word ∈ words id, capital word = []) →
        String.ofList ((words id).flatMap remainder) ∉ reservedWords) := by
  rw [isIdentifier_iff, and_iff_right (spelled_typeName id), typeName_mem_reservedWords_iff,
    pascalCase_mem_reservedWords_iff, not_and]

theorem capital_ne_nil (h : word.head?.any Char.isAlphanum = true) : capital word ≠ [] := by
  -- letters and digits are ASCII, which leaves these characters to look at
  have hascii : (List.range 128).all (fun n => !(Char.ofNat n).isAlphanum ||
      !((((lower (Char.ofNat n)).take 1).flatMap capitals).filter continuesIdentifier).isEmpty) =
        true := by
    decide +kernel
  cases word with
  | nil => cases h
  | cons c rest =>
    have hc : c.isAlphanum = true := h
    have hkept := List.all_eq_true.1 hascii c.toNat (List.mem_range.2 (toNat_lt_of_isAlphanum hc))
    rw [Char.ofNat_toNat, hc, Bool.not_true, Bool.false_or, Bool.not_eq_true',
      List.isEmpty_eq_false_iff] at hkept
    have hsigma : c ≠ 'Σ' := by
      rintro rfl
      exact absurd hc (by decide)
    have hlower : 1 ≤ (lower c).length := by
      rw [Nat.one_le_iff_ne_zero, ne_eq, List.length_eq_zero_iff]
      intro hn
      rw [hn] at hkept
      exact hkept rfl
    rwa [capital, lowercase, lowercaseAfter, if_neg hsigma, List.take_append_of_le_length hlower]

end Naming

/-- By the standard rules, a type is always spelled like an identifier. It is one unless no word of
the id keeps its capital and what they keep else is a reserved word; a word that begins with a
letter or a digit keeps it. -/
theorem types_usable (id : String) :
    Spelled (Naming.standard.typeName id) ∧
      (isIdentifier (Naming.standard.typeName id) = true ↔
        ((∀ word ∈ Naming.words id, Naming.capital word = []) →
          String.ofList ((Naming.words id).flatMap Naming.remainder) ∉ reservedWords)) ∧
      ∀ word ∈ Naming.words id, word.head?.any Char.isAlphanum = true →
        isIdentifier (Naming.standard.typeName id) = true := by
  refine ⟨Naming.spelled_typeName id, Naming.isIdentifier_typeName_iff, ?_⟩
  intro word hw h
  rw [Naming.isIdentifier_typeName_iff]
  intro hcapital
  exact absurd (hcapital word hw) (Naming.capital_ne_nil h)

/-- A sign that no identifier has takes the capital. -/
theorem types_reserved :
    Naming.standard.typeName ".class" = "class" ∧
      isIdentifier (Naming.standard.typeName ".class") = false ∧
      Naming.standard.typeName "énew" = "new" ∧
      isIdentifier (Naming.standard.typeName "énew") = false := by
  decide +kernel

end ContentSchema
