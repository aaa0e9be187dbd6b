import ContentSchema.Text.Identifier

/-! # Spelling

An identifier is a text that begins and goes on as identifiers do and is not reserved. Reserved words
are of small letters alone: a capital, a digit or a sign anywhere tells a text from all of them.
-/

namespace ContentSchema.Text

variable {s t : String} {c : Char}

theorem isDigit_iff : c.isDigit = true ↔ 48 ≤ c.toNat ∧ c.toNat ≤ 57 := Char.isDigit_iff_toNat

theorem isUpper_iff : c.isUpper = true ↔ 65 ≤ c.toNat ∧ c.toNat ≤ 90 := decide_eq_true_iff

theorem isLower_iff : c.isLower = true ↔ 97 ≤ c.toNat ∧ c.toNat ≤ 122 := by
  have h : c.isLower = (decide (97 ≤ c.val) && decide (c.val ≤ 122)) := rfl
  rw [h, Bool.and_eq_true, decide_eq_true_eq, decide_eq_true_eq]
  rfl

theorem isAlphanum_iff :
    c.isAlphanum = true ↔ c.isUpper = true ∨ c.isLower = true ∨ c.isDigit = true := by
  have h : c.isAlphanum = (c.isUpper || c.isLower || c.isDigit) := rfl
  rw [h, Bool.or_eq_true, Bool.or_eq_true, or_assoc]

theorem isAlphanum_of_isLower (h : c.isLower = true) : c.isAlphanum = true :=
  isAlphanum_iff.2 (.inr (.inl h))

theorem isDigit_eq_false_of_isLower (h : c.isLower = true) : c.isDigit = false := by
  rw [← Bool.not_eq_true, isDigit_iff]
  rw [isLower_iff] at h
  omega

theorem toUpper_of_not_isLower (h : ¬ c.isLower = true) : c.toUpper = c :=
  dif_neg (mt isLower_iff.2 h)

theorem toNat_toUpper (h : c.isLower = true) : c.toUpper.toNat = c.toNat - 32 := by
  have hd : 'a'.val ≤ c.val ∧ c.val ≤ 'z'.val := isLower_iff.1 h
  -- capitals stand below the small letters, and the difference wraps around
  have hs : ('A'.val - 'a'.val).toNat = 4294967264 := by decide
  have hn : c.toUpper.toNat = (c.toNat + 4294967264) % 4294967296 := by
    rw [← Char.toNat_val]
    delta Char.toUpper
    rw [dif_pos hd, UInt32.toNat_add, hs, Char.toNat_val]
  have hl := isLower_iff.1 h
  omega

theorem isUpper_toUpper (h : c.isLower = true) : c.toUpper.isUpper = true := by
  have hn := toNat_toUpper h
  rw [isLower_iff] at h
  rw [isUpper_iff]
  omega

theorem isAlphanum_toUpper (h : c.isAlphanum = true) : c.toUpper.isAlphanum = true := by
  by_cases hl : c.isLower = true
  · exact isAlphanum_iff.2 (.inl (isUpper_toUpper hl))
  · rwa [toUpper_of_not_isLower hl]

theorem isLower_toUpper (c : Char) : c.toUpper.isLower = false := by
  rw [← Bool.not_eq_true]
  by_cases hl : c.isLower = true
  · have hn := toNat_toUpper hl
    rw [isLower_iff] at hl ⊢
    omega
  · rwa [toUpper_of_not_isLower hl]

theorem toNat_lt_of_isAlphanum (h : c.isAlphanum = true) : c.toNat < 128 := by
  rw [isAlphanum_iff, isUpper_iff, isLower_iff, isDigit_iff] at h
  omega

/-- A text that begins and goes on as an identifier does. It may be a reserved word. -/
structure Spelled (text : String) : Prop where
  starts : text.toList.head?.any startsIdentifier = true
  continues : ∀ c ∈ text.toList, continuesIdentifier c = true

theorem continuesIdentifier_of_starts (h : startsIdentifier c = true) :
    continuesIdentifier c = true := by
  simp only [startsIdentifier, continuesIdentifier, Char.isAlphanum, Bool.or_eq_true] at h ⊢
  exact h.imp_right .inl

theorem continuesIdentifier_of_isAlphanum (h : c.isAlphanum = true) :
    continuesIdentifier c = true := by
  rw [continuesIdentifier, h, Bool.or_true]

theorem startsIdentifier_of_isAlphanum (h : c.isAlphanum = true) (hd : c.isDigit = false) :
    startsIdentifier c = true := by
  rw [Char.isAlphanum, hd, Bool.or_false] at h
  rw [startsIdentifier, h, Bool.or_true]

theorem isIdentifier_iff : isIdentifier s = true ↔ Spelled s ∧ s ∉ reservedWords := by
  unfold isIdentifier
  split
  · next hs =>
    constructor
    · intro h
      cases h
    · rintro ⟨⟨h, -⟩, -⟩
      rw [hs] at h
      cases h
  · next c rest hs =>
    simp only [Bool.and_eq_true, List.all_eq_true, Bool.not_eq_true', List.contains_eq_mem,
      decide_eq_false_iff_not]
    constructor
    · rintro ⟨⟨hc, hrest⟩, hr⟩
      refine ⟨⟨?_, ?_⟩, hr⟩
      · rw [hs]
        exact hc
      · rw [hs, List.forall_mem_cons]
        exact ⟨continuesIdentifier_of_starts hc, hrest⟩
    · rintro ⟨⟨hc, hrest⟩, hr⟩
      rw [hs] at hc hrest
      exact ⟨⟨hc, fun d hd => hrest d (List.mem_cons_of_mem _ hd)⟩, hr⟩

namespace Spelled

theorem ne_empty (h : Spelled s) : s ≠ "" := by
  rintro rfl
  cases h.starts

theorem not_mem (h : Spelled s) (hc : continuesIdentifier c = false) : c ∉ s.toList := by
  intro hm
  rw [h.continues c hm] at hc
  cases hc

theorem append_ne_quote (h : Spelled s) (rest later : List Char) :
    s.toList ++ rest ≠ '"' :: later := by
  intro he
  have hq : '"' ∉ s.toList := h.not_mem (by decide)
  cases hs : s.toList with
  | nil => exact h.ne_empty (String.toList_eq_nil_iff.1 hs)
  | cons c cs =>
    rw [hs] at he hq
    exact hq ((List.cons.inj he).1 ▸ List.mem_cons_self)

theorem append (h : Spelled s) (ht : ∀ c ∈ t.toList, continuesIdentifier c = true) :
    Spelled (s ++ t) := by
  obtain ⟨hs, hc⟩ := h
  constructor
  · rw [String.toList_append, List.head?_append]
    cases hh : s.toList.head? with
    | none =>
      rw [hh] at hs
      cases hs
    | some c => rwa [hh] at hs
  · rw [String.toList_append, List.forall_mem_append]
    exact ⟨hc, ht⟩

end Spelled

theorem starts_of_mem_reservedWords (h : s ∈ reservedWords) :
    s.toList.head?.any startsIdentifier = true := by
  have hall : reservedWords.all (fun word => word.toList.head?.any startsIdentifier) = true := by
    decide
  exact List.all_eq_true.1 hall s h

theorem isLower_of_mem_reservedWords (h : s ∈ reservedWords) : ∀ c ∈ s.toList, c.isLower = true := by
  have hall : reservedWords.all (fun word => word.toList.all Char.isLower) = true := by decide
  exact List.all_eq_true.1 (List.all_eq_true.1 hall s h)

end ContentSchema.Text
