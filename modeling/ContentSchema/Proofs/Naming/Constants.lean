import ContentSchema.Options.Basic
import ContentSchema.Proofs.Text.Spelling
import Mathlib.Data.List.Basic

/-! # Constants as identifiers

A constant begins with the id where that is an identifier, and with its letters and digits otherwise;
the suffix comes after that. So it is spelled like an identifier whatever the id, and only reserved
words are left to be ruled out. They come up where what is kept of the id and the suffix together
spell one; without a suffix, every reserved word is an id that stays what it is.
-/

namespace ContentSchema

open Text

namespace Text

variable {c : Char}

end Text

namespace Naming

variable {naming : Naming} {id run : String} {first : List Char} {later : List (List Char)}

/-- What the constants of an id begin with. -/
def stem (id : String) : String := if isIdentifier id then id else camelCase id

theorem schemaName_eq (naming : Naming) (id : String) :
    naming.schemaName id = stem id ++ naming.schemaSuffix := rfl

def capitalizedRun : List Char → List Char
  | [] => []
  | c :: rest => c.toUpper :: rest

theorem isAlphanum_of_mem_capitalizedRun {r : List Char} (h : ∀ c ∈ r, c.isAlphanum = true) :
    ∀ c ∈ capitalizedRun r, c.isAlphanum = true := by
  cases r with
  | nil => exact h
  | cons c rest =>
    rw [List.forall_mem_cons] at h
    rw [capitalizedRun, List.forall_mem_cons]
    exact ⟨isAlphanum_toUpper h.1, h.2⟩

theorem camelCase_of_runs_nil (h : runs Char.isAlphanum id.toList = []) :
    camelCase id = "contentType" := by
  rw [camelCase, h]

theorem toList_camelCase (h : runs Char.isAlphanum id.toList = first :: later) :
    (camelCase id).toList = (if first.head?.any Char.isDigit then ['c', 't'] else []) ++
      (first ++ later.flatMap capitalizedRun) := by
  rw [camelCase, h]
  simp only [String.toList_ofList]
  split
  · rfl
  · rfl

theorem spelled_camelCase (id : String) : Spelled (camelCase id) := by
  cases hr : runs Char.isAlphanum id.toList with
  | nil =>
    rw [camelCase_of_runs_nil hr]
    exact (isIdentifier_iff.1 rfl).1
  | cons first later =>
    have hrun (r : List Char) (hm : r ∈ first :: later) := keep_of_mem_runs (hr ▸ hm)
    obtain ⟨hne, hfirst⟩ := hrun first List.mem_cons_self
    constructor
    · obtain ⟨c, rest, rfl⟩ := List.exists_cons_of_ne_nil hne
      rw [toList_camelCase hr]
      split
      · rfl
      · next hd =>
        apply startsIdentifier_of_isAlphanum (hfirst c List.mem_cons_self)
        simpa using hd
    · rw [toList_camelCase hr]
      intro c hc
      apply continuesIdentifier_of_isAlphanum
      rcases List.mem_append.1 hc with hc | hc
      · split at hc
        · exact List.all_eq_true.1 rfl c hc
        · cases hc
      rcases List.mem_append.1 hc with hc | hc
      · exact hfirst c hc
      · obtain ⟨r, hm, hc⟩ := List.mem_flatMap.1 hc
        exact isAlphanum_of_mem_capitalizedRun (hrun r (List.mem_cons_of_mem _ hm)).2 c hc

theorem spelled_stem (id : String) : Spelled (stem id) := by
  unfold stem
  split
  · next h => exact (isIdentifier_iff.1 h).1
  · exact spelled_camelCase id

theorem camelCase_of_runs (h : runs Char.isAlphanum id.toList = [run.toList])
    (hd : run.toList.head?.any Char.isDigit = false) : camelCase id = run := by
  rw [← String.toList_inj, toList_camelCase h, hd]
  simp

/-- What begins with a digit is made to begin with a letter, and a run after the first one begins
with a capital or a digit. So small letters alone come from one run. -/
theorem runs_of_camelCase (h : ∀ c ∈ (camelCase id).toList, c.isLower = true) :
    runs Char.isAlphanum id.toList = [(camelCase id).toList] := by
  cases hr : runs Char.isAlphanum id.toList with
  | nil =>
    rw [camelCase_of_runs_nil hr] at h
    exact absurd (h 'T' (by decide)) (by decide)
  | cons first later =>
    have hrun (r : List Char) (hm : r ∈ first :: later) := (keep_of_mem_runs (hr ▸ hm)).1
    rw [toList_camelCase hr, List.forall_mem_append, List.forall_mem_append] at h
    obtain ⟨-, hfirst, hlater⟩ := h
    obtain rfl : later = [] := by
      cases later with
      | nil => rfl
      | cons r later =>
        obtain ⟨c, rest, rfl⟩ :=
          List.exists_cons_of_ne_nil (hrun r (List.mem_cons_of_mem _ List.mem_cons_self))
        have hc := hlater c.toUpper (List.mem_append_left _ List.mem_cons_self)
        rw [isLower_toUpper] at hc
        cases hc
    have hd : first.head?.any Char.isDigit = false := by
      obtain ⟨c, rest, rfl⟩ := List.exists_cons_of_ne_nil (hrun first List.mem_cons_self)
      exact isDigit_eq_false_of_isLower (hfirst c List.mem_cons_self)
    rw [toList_camelCase hr, hd]
    simp

theorem stem_of_runs (h : runs Char.isAlphanum id.toList = [run.toList])
    (hl : ∀ c ∈ run.toList, c.isLower = true) (hid : isIdentifier id = true → id = run) :
    stem id = run := by
  unfold stem
  split
  · next hi => exact hid hi
  · apply camelCase_of_runs h
    cases hs : run.toList with
    | nil => rfl
    | cons c rest => exact isDigit_eq_false_of_isLower (hl c (hs ▸ List.mem_cons_self))

theorem runs_of_stem (h : ∀ c ∈ (stem id).toList, c.isLower = true) :
    runs Char.isAlphanum id.toList = [(stem id).toList] := by
  unfold stem at h ⊢
  split at h
  · next hi =>
    rw [if_pos hi]
    apply runs_of_forall
    · exact mt String.toList_eq_nil_iff.1 (isIdentifier_iff.1 hi).1.ne_empty
    · intro c hc
      exact isAlphanum_of_isLower (h c hc)
  · next hi =>
    rw [if_neg hi]
    exact runs_of_camelCase h

/-- A constant is a reserved word just where all that is left of the id is one run of letters and
digits, and that and the suffix spell the word. -/
theorem schemaName_mem_reservedWords_iff :
    naming.schemaName id ∈ reservedWords ↔
      ∃ run, runs Char.isAlphanum id.toList = [run.toList] ∧
        (isIdentifier id = true → id = run) ∧ run ++ naming.schemaSuffix ∈ reservedWords := by
  have hlower {run : String} (h : run ++ naming.schemaSuffix ∈ reservedWords) :
      ∀ c ∈ run.toList, c.isLower = true := by
    intro c hc
    apply isLower_of_mem_reservedWords h
    rw [String.toList_append]
    exact List.mem_append_left _ hc
  rw [schemaName_eq]
  constructor
  · intro h
    refine ⟨stem id, runs_of_stem (hlower h), ?_, h⟩
    intro hi
    rw [stem, if_pos hi]
  · rintro ⟨run, hr, hid, h⟩
    rwa [stem_of_runs hr (hlower h) hid]

/-- A suffix goes with all ids just where no reserved word ends in it, unless it is the word. -/
theorem forall_schemaName_not_mem_reservedWords_iff :
    (∀ id, naming.schemaName id ∉ reservedWords) ↔
      ∀ word ∈ reservedWords, naming.schemaSuffix.toList <:+ word.toList →
        word = naming.schemaSuffix := by
  constructor
  · rintro h word hw ⟨start, hs⟩
    obtain rfl : word = String.ofList start ++ naming.schemaSuffix := by
      rw [← String.toList_inj, String.toList_append, String.toList_ofList, hs]
    by_contra hne
    -- the beginning of the word is an id that the suffix makes the word of
    apply h (String.ofList start)
    rw [schemaName_mem_reservedWords_iff]
    refine ⟨String.ofList start, ?_, fun _ => rfl, hw⟩
    rw [String.toList_ofList]
    apply runs_of_forall
    · rintro rfl
      exact hne String.empty_append
    · intro c hc
      apply isAlphanum_of_isLower
      apply isLower_of_mem_reservedWords hw
      rw [← hs]
      exact List.mem_append_left _ hc
  · intro h id hm
    have he := h _ hm (by
      rw [schemaName_eq, String.toList_append]
      exact List.suffix_append _ _)
    rw [schemaName_eq, String.append_eq_right_iff] at he
    exact (spelled_stem id).ne_empty he

/-- By the standard rules, constants are identifiers: no reserved word ends as they do. -/
theorem isIdentifier_schemaName_standard (id : String) :
    isIdentifier (standard.schemaName id) = true := by
  rw [isIdentifier_iff]
  constructor
  · exact (spelled_stem id).append (List.all_eq_true.1 rfl)
  · exact forall_schemaName_not_mem_reservedWords_iff.2 (by decide) id

end Naming

/-- The settings of one layer that sets the suffix of constants. -/
def suffixed (suffix : String) : Settings :=
  { Options.empty with
    naming := some { NamingOptions.empty with schemaSuffix := some suffix } : Options }.resolve

/-- With a suffix that an identifier may go on with, a constant is always spelled like an identifier.
It is one unless a single run of letters and digits is left of the id that the suffix makes a
reserved word of. All constants are identifiers just where no reserved word ends in the suffix, but
for the suffix itself if it is such a word. -/
theorem constants_usable {naming : Naming}
    (h : ∀ c ∈ naming.schemaSuffix.toList, continuesIdentifier c = true) :
    (∀ id, Spelled (naming.schemaName id) ∧
      (isIdentifier (naming.schemaName id) = true ↔
        ¬ ∃ run, runs Char.isAlphanum id.toList = [run.toList] ∧
          (isIdentifier id = true → id = run) ∧ run ++ naming.schemaSuffix ∈ reservedWords)) ∧
    ((∀ id, isIdentifier (naming.schemaName id) = true) ↔
      ∀ word ∈ reservedWords, naming.schemaSuffix.toList <:+ word.toList →
        word = naming.schemaSuffix) := by
  have hs (id : String) : Spelled (naming.schemaName id) := (Naming.spelled_stem id).append h
  have hi (id : String) : isIdentifier (naming.schemaName id) = true ↔
      naming.schemaName id ∉ reservedWords := by
    rw [isIdentifier_iff, and_iff_right (hs id)]
  constructor
  · intro id
    refine ⟨hs id, ?_⟩
    rw [hi, Naming.schemaName_mem_reservedWords_iff]
  · simp only [hi]
    exact Naming.forall_schemaName_not_mem_reservedWords_iff

theorem constants_usable_surface :
    (∀ c ∈ (suffixed "face").naming.schemaSuffix.toList, continuesIdentifier c = true) ∧
      isIdentifier ((suffixed "face").naming.schemaName "-sur-") = true ∧
      isIdentifier ((suffixed "face").naming.schemaName "-inter-") = false ∧
      ¬ ∀ id, isIdentifier ((suffixed "face").naming.schemaName id) = true := by
  have h : ∀ c ∈ (suffixed "face").naming.schemaSuffix.toList, continuesIdentifier c = true :=
    List.all_eq_true.1 rfl
  obtain ⟨each, all⟩ := constants_usable h
  refine ⟨h, ?_, ?_, ?_⟩
  · rw [(each _).2]
    rintro ⟨run, hr, -, hm⟩
    have hrun : ["sur".toList] = [run.toList] := hr
    obtain rfl : "sur" = run := String.toList_inj.1 (List.cons.inj hrun).1
    exact absurd hm (by decide)
  · rw [← Bool.not_eq_true, (each _).2, not_not]
    exact ⟨"inter", by decide, by decide, by decide⟩
  · rw [all]
    decide

/-- A reserved word stays what it is without a suffix, and a suffix may make one. -/
theorem constants_reserved :
    (suffixed "").naming.schemaName "class" = "class" ∧
    isIdentifier ((suffixed "").naming.schemaName "class") = false ∧
    (suffixed "face").naming.schemaName "inter" = "interface" ∧
    isIdentifier ((suffixed "face").naming.schemaName "inter") = false := by
  decide

end ContentSchema
