import ContentSchema.Naming.Table
import Mathlib.Data.List.Nodup
import Mathlib.Data.List.Perm.Subperm

/-! # Names without clashes

A name that is taken is told apart by a number, so that no two schemas of a table have one name, nor
one type.
-/

namespace ContentSchema

/-- The name, as it is or with a number added. -/
def Numbered (base name : String) : Prop := name = base ∨ ∃ n : Nat, name = base ++ toString n

namespace NameTable

section

variable {base : String} {used : List String}

theorem append_toString_injective (base : String) :
    Function.Injective fun n : Nat => base ++ toString n := by
  intro m n h
  have hl : (toString m).toList = (toString n).toList :=
    congrArg String.toList ((String.append_right_inj base).1 h)
  rw [Nat.toString_eq_repr, Nat.toString_eq_repr, Nat.toList_repr, Nat.toList_repr] at hl
  have hd := congrArg (Nat.ofDigitChars 10 · 0) hl
  rwa [Nat.ofDigitChars_ten_toDigits, Nat.ofDigitChars_ten_toDigits] at hd

theorem append_toString_ne (base : String) (n : Nat) : base ++ toString n ≠ base := by
  intro h
  have hl : (toString n).toList = [] := by
    simpa using congrArg String.toList h
  rw [Nat.toString_eq_repr, Nat.toList_repr] at hl
  exact Nat.toDigits_ne_nil hl

theorem exists_candidate (h : base ∈ used) :
    ∃ n ∈ List.range' 2 used.length, base ++ toString n ∉ used := by
  by_contra hall
  push Not at hall
  let candidates := (List.range' 2 used.length).map fun n => base ++ toString n
  have hn : (base :: candidates).Nodup := by
    rw [List.nodup_cons]
    constructor
    · intro hm
      obtain ⟨n, -, hb⟩ := List.mem_map.1 hm
      exact append_toString_ne base n hb
    · exact List.Nodup.map (append_toString_injective base) List.nodup_range'
  have hs : base :: candidates ⊆ used := by
    intro name hm
    rcases List.mem_cons.1 hm with rfl | hm
    · exact h
    · obtain ⟨n, hr, rfl⟩ := List.mem_map.1 hm
      exact hall n hr
  have hl := (List.subperm_of_subset hn hs).length_le
  rw [List.length_cons, List.length_map, List.length_range'] at hl
  omega

theorem unusedName_of_not_mem (h : base ∉ used) : unusedName base used = base := by
  rw [unusedName, if_neg (by simpa using h)]

/-- A name that is taken gets the least number from 2 on that sets it apart, and one of the first
as many numbers as there are names does. -/
theorem exists_unusedName_eq (h : base ∈ used) :
    ∃ n, 2 ≤ n ∧ n ≤ used.length + 1 ∧ unusedName base used = base ++ toString n ∧
      base ++ toString n ∉ used ∧ ∀ m, 2 ≤ m → m < n → base ++ toString m ∈ used := by
  obtain ⟨k, hk, hfree⟩ := exists_candidate h
  simp only [unusedName, List.contains_iff_mem.2 h, if_true, List.find?_map]
  cases hf : (List.range' 2 used.length).find?
      ((!used.contains ·) ∘ fun n => base ++ toString n) with
  | none =>
    have hm := List.find?_eq_none.1 hf k hk
    exact absurd hfree (by simpa using hm)
  | some n =>
    obtain ⟨hn, hr, hl⟩ := List.find?_range'_eq_some.1 hf
    obtain ⟨hge, hlt⟩ := List.mem_range'_1.1 hr
    exact ⟨n, hge, by omega, rfl, by simpa using hn, by simpa using hl⟩

theorem unusedName_not_mem (base : String) (used : List String) : unusedName base used ∉ used := by
  by_cases h : base ∈ used
  · obtain ⟨n, -, -, he, hn, -⟩ := exists_unusedName_eq h
    rwa [he]
  · rwa [unusedName_of_not_mem h]

theorem numbered_unusedName (base : String) (used : List String) :
    Numbered base (unusedName base used) := by
  by_cases h : base ∈ used
  · obtain ⟨n, -, -, he, -⟩ := exists_unusedName_eq h
    exact .inr ⟨n, he⟩
  · exact .inl (unusedName_of_not_mem h)

theorem mem_unusedName (base : String) (used : List String) :
    base = unusedName base used ∨ base ∈ used := by
  by_cases h : base ∈ used
  · exact .inr h
  · exact .inl (unusedName_of_not_mem h).symm

end

def keys (table : NameTable) : List NamedReference := table.schemas.map fun s => ⟨s.id, s.target⟩

def constants (table : NameTable) : List String := table.schemas.map (·.schema)

def types (table : NameTable) : List String := table.schemas.map (·.type)

/-- No schema is in the table twice, and neither is a name or a type. -/
structure Distinct (table : NameTable) : Prop where
  keys : table.keys.Nodup
  constants : table.constants.Nodup
  types : table.types.Nodup

/-- A table that is made by the rules: no schema is there twice, and neither is a name or a type. -/
structure Made (naming : Naming) (table : NameTable) : Prop where
  keys : table.keys.Nodup
  constants : table.constants.Nodup
  types : table.types.Nodup
  schema_eq : ∀ s ∈ table.schemas, Numbered (naming.schemaName s.id) s.schema
  type_eq : ∀ s ∈ table.schemas, Numbered (naming.typeName s.id) s.type
  type_mem : ∀ s ∈ table.schemas, naming.typeName s.id ∈ table.types

variable {naming : Naming} {table : NameTable} {target : Target} {id : String}

theorem find?_isSome_iff : (table.find? target id).isSome ↔ ⟨id, target⟩ ∈ table.keys := by
  simp [find?, keys, and_comm]

def added (table : NameTable) (naming : Naming) (target : Target) (id : String) : NamedSchema :=
  ⟨target, id, unusedName (naming.schemaName id) table.constants,
    unusedName (naming.typeName id) table.types⟩

theorem register_of_mem (h : ⟨id, target⟩ ∈ table.keys) :
    table.register naming target id = table := by
  rw [register, if_pos (find?_isSome_iff.2 h)]

theorem register_of_not_mem (h : ⟨id, target⟩ ∉ table.keys) :
    table.register naming target id = ⟨table.schemas ++ [table.added naming target id]⟩ := by
  rw [register, if_neg (mt find?_isSome_iff.1 h)]
  rfl

theorem keys_register_of_not_mem (h : ⟨id, target⟩ ∉ table.keys) :
    (table.register naming target id).keys = table.keys ++ [⟨id, target⟩] := by
  rw [register_of_not_mem h]
  exact List.map_append

theorem distinct_empty : Distinct empty := ⟨List.nodup_nil, List.nodup_nil, List.nodup_nil⟩

/-- Whatever the rules are that a schema is named by, no two of the table get to have one name. -/
theorem Distinct.register (h : Distinct table) (naming : Naming) (target : Target) (id : String) :
    Distinct (table.register naming target id) := by
  by_cases hm : ⟨id, target⟩ ∈ table.keys
  · rwa [register_of_mem hm]
  · have snoc {α : Type} {as : List α} {a : α} (hn : as.Nodup) (ha : a ∉ as) :
        (as ++ [a]).Nodup := by
      rw [← List.concat_eq_append]
      exact hn.concat ha
    rw [register_of_not_mem hm]
    constructor
    · rw [NameTable.keys, List.map_append]
      exact snoc h.keys hm
    · rw [NameTable.constants, List.map_append]
      exact snoc h.constants (unusedName_not_mem _ _)
    · rw [NameTable.types, List.map_append]
      exact snoc h.types (unusedName_not_mem _ _)

theorem Made.distinct (h : Made naming table) : Distinct table := ⟨h.keys, h.constants, h.types⟩

theorem made_empty : Made naming empty where
  keys := List.nodup_nil
  constants := List.nodup_nil
  types := List.nodup_nil
  schema_eq := by simp [empty]
  type_eq := by simp [empty]
  type_mem := by simp [empty]

theorem Made.register (h : Made naming table) (target : Target) (id : String) :
    Made naming (table.register naming target id) := by
  by_cases hm : ⟨id, target⟩ ∈ table.keys
  · rwa [register_of_mem hm]
  · have hd := h.distinct.register naming target id
    have ht : NameTable.types ⟨table.schemas ++ [table.added naming target id]⟩ =
        table.types ++ [unusedName (naming.typeName id) table.types] := List.map_append
    rw [register_of_not_mem hm] at hd ⊢
    refine ⟨hd.keys, hd.constants, hd.types, ?_, ?_, ?_⟩
    · rw [List.forall_mem_append, List.forall_mem_singleton]
      exact ⟨h.schema_eq, numbered_unusedName _ _⟩
    · rw [List.forall_mem_append, List.forall_mem_singleton]
      exact ⟨h.type_eq, numbered_unusedName _ _⟩
    · rw [List.forall_mem_append, List.forall_mem_singleton, ht]
      constructor
      · intro s hs
        exact List.mem_append_left _ (h.type_mem s hs)
      · rw [List.mem_append, List.mem_singleton, or_comm]
        exact mem_unusedName _ _

theorem Made.foldl_register (h : Made naming table) (target : Target) (ids : List String) :
    Made naming (ids.foldl (·.register naming target ·) table) := by
  induction ids generalizing table with
  | nil => exact h
  | cons id rest ih => exact ih (h.register target id)

theorem keys_foldl_register {ids : List String} (hn : ids.Nodup)
    (hk : ∀ id ∈ ids, ⟨id, target⟩ ∉ table.keys) :
    (ids.foldl (·.register naming target ·) table).keys =
      table.keys ++ ids.map (⟨·, target⟩) := by
  induction ids generalizing table with
  | nil => simp
  | cons id rest ih =>
    rw [List.forall_mem_cons] at hk
    rw [List.nodup_cons] at hn
    have he : (table.register naming target id).keys = table.keys ++ [⟨id, target⟩] :=
      keys_register_of_not_mem hk.1
    rw [List.foldl_cons, ih hn.2, he, List.append_assoc]
    · rfl
    · intro k hm
      rw [he, List.mem_append, List.mem_singleton]
      rintro (hm' | hm')
      · exact hk.2 k hm hm'
      · injection hm' with hid
        exact hn.1 (hid ▸ hm)

theorem Distinct.find?_eq (h : Distinct table) {s : NamedSchema} (hs : s ∈ table.schemas) :
    table.find? s.target s.id = some s := by
  have hk : (⟨s.id, s.target⟩ : NamedReference) ∈ table.keys :=
    List.mem_map_of_mem (f := fun s : NamedSchema => (⟨s.id, s.target⟩ : NamedReference)) hs
  obtain ⟨s', hf⟩ := Option.isSome_iff_exists.1 (find?_isSome_iff.2 hk)
  have hb := List.find?_some hf
  obtain ⟨ht, hi⟩ : s'.target = s.target ∧ s'.id = s.id := by simpa using hb
  rw [hf, List.inj_on_of_nodup_map h.keys (List.mem_of_find?_eq_some hf) hs
    (by simp [ht, hi])]

theorem Made.find?_eq (h : Made naming table) {s : NamedSchema} (hs : s ∈ table.schemas) :
    table.find? s.target s.id = some s :=
  h.distinct.find?_eq hs

end NameTable

end ContentSchema
