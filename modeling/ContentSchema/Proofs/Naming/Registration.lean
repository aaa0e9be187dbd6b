import ContentSchema.Proofs.Naming.Table

/-! # Names in the order of registration

Schemas are registered one after the other, each by rules of its own and any number of times. The
first time gives a schema its two names, for good: the name by the rules, or else the least number
more that no schema before it has.
-/

namespace ContentSchema

/-- A schema that is to have names, by these rules. -/
structure Registration where
  naming : Naming
  schema : NamedReference

namespace NameTable

/-- The name that a base comes to while the names `taken` are in use: the base itself, or else the
base with the least number from 2 on, which is among the first `tries` of them. -/
inductive Assigned (taken : String → Prop) (tries : Nat) (base : String) : String → Prop
  | free (h : ¬ taken base) : Assigned taken tries base base
  | numbered {n : Nat} (h : taken base) (hn : 2 ≤ n) (ht : n ≤ tries + 1)
      (hf : ¬ taken (base ++ toString n))
      (hl : ∀ m, 2 ≤ m → m < n → taken (base ++ toString m)) :
      Assigned taken tries base (base ++ toString n)

theorem assigned_unusedName {taken : String → Prop} {tries : Nat} {base : String}
    {used : List String} (h : ∀ name, taken name ↔ name ∈ used) (ht : used.length ≤ tries) :
    Assigned taken tries base (unusedName base used) := by
  by_cases hb : base ∈ used
  · obtain ⟨n, hn, hlt, he, hf, hl⟩ := exists_unusedName_eq hb
    rw [he]
    refine .numbered ((h base).2 hb) hn (by omega) (mt (h _).1 hf) ?_
    intro m hm hmn
    exact (h _).2 (hl m hm hmn)
  · rw [unusedName_of_not_mem hb]
    exact .free (mt (h base).1 hb)

def schema? (table : NameTable) (r : NamedReference) : Option String :=
  (table.find? r.target r.name).map (·.schema)

def type? (table : NameTable) (r : NamedReference) : Option String :=
  (table.find? r.target r.name).map (·.type)

def registerAll (table : NameTable) (calls : List Registration) : NameTable :=
  calls.foldl (fun table call => table.register call.naming call.schema.target call.schema.name)
    table

variable {table : NameTable} {naming : Naming} {r r' : NamedReference} {s s' : NamedSchema}
  {calls : List Registration}

/-! One registration. -/

theorem mem_keys_register :
    r' ∈ (table.register naming r.target r.name).keys ↔ r' = r ∨ r' ∈ table.keys := by
  by_cases hm : r ∈ table.keys
  · rw [register_of_mem hm, iff_or_self]
    rintro rfl
    exact hm
  · rw [register_of_not_mem hm, keys, List.map_append, List.mem_append, or_comm]
    exact or_congr_left List.mem_singleton

theorem find?_register (h : table.find? r.target r.name = some s) (naming : Naming)
    (target : Target) (id : String) :
    (table.register naming target id).find? r.target r.name = some s := by
  by_cases hm : ⟨id, target⟩ ∈ table.keys
  · rwa [register_of_mem hm]
  · rw [find?] at h
    rw [register_of_not_mem hm, find?, List.find?_append, h, Option.some_or]

theorem find?_register_self (h : r ∉ table.keys) :
    (table.register naming r.target r.name).find? r.target r.name =
      some (table.added naming r.target r.name) := by
  have hn : table.find? r.target r.name = none := by
    rw [← Option.not_isSome_iff_eq_none]
    exact mt find?_isSome_iff.1 h
  rw [find?] at hn
  rw [register_of_not_mem h, find?, List.find?_append, hn, Option.none_or]
  simp [added]

theorem length_register_le (naming : Naming) (target : Target) (id : String) :
    (table.register naming target id).schemas.length ≤ table.schemas.length + 1 := by
  by_cases hm : ⟨id, target⟩ ∈ table.keys
  · rw [register_of_mem hm]
    exact Nat.le_succ _
  · rw [register_of_not_mem hm]
    exact Nat.le_of_eq List.length_append

/-! A run of registrations. -/

theorem mem_keys_registerAll :
    r ∈ (table.registerAll calls).keys ↔ r ∈ table.keys ∨ ∃ call ∈ calls, call.schema = r := by
  induction calls generalizing table with
  | nil => simp [registerAll]
  | cons call rest ih =>
    rw [registerAll, List.foldl_cons]
    refine ih.trans ?_
    rw [mem_keys_register, or_comm (a := r = call.schema), or_assoc, eq_comm (a := r)]
    simp

theorem find?_registerAll (h : table.find? r.target r.name = some s) (calls : List Registration) :
    (table.registerAll calls).find? r.target r.name = some s := by
  induction calls generalizing table with
  | nil => exact h
  | cons call rest ih => exact ih (find?_register h _ _ _)

theorem Distinct.registerAll (h : Distinct table) (calls : List Registration) :
    Distinct (table.registerAll calls) := by
  induction calls generalizing table with
  | nil => exact h
  | cons call rest ih => exact ih (h.register _ _ _)

theorem length_registerAll_le (table : NameTable) (calls : List Registration) :
    (table.registerAll calls).schemas.length ≤ table.schemas.length + calls.length := by
  induction calls generalizing table with
  | nil => exact Nat.le_refl _
  | cons call rest ih =>
    have hs := @length_register_le table call.naming call.schema.target call.schema.name
    have hr := ih (table.register call.naming call.schema.target call.schema.name)
    rw [List.length_cons]
    exact Nat.le_trans hr (by omega)

theorem registerAll_append (calls later : List Registration) :
    table.registerAll (calls ++ later) = (table.registerAll calls).registerAll later :=
  List.foldl_append

/-! What is found. -/

theorem isSome_schema?_iff : (table.schema? r).isSome ↔ r ∈ table.keys := by
  rw [schema?, Option.isSome_map, find?_isSome_iff]

theorem isSome_type?_iff : (table.type? r).isSome ↔ r ∈ table.keys := by
  rw [type?, Option.isSome_map, find?_isSome_iff]

theorem mem_of_find? (h : table.find? r.target r.name = some s) :
    s ∈ table.schemas ∧ (⟨s.id, s.target⟩ : NamedReference) = r := by
  have hb := List.find?_some h
  obtain ⟨ht, hi⟩ : s.target = r.target ∧ s.id = r.name := by simpa using hb
  exact ⟨List.mem_of_find?_eq_some h, by rw [ht, hi]⟩

theorem eq_of_find? {name : NamedSchema → String} (hn : (table.schemas.map name).Nodup)
    {found : String} (hr : (table.find? r.target r.name).map name = some found)
    (hr' : (table.find? r'.target r'.name).map name = some found) : r = r' := by
  obtain ⟨s, hs, he⟩ := Option.map_eq_some_iff.1 hr
  obtain ⟨s', hs', he'⟩ := Option.map_eq_some_iff.1 hr'
  obtain ⟨hm, rfl⟩ := mem_of_find? hs
  obtain ⟨hm', rfl⟩ := mem_of_find? hs'
  rw [List.inj_on_of_nodup_map hn hm hm' (he.trans he'.symm)]

theorem Distinct.exists_find?_iff (h : Distinct table) (name : NamedSchema → String) (found : String) :
    (∃ r : NamedReference, (table.find? r.target r.name).map name = some found) ↔
      found ∈ table.schemas.map name := by
  rw [List.mem_map]
  constructor
  · rintro ⟨r, hr⟩
    obtain ⟨s, hs, he⟩ := Option.map_eq_some_iff.1 hr
    exact ⟨s, (mem_of_find? hs).1, he⟩
  · rintro ⟨s, hs, rfl⟩
    exact ⟨⟨s.id, s.target⟩, by rw [h.find?_eq hs, Option.map_some]⟩

end NameTable

/-- After any registrations, just the schemas that were registered have a constant and a type, and
no two of them have the same. They keep them whatever is registered later. A schema that is
registered for the first time gets the names by the rules, or else those with the least number that
no schema before it has. -/
theorem names_registered (calls : List Registration) :
    let table := NameTable.empty.registerAll calls
    (∀ r, ((table.schema? r).isSome ↔ ∃ call ∈ calls, call.schema = r) ∧
      ((table.type? r).isSome ↔ ∃ call ∈ calls, call.schema = r)) ∧
    (∀ r r' name, table.schema? r = some name → table.schema? r' = some name → r = r') ∧
    (∀ r r' name, table.type? r = some name → table.type? r' = some name → r = r') ∧
    (∀ later r name, table.schema? r = some name →
      (NameTable.empty.registerAll (calls ++ later)).schema? r = some name) ∧
    (∀ later r name, table.type? r = some name →
      (NameTable.empty.registerAll (calls ++ later)).type? r = some name) ∧
    ∀ call : Registration, (∀ earlier ∈ calls, earlier.schema ≠ call.schema) →
      ∃ schema type,
        (NameTable.empty.registerAll (calls ++ [call])).schema? call.schema = some schema ∧
        (NameTable.empty.registerAll (calls ++ [call])).type? call.schema = some type ∧
        NameTable.Assigned (fun name => ∃ r, table.schema? r = some name) calls.length
          (call.naming.schemaName call.schema.name) schema ∧
        NameTable.Assigned (fun name => ∃ r, table.type? r = some name) calls.length
          (call.naming.typeName call.schema.name) type := by
  intro table
  have hd : table.Distinct := NameTable.distinct_empty.registerAll calls
  have hk (r : NamedReference) : r ∈ table.keys ↔ ∃ call ∈ calls, call.schema = r := by
    rw [NameTable.mem_keys_registerAll]
    simp [NameTable.keys, NameTable.empty]
  have hl : table.schemas.length ≤ calls.length := by
    have hle := NameTable.empty.length_registerAll_le calls
    rwa [NameTable.empty, List.length_nil, Nat.zero_add] at hle
  -- constants and types are kept for the same reason
  have keep {name : NamedSchema → String} (later : List Registration) (r : NamedReference)
      (found : String) (hf : (table.find? r.target r.name).map name = some found) :
      ((NameTable.empty.registerAll (calls ++ later)).find? r.target r.name).map name =
        some found := by
    obtain ⟨s, hs, he⟩ := Option.map_eq_some_iff.1 hf
    rw [NameTable.registerAll_append, NameTable.find?_registerAll hs, Option.map_some, he]
  refine ⟨fun r => ⟨NameTable.isSome_schema?_iff.trans (hk r),
    NameTable.isSome_type?_iff.trans (hk r)⟩, fun _ _ _ => NameTable.eq_of_find? hd.constants,
    fun _ _ _ => NameTable.eq_of_find? hd.types, keep, keep, ?_⟩
  intro call hnew
  have hn : call.schema ∉ table.keys := by
    rw [hk]
    rintro ⟨earlier, he, hs⟩
    exact hnew earlier he hs
  have hfound : (NameTable.empty.registerAll (calls ++ [call])).find? call.schema.target
      call.schema.name = some (table.added call.naming call.schema.target call.schema.name) := by
    rw [NameTable.registerAll_append]
    exact NameTable.find?_register_self hn
  refine ⟨_, _, congrArg (Option.map _) hfound, congrArg (Option.map _) hfound, ?_, ?_⟩
  · apply NameTable.assigned_unusedName (hd.exists_find?_iff (·.schema))
    rwa [List.length_map]
  · apply NameTable.assigned_unusedName (hd.exists_find?_iff (·.type))
    rwa [List.length_map]

/-- A number that was added for one schema can be what another one is called by the rules. -/
theorem names_registered_pages :
    ∃ calls : List Registration, ∃ call : Registration,
      (∀ earlier ∈ calls, earlier.schema ≠ call.schema) ∧
      call.naming.typeName call.schema.name = "Page2" ∧
      (NameTable.empty.registerAll (calls ++ [call])).type? call.schema = some "Page22" ∧
      NameTable.Assigned
        (fun name => ∃ r, (NameTable.empty.registerAll calls).type? r = some name) 2 "Page2"
        "Page22" := by
  let calls : List Registration :=
    [⟨.standard, ⟨"page", .contentType⟩⟩, ⟨.standard, ⟨"page", .builtin⟩⟩]
  let call : Registration := ⟨.standard, ⟨"page2", .contentType⟩⟩
  have hn : ∀ earlier ∈ calls, earlier.schema ≠ call.schema := by decide
  have hb : call.naming.typeName call.schema.name = "Page2" := by decide +kernel
  have ht : (NameTable.empty.registerAll (calls ++ [call])).type? call.schema = some "Page22" := by
    decide +kernel
  obtain ⟨-, -, -, -, -, assigned⟩ := names_registered calls
  obtain ⟨schema, type, -, htype, -, ha⟩ := assigned call hn
  obtain rfl := Option.some.inj (htype.symm.trans ht)
  exact ⟨calls, call, hn, hb, ht, hb ▸ ha⟩

end ContentSchema
