import ContentSchema.Proofs.Source.Names

/-! # Names without numbers

Where the rules make a different name and a different type for each schema of a graph, no number is
added to any. All graphs of the same schemas then name them alike.
-/

namespace ContentSchema

namespace NameTable

/-- The names of all schemas are those that the rules make. -/
def Unnumbered (naming : Naming) (table : NameTable) : Prop :=
  ∀ s ∈ table.schemas, s.schema = naming.schemaName s.id ∧ s.type = naming.typeName s.id

/-- The rules make different names for what is referred to so, and different types. -/
structure Apart (naming : Naming) (references : List NamedReference) : Prop where
  constants : (references.map (naming.schemaName ·.name)).Nodup
  types : (references.map (naming.typeName ·.name)).Nodup

variable {naming : Naming} {table : NameTable} {target : Target} {id : String}
  {references references' : List NamedReference}

theorem Apart.perm (h : Apart naming references) (hp : references'.Perm references) :
    Apart naming references' :=
  ⟨(hp.map _).nodup_iff.2 h.constants, (hp.map _).nodup_iff.2 h.types⟩

theorem Apart.of_append (h : Apart naming (references ++ references')) :
    Apart naming references := by
  obtain ⟨hc, ht⟩ := h
  rw [List.map_append] at hc ht
  exact ⟨(List.nodup_append.1 hc).1, (List.nodup_append.1 ht).1⟩

theorem Apart.nodup (h : Apart naming references) : references.Nodup := h.constants.of_map

theorem Unnumbered.constants (h : Unnumbered naming table) :
    table.constants = table.keys.map (naming.schemaName ·.name) := by
  rw [NameTable.constants, keys, List.map_map]
  exact List.map_congr_left fun s hs => (h s hs).1

theorem Unnumbered.types (h : Unnumbered naming table) :
    table.types = table.keys.map (naming.typeName ·.name) := by
  rw [NameTable.types, keys, List.map_map]
  exact List.map_congr_left fun s hs => (h s hs).2

theorem not_mem_map_of_nodup_snoc (f : NamedReference → String) (r : NamedReference)
    (h : ((references ++ [r]).map f).Nodup) : f r ∉ references.map f := by
  rw [List.map_append, List.map_singleton] at h
  intro hm
  exact (List.nodup_append.1 h).2.2 _ hm _ (List.mem_singleton_self _) rfl

theorem Unnumbered.register (h : Unnumbered naming table)
    (ha : Apart naming (table.keys ++ [⟨id, target⟩])) :
    Unnumbered naming (table.register naming target id) := by
  have hc : naming.schemaName id ∉ table.constants := by
    rw [h.constants]
    exact not_mem_map_of_nodup_snoc (fun r => naming.schemaName r.name) ⟨id, target⟩ ha.constants
  have ht : naming.typeName id ∉ table.types := by
    rw [h.types]
    exact not_mem_map_of_nodup_snoc (fun r => naming.typeName r.name) ⟨id, target⟩ ha.types
  have hm : ⟨id, target⟩ ∉ table.keys := fun hm =>
    (List.nodup_append.1 ha.nodup).2.2 _ hm _ (List.mem_singleton_self _) rfl
  rw [register_of_not_mem hm, Unnumbered, List.forall_mem_append, List.forall_mem_singleton]
  exact ⟨h, unusedName_of_not_mem hc, unusedName_of_not_mem ht⟩

theorem Unnumbered.foldl_register {ids : List String} (h : Unnumbered naming table)
    (ha : Apart naming (table.keys ++ ids.map (⟨·, target⟩))) :
    Unnumbered naming (ids.foldl (·.register naming target ·) table) := by
  induction ids generalizing table with
  | nil => exact h
  | cons id rest ih =>
    rw [List.map_cons, List.append_cons] at ha
    have hm : ⟨id, target⟩ ∉ table.keys := fun hm =>
      (List.nodup_append.1 ha.of_append.nodup).2.2 _ hm _ (List.mem_singleton_self _) rfl
    refine ih (h.register ha.of_append) ?_
    rwa [keys_register_of_not_mem hm]

end NameTable

namespace Graph

variable {graph : Graph} {settings : Settings}

theorem unnumbered_nameTable {naming : Naming}
    (h : NameTable.Apart naming graph.references) :
    (graph.nameTable naming).Unnumbered naming := by
  have hempty : NameTable.Unnumbered naming NameTable.empty := by
    simp [NameTable.Unnumbered, NameTable.empty]
  refine NameTable.Unnumbered.foldl_register (hempty.foldl_register ?_) ?_
  · exact h.of_append
  · rw [graph.keys_builtins]
    exact h

/-- Whatever is referred to bears the names that the rules make, and so does what is not in the
table. -/
theorem names_of_apart (h : NameTable.Apart settings.naming graph.references) (target : Target)
    (id : String) :
    (graph.outline settings).constant target id = settings.naming.schemaName id ∧
      (graph.outline settings).type target id = settings.naming.typeName id := by
  rw [Outline.constant, Outline.type, outline]
  cases hf : (graph.nameTable settings.naming).find? target id with
  | none => exact ⟨rfl, rfl⟩
  | some s =>
    have hb := List.find?_some hf
    obtain ⟨-, rfl⟩ : s.target = target ∧ s.id = id := by simpa using hb
    exact unnumbered_nameTable h s (List.mem_of_find?_eq_some hf)

end Graph

end ContentSchema
