import ContentSchema.Proofs.Graph.Closure
import ContentSchema.Proofs.Naming.Table
import ContentSchema.Proofs.Source.Flat
import ContentSchema.Proofs.Source.Linked
import ContentSchema.Proofs.Source.Statements

/-! # Names of a module

The declarations of a module bear the names that its table has for their schemas, and so no two bear
the same. What clashes with them is what the table does not know of: the type that is imported, and
the names of the bases.
-/

namespace ContentSchema

open Source

namespace Graph

variable {graph : Graph} {settings : Settings}

theorem nodup_builtinNames (graph : Graph) : graph.builtinNames.Nodup := nodup_eraseDups _

/-- What the table of a graph has names for. -/
def references (graph : Graph) : List NamedReference :=
  graph.builtinNames.map (⟨·, .builtin⟩) ++ (Entries.keys graph.schemas).map (⟨·, .contentType⟩)

def declared (graph : Graph) (settings : Settings) : List NamedReference :=
  (if settings.flat then [] else graph.builtinNames.map (⟨·, .builtin⟩)) ++
    (Entries.keys graph.schemas).map (⟨·, .contentType⟩)

theorem declared_sublist : (graph.declared settings).Sublist graph.references := by
  unfold declared
  split
  · exact List.sublist_append_right _ _
  · exact List.Sublist.refl _

theorem made_nameTable (naming : Naming) : (graph.nameTable naming).Made naming :=
  (NameTable.made_empty.foldl_register _ _).foldl_register _ _

theorem keys_builtins (graph : Graph) (naming : Naming) :
    NameTable.keys (graph.builtinNames.foldl (NameTable.register · naming .builtin ·)
      NameTable.empty) = graph.builtinNames.map (⟨·, .builtin⟩) := by
  rw [NameTable.keys_foldl_register graph.nodup_builtinNames]
  · rfl
  · simp [NameTable.keys, NameTable.empty]

theorem keys_nameTable (naming : Naming) (h : (Entries.keys graph.schemas).Nodup) :
    (graph.nameTable naming).keys = graph.references := by
  have hb := graph.keys_builtins naming
  rw [nameTable, NameTable.keys_foldl_register h, hb]
  · rfl
  · simp [hb]

theorem constant_of_mem {s : NamedSchema} (hs : s ∈ (graph.nameTable settings.naming).schemas) :
    (graph.outline settings).constant s.target s.id = s.schema := by
  rw [Outline.constant, outline, (made_nameTable settings.naming).find?_eq hs]
  rfl

theorem type_of_mem {s : NamedSchema} (hs : s ∈ (graph.nameTable settings.naming).schemas) :
    (graph.outline settings).type s.target s.id = s.type := by
  rw [Outline.type, outline, (made_nameTable settings.naming).find?_eq hs]
  rfl

theorem exists_of_mem_references (settings : Settings) (h : (Entries.keys graph.schemas).Nodup)
    {r : NamedReference} (hr : r ∈ graph.references) :
    ∃ s ∈ (graph.nameTable settings.naming).schemas, r = ⟨s.id, s.target⟩ := by
  rw [← keys_nameTable settings.naming h] at hr
  obtain ⟨s, hs, rfl⟩ := List.mem_map.1 hr
  exact ⟨s, hs, rfl⟩

theorem constants_references (settings : Settings) (h : (Entries.keys graph.schemas).Nodup) :
    graph.references.map (fun r => (graph.outline settings).constant r.target r.name) =
      (graph.nameTable settings.naming).constants := by
  rw [← keys_nameTable settings.naming h, NameTable.keys, List.map_map]
  exact List.map_congr_left fun s hs => constant_of_mem hs

theorem types_references (settings : Settings) (h : (Entries.keys graph.schemas).Nodup) :
    graph.references.map (fun r => (graph.outline settings).type r.target r.name) =
      (graph.nameTable settings.naming).types := by
  rw [← keys_nameTable settings.naming h, NameTable.keys, List.map_map]
  exact List.map_congr_left fun s hs => type_of_mem hs

theorem numbered_constant (settings : Settings) (h : (Entries.keys graph.schemas).Nodup)
    {r : NamedReference} (hr : r ∈ graph.references) :
    Numbered (settings.naming.schemaName r.name)
      ((graph.outline settings).constant r.target r.name) := by
  obtain ⟨s, hs, rfl⟩ := exists_of_mem_references settings h hr
  rw [constant_of_mem hs]
  exact (made_nameTable settings.naming).schema_eq s hs

theorem numbered_type (settings : Settings) (h : (Entries.keys graph.schemas).Nodup)
    {r : NamedReference} (hr : r ∈ graph.references) :
    Numbered (settings.naming.typeName r.name)
      ((graph.outline settings).type r.target r.name) := by
  obtain ⟨s, hs, rfl⟩ := exists_of_mem_references settings h hr
  rw [type_of_mem hs]
  exact (made_nameTable settings.naming).type_eq s hs

theorem exists_type_eq (settings : Settings) (h : (Entries.keys graph.schemas).Nodup)
    {r : NamedReference} (hr : r ∈ graph.references) :
    ∃ r' ∈ graph.references,
      (graph.outline settings).type r'.target r'.name = settings.naming.typeName r.name := by
  obtain ⟨s, hs, rfl⟩ := exists_of_mem_references settings h hr
  have hm := (made_nameTable settings.naming).type_mem s hs
  rw [← types_references settings h] at hm
  exact List.mem_map.1 hm

end Graph

namespace Outline

variable {o : Outline} {d : Declaration}

/-- The declaration bears the names of what is referred to by `r`. -/
structure Bears (o : Outline) (r : NamedReference) (d : Declaration) : Prop where
  constant : d.constant = o.constant r.target r.name
  type : d.type = o.type r.target r.name
  base : ∀ base ∈ d.base?, base = "_base" ++ d.type

theorem bears_of_builtin {b : Builtin} (h : (o.builtin b).outcome = .ok d) :
    o.Bears ⟨b.name, .builtin⟩ d := by
  rw [builtin, bind_pure_comp] at h
  obtain ⟨body, -, rfl⟩ := Report.outcome_map_eq_ok.1 h
  exact ⟨rfl, rfl, by simp [Declaration.base?]⟩

/-- A content type is declared by its schema alone, or by a base and links. -/
theorem exists_of_contentType {id : String} {node : Node}
    (h : (o.contentType id node).outcome = .ok d) :
    (∃ body, d = .schema (o.constant .contentType id) (o.type .contentType id) body none) ∨
      ∃ body links, d = .linked ("_base" ++ o.type .contentType id) (o.constant .contentType id)
        (o.type .contentType id) body links := by
  unfold contentType at h
  dsimp only at h
  generalize (if o.settings.flat then [] else node.linkedFields) = links at h
  split at h
  · rw [bind_pure_comp] at h
    obtain ⟨body, -, rfl⟩ := Report.outcome_map_eq_ok.1 h
    exact .inl ⟨body, rfl⟩
  · obtain ⟨body, -, h⟩ := Report.outcome_bind_eq_ok.1 h
    rw [bind_pure_comp] at h
    obtain ⟨links, -, rfl⟩ := Report.outcome_map_eq_ok.1 h
    exact .inr ⟨body, links, rfl⟩

theorem bears_of_contentType {id : String} {node : Node}
    (h : (o.contentType id node).outcome = .ok d) : o.Bears ⟨id, .contentType⟩ d := by
  rcases exists_of_contentType h with ⟨body, rfl⟩ | ⟨body, links, rfl⟩
  · exact ⟨rfl, rfl, by simp [Declaration.base?]⟩
  · exact ⟨rfl, rfl, by simp [Declaration.base?, Declaration.type]⟩

end Outline

namespace Graph

variable {graph : Graph} {settings : Settings} {m : Module}

/-- A module declares its schemas one by one, each under its names. -/
theorem bears_declared (h : (graph.toModule settings).outcome = .ok m) :
    List.Forall₂ (graph.outline settings).Bears (graph.declared settings) m.declarations := by
  obtain ⟨found, hf, -, hb, hc⟩ := toModule_eq_ok h
  refine List.rel_append ?_ ?_
  · split at hb
    · next hflat =>
      rw [if_pos hflat, hb]
      exact .nil
    · next hflat =>
      rw [if_neg hflat, ← names_of_builtins hf, List.map_map, List.forall₂_map_left_iff]
      exact (Report.outcome_mapM_eq_ok.1 hb).imp fun _ _ => Outline.bears_of_builtin
  · rw [Entries.keys, List.map_map, List.forall₂_map_left_iff]
    exact (Report.outcome_mapM_eq_ok.1 hc).imp fun _ _ => Outline.bears_of_contentType

theorem constants_declarations (h : (graph.toModule settings).outcome = .ok m) :
    m.declarations.map (·.constant) =
      (graph.declared settings).map fun r =>
        (graph.outline settings).constant r.target r.name := by
  rw [← List.forall₂_eq_eq_eq, List.forall₂_map_left_iff, List.forall₂_map_right_iff]
  exact (bears_declared h).flip.imp fun _ _ hb => hb.constant

theorem types_declarations (h : (graph.toModule settings).outcome = .ok m) :
    m.declarations.map (·.type) =
      (graph.declared settings).map fun r => (graph.outline settings).type r.target r.name := by
  rw [← List.forall₂_eq_eq_eq, List.forall₂_map_left_iff, List.forall₂_map_right_iff]
  exact (bears_declared h).flip.imp fun _ _ hb => hb.type

theorem nodup_constants (hk : (Entries.keys graph.schemas).Nodup)
    (h : (graph.toModule settings).outcome = .ok m) :
    (m.declarations.map (·.constant)).Nodup := by
  rw [constants_declarations h]
  refine (declared_sublist.map _).nodup ?_
  rw [constants_references settings hk]
  exact (made_nameTable settings.naming).constants

theorem nodup_types (hk : (Entries.keys graph.schemas).Nodup)
    (h : (graph.toModule settings).outcome = .ok m) : (m.declarations.map (·.type)).Nodup := by
  rw [types_declarations h]
  refine (declared_sublist.map _).nodup ?_
  rw [types_references settings hk]
  exact (made_nameTable settings.naming).types

end Graph

end ContentSchema
