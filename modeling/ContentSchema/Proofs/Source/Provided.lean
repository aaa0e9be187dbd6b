import ContentSchema.Proofs.Source.Printed
import ContentSchema.Proofs.Source.Scope
import ContentSchema.Proofs.Source.Uses

/-! # Names that a module provides

What occurs in the schema of a node is declared or imported for what the node refers to: a built-in
above all content types, a content type anywhere, as it is looked up late, and the type of rich text
by an import. So every module of an assembled graph finds its names.
-/

namespace ContentSchema

open Source

namespace Graph

variable {graph : Graph} {settings : Settings} {m : Module} {node : Node} {u : Use}
  {earlier : List String}

/-- The name is declared or imported for what the node refers to. -/
inductive Provides (graph : Graph) (settings : Settings) (m : Module) (node : Node) : Use → Prop
  | builtin {name : String} {d : Declaration} (h : name ∈ node.builtinNames) (hd : d ∈ m.builtins)
    (hb : (graph.outline settings).Bears ⟨name, .builtin⟩ d) :
    Provides graph settings m node (.value d.constant)
  | contentType {id : String} {d : Declaration} (h : id ∈ node.contentTypeReferences)
    (hd : d ∈ m.contentTypes) (hb : (graph.outline settings).Bears ⟨id, .contentType⟩ d) :
    Provides graph settings m node (.deferred d.constant)
  | imported {b : Builtin} {type : String} (hb : b ∈ Builtin.all) (h : b.name ∈ node.builtinNames)
    (ht : b.node.tags.cast = some type) (hi : type ∈ m.importedTypes) :
    Provides graph settings m node (.type type)

/-- The declaration of a built-in names nothing but the type that the built-in is cast to. -/
structure DeclaresBuiltin (graph : Graph) (settings : Settings) (m : Module) (b : Builtin)
    (d : Declaration) : Prop where
  bears : (graph.outline settings).Bears ⟨b.name, .builtin⟩ d
  schema : d = .schema d.constant d.type d.body b.node.tags.cast
  body : d.body.uses = []
  imported : ∀ type ∈ b.node.tags.cast, type ∈ m.importedTypes

/-- The declaration of a content type names what its node refers to, and the targets of its links.
Flat, there are no links, and of the names only types are left. -/
structure DeclaresSchema (graph : Graph) (settings : Settings) (m : Module) (e : String × Node)
    (d : Declaration) : Prop where
  bears : (graph.outline settings).Bears ⟨e.1, .contentType⟩ d
  body : ∀ u ∈ d.body.uses, graph.Provides settings m e.2 u
  assertion : d.assertion? = none
  links : d.links = (if settings.flat then [] else e.2.linkedFields).map fun l =>
    (graph.outline settings).linked l.1 l.2
  targets : settings.flat = false → ∀ l ∈ e.2.linkedFields, ∀ id ∈ l.2.targets,
    ∃ t ∈ m.contentTypes, (graph.outline settings).Bears ⟨id, .contentType⟩ t
  flat : settings.flat = true → d.base? = none ∧ ∀ u ∈ d.body.uses, ∃ type, u = .type type

/-- The name stands for something in the declaration `d` of the node, for what the node refers to,
or for the target of a link. -/
inductive Means (graph : Graph) (settings : Settings) (m : Module) (node : Node) (d : Declaration) :
    Use → Prop
  | reference {u : Use} (h : graph.Provides settings m node u) : Means graph settings m node d u
  | base {base : String} (h : d.base? = some base) : Means graph settings m node d (.value base)
  | typeOf : Means graph settings m node d (.typeOf (d.base?.getD d.constant))
  | type (h : d.base?.isSome) : Means graph settings m node d (.type d.type)
  | link {l : String × LinkSet} {id : String} {t : Declaration} (hl : l ∈ node.linkedFields)
    (hid : id ∈ l.2.targets) (ht : t ∈ m.contentTypes)
    (hb : (graph.outline settings).Bears ⟨id, .contentType⟩ t) :
    Means graph settings m node d (.deferred t.constant)
  | linkType {l : String × LinkSet} {id : String} {t : Declaration} (hl : l ∈ node.linkedFields)
    (hid : id ∈ l.2.targets) (ht : t ∈ m.contentTypes)
    (hb : (graph.outline settings).Bears ⟨id, .contentType⟩ t) :
    Means graph settings m node d (.type t.type)

section

variable (hm : (graph.toModule settings).outcome = .ok m)
include hm

theorem exists_mem_builtins (hf : settings.flat = false) {name : String}
    (hn : name ∈ graph.builtinNames) :
    ∃ d ∈ m.builtins, (graph.outline settings).Bears ⟨name, .builtin⟩ d := by
  obtain ⟨found, hfound, -, hb, -⟩ := toModule_eq_ok hm
  rw [hf, if_neg Bool.false_ne_true] at hb
  rw [← names_of_builtins hfound] at hn
  obtain ⟨b, hmem, rfl⟩ := List.mem_map.1 hn
  obtain ⟨d, hd, ho⟩ := Report.exists_mem_of_mapM hb hmem
  exact ⟨d, hd, Outline.bears_of_builtin ho⟩

theorem exists_mem_contentTypes {id : String} (h : id ∈ Entries.keys graph.schemas) :
    ∃ d ∈ m.contentTypes, (graph.outline settings).Bears ⟨id, .contentType⟩ d := by
  obtain ⟨-, -, -, -, hc⟩ := toModule_eq_ok hm
  obtain ⟨e, he, rfl⟩ := List.mem_map.1 h
  obtain ⟨d, hd, ho⟩ := Report.exists_mem_of_mapM hc he
  exact ⟨d, hd, Outline.bears_of_contentType ho⟩

theorem mem_importedTypes {b : Builtin} {type : String} (hb : b ∈ Builtin.all)
    (hn : b.name ∈ graph.builtinNames) (ht : b.node.tags.cast = some type) :
    type ∈ m.importedTypes := by
  rw [importedTypes_eq hm]
  rcases Builtin.mem_all_iff.1 hb with rfl | rfl | rfl | rfl
  · cases ht
  · cases ht
  · cases ht
  · obtain rfl := Option.some.inj ht
    rw [if_pos hn]
    exact List.mem_singleton_self _

theorem provides_of_stands {e : String × Node} (he : e ∈ graph.schemas)
    (h : (graph.outline settings).Stands e.2 u)
    (hf : settings.flat = false ∨ ∃ type, u = .type type) : graph.Provides settings m e.2 u := by
  cases h with
  | @builtin name h =>
    have hf : settings.flat = false := hf.resolve_right (by simp)
    obtain ⟨d, hd, hb⟩ := exists_mem_builtins hm hf (mem_builtinNames.2 ⟨e, he, h⟩)
    have hc : (graph.outline settings).constant .builtin name = d.constant := hb.constant.symm
    rw [hc]
    exact .builtin h hd hb
  | @contentType id h hk =>
    obtain ⟨d, hd, hb⟩ := exists_mem_contentTypes hm hk
    have hc : (graph.outline settings).constant .contentType id = d.constant := hb.constant.symm
    rw [hc]
    exact .contentType h hd hb
  | cast hb h ht =>
    exact .imported hb h ht (mem_importedTypes hm hb (mem_builtinNames.2 ⟨e, he, h⟩) ht)

theorem declaresBuiltin {d : Declaration} (hd : d ∈ m.builtins) :
    ∃ b ∈ Builtin.all, graph.DeclaresBuiltin settings m b d := by
  obtain ⟨found, hfound, -, hb, -⟩ := toModule_eq_ok hm
  split at hb
  · rw [hb] at hd
    cases hd
  · obtain ⟨b, hmem, ho⟩ := Report.exists_of_mem_mapM hb hd
    have hall := mem_all_of_builtins hfound b hmem
    have hbears := Outline.bears_of_builtin ho
    rw [Outline.builtin, bind_pure_comp] at ho
    obtain ⟨body, hbody, rfl⟩ := Report.outcome_map_eq_ok.1 ho
    rw [Node.expr_of_untagged (Node.tags_withTags .empty), Node.body_withTags] at hbody
    refine ⟨b, hall, hbears, rfl, Node.uses_of_body_builtin hall hbody, ?_⟩
    intro type ht
    exact mem_importedTypes hm hall (names_of_builtins hfound ▸ List.mem_map_of_mem hmem) ht

theorem declaresSchema_of_linked (hf : settings.flat = false) {e : String × Node}
    (he : e ∈ graph.schemas) (hg : e.2.Genuine)
    (hn : e.2.linkedFields = [] → e.2.withPlaceholders = e.2)
    (hk : ∀ l ∈ e.2.linkedFields, ∀ id ∈ l.2.targets, id ∈ Entries.keys graph.schemas)
    {d : Declaration} (ho : ((graph.outline settings).contentType e.1 e.2).outcome = .ok d) :
    graph.DeclaresSchema settings m e d := by
  have h := Outline.declared_of_contentType hf hn ho
  refine ⟨Outline.bears_of_contentType ho, ?_, ?_, ?_, ?_, ?_⟩
  · intro u hu
    exact provides_of_stands hm he (Outline.stands_of_expr_withPlaceholders hg h.body hu) (.inl hf)
  · rcases Outline.exists_of_contentType ho with ⟨body, rfl⟩ | ⟨body, links, rfl⟩ <;> rfl
  · rw [hf, if_neg Bool.false_ne_true, h.links]
  · intro _ l hl id hid
    exact exists_mem_contentTypes hm (hk l hl id hid)
  · intro hf'
    exact absurd (hf.symm.trans hf') Bool.false_ne_true

theorem declaresSchema_of_flat (hf : settings.flat = true) {e : String × Node}
    (he : e ∈ graph.schemas) (hg : e.2.Genuine) (hn : ∀ id, id ∉ e.2.contentTypeReferences)
    {d : Declaration} (ho : ((graph.outline settings).contentType e.1 e.2).outcome = .ok d) :
    graph.DeclaresSchema settings m e d := by
  have hbears := Outline.bears_of_contentType ho
  rw [Outline.contentType_of_flat hf] at ho
  obtain ⟨body, hb, rfl⟩ := Report.outcome_map_eq_ok.1 ho
  rw [Node.expr_of_no_references (fun _ => Outline.inlined_builtin) hn] at hb
  have hs (u : Use) (hu : u ∈ body.uses) :
      (graph.outline settings).Stands e.2 u ∧ ∃ type, u = .type type :=
    Outline.stands_of_expr_bare hg hb hu
  refine ⟨hbears, ?_, rfl, ?_, ?_, ?_⟩
  · intro u hu
    exact provides_of_stands hm he (hs u hu).1 (.inr (hs u hu).2)
  · rw [hf, if_pos rfl]
    rfl
  · intro hf'
    exact absurd (hf.symm.trans hf') Bool.noConfusion
  · intro _
    exact ⟨rfl, fun u hu => (hs u hu).2⟩

end

theorem Provides.finds (h : graph.Provides settings m node u)
    (hb : ∀ d ∈ m.builtins, d.constant ∈ earlier) : m.Finds earlier u := by
  cases h with
  | builtin h hd _ => exact hb _ hd
  | contentType h hd _ => exact Module.constant_mem_values (List.mem_append_right _ hd)
  | imported hall h ht hi => exact List.mem_append_left _ hi

theorem DeclaresBuiltin.wellScoped {b : Builtin} {d : Declaration}
    (h : graph.DeclaresBuiltin settings m b d) : d.Scoped m earlier := by
  obtain ⟨-, hd, hbody, hi⟩ := h
  refine ⟨by simp [hbody], ?_, ?_, ?_⟩
  · intro type ht
    rw [hd] at ht
    exact List.mem_append_left _ (hi type ht)
  · rw [hd]
    simp [Declaration.links]
  · rw [hd]
    simp [Declaration.links]

namespace DeclaresSchema

variable {e : String × Node} {d : Declaration}

theorem exists_targets (h : graph.DeclaresSchema settings m e d) {link : LinkField}
    (hl : link ∈ d.links) :
    ∃ l ∈ e.2.linkedFields, link = (graph.outline settings).linked l.1 l.2 ∧
      ∀ id ∈ l.2.targets,
        ∃ t ∈ m.contentTypes, (graph.outline settings).Bears ⟨id, .contentType⟩ t := by
  rw [h.links] at hl
  cases hf : settings.flat with
  | true =>
    rw [hf, if_pos rfl] at hl
    cases hl
  | false =>
    rw [hf, if_neg Bool.false_ne_true] at hl
    obtain ⟨l, hm, rfl⟩ := List.mem_map.1 hl
    exact ⟨l, hm, rfl, h.targets hf l hm⟩

/-- What occurs in the statements of a declaration is what its schema means. -/
theorem means (h : graph.DeclaresSchema settings m e d) {s : Statement} (hs : s ∈ d.statements)
    (hu : u ∈ s.uses) : graph.Means settings m e.2 d u := by
  cases d with
  | schema constant type body assertion =>
    obtain rfl : assertion = none := h.assertion
    simp only [Declaration.statements, List.mem_cons, List.not_mem_nil, or_false] at hs
    rcases hs with rfl | rfl
    · rw [Statement.uses, Option.toList_none, List.map_nil, List.append_nil] at hu
      exact .reference (h.body u hu)
    · obtain rfl := List.mem_singleton.1 hu
      exact .typeOf
  | linked base constant type body links =>
    simp only [Declaration.statements, List.mem_cons, List.not_mem_nil, or_false] at hs
    rcases hs with rfl | rfl | rfl
    · exact .reference (h.body u hu)
    · rcases List.mem_cons.1 hu with rfl | hu
      · exact .typeOf
      · obtain ⟨link, hl, hu⟩ := List.mem_flatMap.1 hu
        obtain ⟨type, hc, rfl⟩ := List.mem_map.1 hu
        obtain ⟨l, hm, rfl, ht⟩ := h.exists_targets hl
        obtain ⟨id, hid, rfl⟩ := List.mem_map.1 hc
        obtain ⟨t, hmem, hb⟩ := ht id hid
        exact hb.type ▸ .linkType hm hid hmem hb
    · rcases List.mem_cons.1 hu with rfl | hu
      · exact .type rfl
      · rcases List.mem_cons.1 hu with rfl | hu
        · exact .base rfl
        · obtain ⟨link, hl, hu⟩ := List.mem_flatMap.1 hu
          rw [LinkField.uses_expr] at hu
          obtain ⟨constant, hc, rfl⟩ := List.mem_map.1 hu
          obtain ⟨l, hm, rfl, ht⟩ := h.exists_targets hl
          obtain ⟨id, hid, rfl⟩ := List.mem_map.1 hc
          obtain ⟨t, hmem, hb⟩ := ht id hid
          exact hb.constant ▸ .link hm hid hmem hb

theorem wellScoped (h : graph.DeclaresSchema settings m e d)
    (hb : ∀ d ∈ m.builtins, d.constant ∈ earlier) : d.Scoped m earlier := by
  refine ⟨fun u hu => (h.body u hu).finds hb, by simp [h.assertion], ?_, ?_⟩
  · intro link hl constant hc
    obtain ⟨l, -, rfl, ht⟩ := h.exists_targets hl
    obtain ⟨id, hid, rfl⟩ := List.mem_map.1 hc
    obtain ⟨t, hmem, hbears⟩ := ht id hid
    have ht := Module.constant_mem_values (List.mem_append_right m.builtins hmem)
    rwa [hbears.constant] at ht
  · intro link hl type hc
    obtain ⟨l, -, rfl, ht⟩ := h.exists_targets hl
    obtain ⟨id, hid, rfl⟩ := List.mem_map.1 hc
    obtain ⟨t, hmem, hbears⟩ := ht id hid
    have ht := Module.type_mem_types (List.mem_append_right m.builtins hmem)
    rwa [hbears.type] at ht

end DeclaresSchema

/-- The names in a module are those of what it declares and imports. -/
structure Resolves (graph : Graph) (settings : Settings) (m : Module) : Prop where
  builtins : ∀ d ∈ m.builtins, ∃ b ∈ Builtin.all, graph.DeclaresBuiltin settings m b d
  contentTypes : List.Forall₂ (graph.DeclaresSchema settings m) graph.schemas m.contentTypes
  flat : settings.flat = true → m.builtins = []

namespace Resolves

variable (h : graph.Resolves settings m)
include h

theorem exists_of_mem_contentTypes {d : Declaration} (hd : d ∈ m.contentTypes) :
    ∃ e ∈ graph.schemas, graph.DeclaresSchema settings m e d :=
  Report.exists_of_mem_right h.contentTypes hd

theorem wellScoped : m.Scoped := by
  rw [Module.Scoped, Module.statements, Module.declarations, List.flatMap_append,
    Module.scopedFrom_append]
  constructor
  · apply Module.scopedFrom_flatMap fun d hd => List.mem_append_left _ hd
    intro d hd
    obtain ⟨b, -, hb⟩ := h.builtins d hd
    exact hb.wellScoped
  · apply Module.scopedFrom_flatMap fun d hd => List.mem_append_right _ hd
    intro d hd
    obtain ⟨e, -, he⟩ := h.exists_of_mem_contentTypes hd
    refine he.wellScoped fun b hb => List.mem_append_right _ ?_
    rw [List.flatMap_assoc]
    refine List.mem_flatMap.2 ⟨b, hb, ?_⟩
    rw [Declaration.values_statements]
    exact List.mem_append_right _ (List.mem_singleton_self _)

/-- What is needed at once is a base or a built-in. -/
theorem value_mem {s : Statement} (hs : s ∈ m.statements) {name : String}
    (hu : .value name ∈ s.uses) : name ∈ m.bases ∨ name ∈ m.builtins.map (·.constant) := by
  obtain ⟨d, hd, hs⟩ := List.mem_flatMap.1 hs
  rcases Declaration.value_of_mem_statements hs hu with hu | hbase
  · right
    rcases List.mem_append.1 hd with hd | hd
    · obtain ⟨b, -, hb⟩ := h.builtins d hd
      rw [hb.body] at hu
      cases hu
    · obtain ⟨e, -, he⟩ := h.exists_of_mem_contentTypes hd
      cases he.body _ hu with
      | builtin _ hd _ => exact List.mem_map_of_mem hd
  · exact .inl (List.mem_filterMap.2 ⟨d, hd, hbase⟩)

theorem use_of_flat (hf : settings.flat = true) {s : Statement} (hs : s ∈ m.statements)
    (hu : u ∈ s.uses) :
    (∃ type, u = .type type) ∨
      ∃ d ∈ m.declarations, s = .inferred d.type d.constant ∧ u = .typeOf d.constant := by
  obtain ⟨d, hd, hs⟩ := List.mem_flatMap.1 hs
  have hd' : d ∈ m.contentTypes := by simpa [Module.declarations, h.flat hf] using hd
  obtain ⟨e, -, he⟩ := h.exists_of_mem_contentTypes hd'
  obtain ⟨hbase, hbody⟩ := he.flat hf
  have hassertion := he.assertion
  cases d with
  | linked => cases hbase
  | schema constant type body assertion =>
    obtain rfl : assertion = none := hassertion
    simp only [Declaration.statements, List.mem_cons, List.not_mem_nil, or_false] at hs
    rcases hs with rfl | rfl
    · left
      rw [Statement.uses, Option.toList_none, List.map_nil, List.append_nil] at hu
      exact hbody u hu
    · exact .inr ⟨_, hd, rfl, List.mem_singleton.1 hu⟩

end Resolves

end Graph

theorem ContentModel.resolves_graph {model : ContentModel} {settings : Settings} {graph : Graph}
    {m : Module} (hg : model.graph settings = .ok graph)
    (hm : (graph.toModule settings).outcome = .ok m) : graph.Resolves settings m := by
  obtain ⟨_, -, -, hb, hc⟩ := Graph.toModule_eq_ok hm
  have hgenuine := genuine_graph hg
  have hall := (List.forall₂_and_left _ _).2 ⟨fun e he => he, Report.outcome_mapM_eq_ok.1 hc⟩
  refine ⟨fun d => Graph.declaresBuiltin hm, hall.imp ?_, ?_⟩
  · rintro e d ⟨he, ho⟩
    cases hf : settings.flat with
    | true =>
      exact Graph.declaresSchema_of_flat hm hf he (hgenuine e he)
        (no_references_flat_graph hf hg e he) ho
    | false =>
      obtain ⟨ct, -, -, hmap⟩ := exists_of_mem_linked_graph hf hg he
      refine Graph.declaresSchema_of_linked hm hf he (hgenuine e he)
        (Node.withPlaceholders_of_mapContentType hmap) ?_ ho
      intro l hl id hid
      obtain ⟨_, _, hlink⟩ := Scope.exists_isLink_of_linkedFields hf hmap hl
      exact (mem_keys_graph hg).2 (hlink.known id hid)
  · intro hf
    rwa [if_pos hf] at hb

/-- No schema is named like an import or like a base. -/
def Source.Module.Apart (m : Module) : Prop :=
  ∀ d ∈ m.declarations, (d.constant ∉ m.importedValues ∧ d.constant ∉ m.bases) ∧
    d.type ∉ m.importedTypes

namespace Graph

variable {graph : Graph} {settings : Settings} {m : Module}

theorem nodup_values_iff_disjoint (hk : (Entries.keys graph.schemas).Nodup)
    (h : (graph.toModule settings).outcome = .ok m) :
    m.values.Nodup ↔
      List.Disjoint m.importedValues m.constants ∧ List.Disjoint m.bases m.constants := by
  have hi : m.importedValues.Nodup := by
    rw [importedValues_eq h]
    exact List.nodup_singleton _
  have hb : List.Disjoint m.importedValues m.bases := by
    rw [importedValues_eq h, List.singleton_disjoint]
    intro hz
    exact absurd (base_prefix_of_mem_bases h hz) (by decide)
  have hc : m.constants.Nodup := nodup_constants hk h
  -- imports, bases and constants are all different among themselves
  rw [m.perm_values.nodup_iff, List.nodup_append', List.nodup_append', List.disjoint_append_right]
  constructor
  · rintro ⟨-, ⟨-, -, hd⟩, -, hz⟩
    exact ⟨hz, hd⟩
  · rintro ⟨hz, hd⟩
    exact ⟨hi, ⟨nodup_bases hk h, hc, hd⟩, hb, hz⟩

theorem nodup_types_iff_disjoint (hk : (Entries.keys graph.schemas).Nodup)
    (h : (graph.toModule settings).outcome = .ok m) :
    m.types.Nodup ↔ List.Disjoint m.importedTypes (m.declarations.map (·.type)) := by
  have hi : m.importedTypes.Nodup := by
    rw [importedTypes_eq h]
    split <;> simp
  rw [m.types_eq, List.nodup_append', and_iff_right hi, and_iff_right (nodup_types hk h)]

/-- Where all schemas are apart from imports and bases, and only there, each name is bound once. -/
theorem nodup_iff_apart (hk : (Entries.keys graph.schemas).Nodup)
    (h : (graph.toModule settings).outcome = .ok m) :
    m.values.Nodup ∧ m.types.Nodup ↔ m.Apart := by
  rw [nodup_values_iff_disjoint hk h, nodup_types_iff_disjoint hk h]
  simp only [Module.constants, List.disjoint_right, List.forall_mem_map, ← forall₂_and,
    Module.Apart]

end Graph

/-- Each name that occurs in a module is bound there, for the very thing that it stands for, and a
value that is needed at once is a base or a built-in, bound further up. It is bound for nothing else
unless a schema is named like an import or like a base; then no constant of a content type is needed
at once. Flat, schemas do not name each other. -/
theorem names_resolved {model : ContentModel} {settings : Settings} {graph : Graph}
    {generated : Generated} (hg : model.graph settings = .ok graph)
    (hp : graph.print settings = .ok generated) :
    ∃ m, (graph.toModule settings).outcome = .ok m ∧
      generated.source =
        Module.paragraphs (m.preamble :: m.statements.map (·.render)) ++ "\n" ∧
      m.Scoped ∧ graph.Resolves settings m ∧
      (∀ e d, (e, d) ∈ graph.schemas.zip m.contentTypes → ∀ s ∈ d.statements, ∀ u ∈ s.uses,
        graph.Means settings m e.2 d u) ∧
      (m.declarations.map (·.constant)).Nodup ∧ (m.declarations.map (·.type)).Nodup ∧
      (∀ s ∈ m.statements, ∀ name, .value name ∈ s.uses →
        name ∈ m.bases ∨
          (name ∈ m.builtins.map (·.constant) ∧ name ∉ m.contentTypes.map (·.constant))) ∧
      (m.values.Nodup ∧ m.types.Nodup ↔ m.Apart) ∧
      (m.Apart → m.values.count "z" = 1 ∧ ∀ s ∈ m.statements, ∀ u ∈ s.uses,
        m.Once u ∧ ∀ d ∈ m.contentTypes, u ≠ .value d.constant) ∧
      (settings.flat = true → ∀ s ∈ m.statements, ∀ u ∈ s.uses,
        (∃ type, u = .type type) ∨
          ∃ d ∈ m.declarations, s = .inferred d.type d.constant ∧ u = .typeOf d.constant) := by
  obtain ⟨m, hm, rfl⟩ := Graph.print_eq_ok_iff.1 hp
  have hk := ContentModel.nodup_keys_graph hg
  have hr := ContentModel.resolves_graph hg hm
  have hconstants := Graph.nodup_constants hk hm
  -- built-ins and content types have different constants, bases aside
  have hvalue : ∀ s ∈ m.statements, ∀ name, .value name ∈ s.uses →
      name ∈ m.bases ∨
        (name ∈ m.builtins.map (·.constant) ∧ name ∉ m.contentTypes.map (·.constant)) := by
    intro s hs name hu
    refine (hr.value_mem hs hu).imp_right fun hb => ⟨hb, ?_⟩
    rw [Module.declarations, List.map_append] at hconstants
    exact List.disjoint_of_nodup_append hconstants hb
  have happart := Graph.nodup_iff_apart hk hm
  refine ⟨m, hm, m.render_eq_paragraphs, hr.wellScoped, hr, ?_, hconstants,
    Graph.nodup_types hk hm, hvalue, happart, ?_, ?_⟩
  · intro e d hed s hs u hu
    exact (List.forall₂_iff_zip.1 hr.contentTypes).2 hed |>.means hs hu
  · intro ha
    obtain ⟨hv, ht⟩ := happart.2 ha
    refine ⟨List.count_eq_one_of_mem hv ?_, ?_⟩
    · rw [Module.values, Graph.importedValues_eq hm]
      exact List.mem_cons_self
    · intro s hs u hu
      refine ⟨hr.wellScoped.once hv ht hs hu, ?_⟩
      rintro d hd rfl
      rcases hvalue s hs _ hu with hb | ⟨-, hn⟩
      · exact (ha d (List.mem_append_right _ hd)).1.2 hb
      · exact hn (List.mem_map_of_mem hd)
  · intro hf s hs u hu
    exact hr.use_of_flat hf hs hu

/-- Pages with rich text that link to each other, and to themselves. -/
def pages : ContentModel :=
  ⟨[linking "page" 0 ["page", "text"],
    ⟨"text", "", none, none, [⟨"body", "", ⟨"RichText", none, []⟩, [], true, false⟩]⟩]⟩

theorem names_resolved_pages :
    ∃ graph generated m, pages.graph linkedSettings = .ok graph ∧
      graph.print linkedSettings = .ok generated ∧
      (graph.toModule linkedSettings).outcome = .ok m ∧ m.Scoped ∧
      graph.Resolves linkedSettings m ∧
      ∀ s ∈ m.statements, ∀ u ∈ s.uses, m.Once u ∧ ∀ d ∈ m.contentTypes, u ≠ .value d.constant := by
  obtain ⟨graph, generated, hg, hp, hn⟩ : ∃ graph generated,
      pages.graph linkedSettings = .ok graph ∧ graph.print linkedSettings = .ok generated ∧
      ∀ m, (graph.toModule linkedSettings).outcome = .ok m → m.values.Nodup ∧ m.types.Nodup := by
    refine ⟨_, _, rfl, rfl, ?_⟩
    intro m hm
    obtain rfl := Except.ok.inj hm
    decide +kernel
  obtain ⟨m, hm, -, hs, hr, -, -, -, -, hi, ha, -⟩ := names_resolved hg hp
  exact ⟨graph, generated, m, hg, hp, hm, hs, hr, (ha (hi.1 (hn m hm))).2⟩

/-- A content type that is named like the validation library, if names get no suffix. -/
def libraries : ContentModel := ⟨[⟨"z", "", none, none, []⟩]⟩

/-- The base of one content type is needed at once under the name of another content type, the type
of rich text is also that of a content type, and so is the name of the validation library. -/
theorem names_bound_for_two :
    (∃ graph m, basePages.graph linkedSettings = .ok graph ∧
      (graph.toModule linkedSettings).outcome = .ok m ∧
      (∃ s ∈ m.statements, .value "_basePageSchema" ∈ s.uses) ∧
      "_basePageSchema" ∈ m.contentTypes.map (·.constant) ∧
      m.values.count "_basePageSchema" = 2) ∧
    (∃ graph m, documents.graph linkedSettings = .ok graph ∧
      (graph.toModule linkedSettings).outcome = .ok m ∧
      (∃ s ∈ m.statements, .type "Document" ∈ s.uses) ∧ m.types.count "Document" = 2) ∧
    ∃ graph m, libraries.graph { linkedSettings with naming.schemaSuffix := "" } = .ok graph ∧
      (graph.toModule { linkedSettings with naming.schemaSuffix := "" }).outcome = .ok m ∧
      m.values = ["z", "z"] := by
  refine ⟨⟨_, _, rfl, rfl, ?_, ?_, ?_⟩, ⟨_, _, rfl, rfl, ?_, ?_⟩, ⟨_, _, rfl, rfl, ?_⟩⟩
  all_goals decide +kernel

end ContentSchema
