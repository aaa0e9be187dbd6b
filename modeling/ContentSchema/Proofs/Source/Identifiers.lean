import ContentSchema.Proofs.Naming.Standard
import ContentSchema.Proofs.Source.Names

/-! # Identifiers of a module

By the standard rules, the values that a module binds are distinct unless a base is named like a
constant, and the types unless a content type is named like the type that is imported.
-/

namespace ContentSchema

open Source

namespace Source

theorem Declaration.values_statements (d : Declaration) :
    d.statements.flatMap (·.values) = d.base?.toList ++ [d.constant] := by
  cases d <;> rfl

theorem Declaration.types_statements (d : Declaration) :
    d.statements.flatMap (·.types) = [d.type] := by
  cases d <;> rfl

namespace Module

variable {m : Module}

def bases (m : Module) : List String := m.declarations.filterMap (·.base?)

def constants (m : Module) : List String := m.declarations.map (·.constant)

theorem perm_values (m : Module) :
    m.values.Perm (m.importedValues ++ (m.bases ++ m.constants)) := by
  have hs : m.statements.flatMap (·.values) =
      m.declarations.flatMap fun d => d.base?.toList ++ [d.constant] := by
    simp only [statements, List.flatMap_assoc, Declaration.values_statements]
  have hb : m.bases = m.declarations.flatMap (·.base?.toList) := by
    rw [bases, List.filterMap_eq_flatMap_toList]
  have hc : m.constants = m.declarations.flatMap fun d => [d.constant] := by
    rw [constants, List.map_eq_flatMap]
  rw [values, hs, hb, hc]
  exact (List.flatMap_append_perm _ _ _).symm.append_left _

theorem types_eq (m : Module) : m.types = m.importedTypes ++ m.declarations.map (·.type) := by
  simp only [types, statements, List.flatMap_assoc, Declaration.types_statements,
    List.map_eq_flatMap]

end Module

end Source

theorem eraseDups_cons_of_eq {α : Type} [BEq α] [LawfulBEq α] {a b : α} {as : List α} (hb : b ≠ a)
    (h : ∀ c ∈ as, c = b) : (a :: as).eraseDups = if as = [] then [a] else [a, b] := by
  have hf {c : α} {cs : List α} (hc : ∀ x ∈ cs, x = c) : cs.filter (!· == c) = [] := by
    rw [List.filter_eq_nil_iff]
    intro x hx
    simp [hc x hx]
  cases as with
  | nil => simp [List.eraseDups_cons]
  | cons c rest =>
    obtain rfl := h c List.mem_cons_self
    have hk : (c :: rest).filter (!· == a) = c :: rest := by
      rw [List.filter_eq_self]
      intro x hx
      simp [h x hx, hb]
    rw [List.eraseDups_cons, hk, List.eraseDups_cons,
      hf fun x hx => h x (List.mem_cons_of_mem _ hx)]
    simp

theorem sublist_map_of_filterMap {α β : Type} {f : α → Option β} {g : α → β} {as : List α}
    (h : ∀ a ∈ as, ∀ b ∈ f a, b = g a) : (as.filterMap f).Sublist (as.map g) := by
  induction as with
  | nil => exact List.Sublist.slnil
  | cons a rest ih =>
    rw [List.forall_mem_cons] at h
    cases hf : f a with
    | none =>
      rw [List.filterMap_cons_none hf]
      exact (ih h.2).cons _
    | some b =>
      rw [List.filterMap_cons_some hf, h.1 b hf]
      exact (ih h.2).cons_cons _

namespace Graph

variable {graph : Graph} {settings : Settings} {m : Module}

def documentImport : String :=
  "import type \x7b Document \x7d from \"@contentful/rich-text-types\";"

theorem typeImport_of_mem_all {b : Builtin} (h : b ∈ Builtin.all) :
    b.typeImport = if b.name = Builtin.richText.name then some documentImport else none := by
  rcases Builtin.mem_all_iff.1 h with rfl | rfl | rfl | rfl <;> decide

theorem imports_eq (h : (graph.toModule settings).outcome = .ok m) :
    m.imports =
      if Builtin.richText.name ∈ graph.builtinNames then [zodImport, documentImport]
      else [zodImport] := by
  obtain ⟨found, hf, hi, -⟩ := toModule_eq_ok h
  have ht (b : Builtin) (hb : b ∈ found) := typeImport_of_mem_all (mem_all_of_builtins hf b hb)
  have hall : ∀ line ∈ found.filterMap (·.typeImport), line = documentImport := by
    intro line hl
    obtain ⟨b, hb, hline⟩ := List.mem_filterMap.1 hl
    rw [ht b hb] at hline
    split at hline
    · exact (Option.some.inj hline).symm
    · cases hline
  have hnil : found.filterMap (·.typeImport) = [] ↔
      Builtin.richText.name ∉ graph.builtinNames := by
    rw [List.filterMap_eq_nil_iff, ← names_of_builtins hf, List.mem_map]
    constructor
    · rintro hn ⟨b, hb, hname⟩
      have hb' := hn b hb
      rw [ht b hb, if_pos hname] at hb'
      cases hb'
    · intro hn b hb
      rw [ht b hb, if_neg fun hname => hn ⟨b, hb, hname⟩]
  rw [hi, eraseDups_cons_of_eq (by decide) hall]
  by_cases hr : Builtin.richText.name ∈ graph.builtinNames
  · rw [if_pos hr, if_neg (mt hnil.1 (not_not.2 hr))]
  · rw [if_neg hr, if_pos (hnil.2 hr)]

theorem importedValues_eq (h : (graph.toModule settings).outcome = .ok m) :
    m.importedValues = ["z"] := by
  rw [Module.importedValues, imports_eq h]
  split <;> decide

theorem importedTypes_eq (h : (graph.toModule settings).outcome = .ok m) :
    m.importedTypes =
      if Builtin.richText.name ∈ graph.builtinNames then ["Document"] else [] := by
  rw [Module.importedTypes, imports_eq h]
  split <;> decide

theorem exists_of_mem_builtinNames (h : (graph.toModule settings).outcome = .ok m) {name : String}
    (hn : name ∈ graph.builtinNames) : ∃ b ∈ Builtin.all, b.name = name := by
  obtain ⟨found, hf, -⟩ := toModule_eq_ok h
  rw [← names_of_builtins hf] at hn
  obtain ⟨b, hb, rfl⟩ := List.mem_map.1 hn
  exact ⟨b, mem_all_of_builtins hf b hb, rfl⟩

theorem exists_of_mem_declarations (h : (graph.toModule settings).outcome = .ok m)
    {d : Declaration} (hd : d ∈ m.declarations) :
    ∃ r ∈ graph.references, r ∈ graph.declared settings ∧ (graph.outline settings).Bears r d := by
  obtain ⟨r, hr, hb⟩ := Report.exists_of_mem_right (bears_declared h) hd
  exact ⟨r, declared_sublist.subset hr, hr, hb⟩

theorem mem_declared_contentType {id : String} (h : id ∈ Entries.keys graph.schemas) :
    ⟨id, .contentType⟩ ∈ graph.declared settings :=
  List.mem_append_right _ (List.mem_map_of_mem h)

theorem mem_references_iff {r : NamedReference} :
    r ∈ graph.references ↔
      (r.target = .builtin ∧ r.name ∈ graph.builtinNames) ∨
        (r.target = .contentType ∧ r.name ∈ Entries.keys graph.schemas) := by
  obtain ⟨name, target⟩ := r
  simp [references, and_comm, eq_comm]

theorem nodup_bases (hk : (Entries.keys graph.schemas).Nodup)
    (h : (graph.toModule settings).outcome = .ok m) : m.bases.Nodup := by
  have hs : m.bases.Sublist (m.declarations.map fun d => "_base" ++ d.type) := by
    refine sublist_map_of_filterMap fun d hd base hbase => ?_
    obtain ⟨r, -, -, hr⟩ := exists_of_mem_declarations h hd
    exact hr.base base hbase
  have hi : Function.Injective ("_base" ++ · : String → String) :=
    fun _ _ => (String.append_right_inj "_base").1
  have hn := (nodup_types hk h).map hi
  rw [List.map_map] at hn
  exact hs.nodup hn

theorem base_prefix_of_mem_bases (h : (graph.toModule settings).outcome = .ok m) {base : String}
    (hb : base ∈ m.bases) : "_base".toList <+: base.toList := by
  obtain ⟨d, hd, hbase⟩ := List.mem_filterMap.1 hb
  obtain ⟨r, -, -, hr⟩ := exists_of_mem_declarations h hd
  rw [hr.base base hbase, String.toList_append]
  exact List.prefix_append _ _

section

variable (hn : settings.naming = .standard) (hk : (Entries.keys graph.schemas).Nodup)
  (h : (graph.toModule settings).outcome = .ok m)
include hn hk h

theorem numbered_of_mem_constants {name : String} (hm : name ∈ m.constants) :
    ∃ r ∈ graph.references, name = (graph.outline settings).constant r.target r.name ∧
      Numbered (Naming.standard.schemaName r.name) name := by
  obtain ⟨d, hd, rfl⟩ := List.mem_map.1 hm
  obtain ⟨r, hr, -, hb⟩ := exists_of_mem_declarations h hd
  refine ⟨r, hr, hb.constant, ?_⟩
  rw [hb.constant, ← hn]
  exact numbered_constant settings hk hr

theorem disjoint_importedValues : List.Disjoint m.importedValues (m.bases ++ m.constants) := by
  rw [importedValues_eq h, List.singleton_disjoint, List.mem_append, not_or]
  constructor
  · intro hm
    exact absurd (base_prefix_of_mem_bases h hm) (by decide)
  · intro hm
    obtain ⟨r, -, -, hr⟩ := numbered_of_mem_constants hn hk h hm
    exact absurd (Naming.length_lt_of_numbered hr) (by decide)

/-- Only the constant of a content type may be named like a base. -/
theorem disjoint_bases_iff :
    List.Disjoint m.bases m.constants ↔
      ∀ base ∈ m.bases, ∀ id ∈ Entries.keys graph.schemas,
        (graph.outline settings).constant .contentType id ≠ base := by
  constructor
  · rintro hd base hb id hid rfl
    refine hd hb ?_
    rw [Module.constants, constants_declarations h]
    exact List.mem_map.2 ⟨_, mem_declared_contentType hid, rfl⟩
  · intro hne base hb hc
    obtain ⟨r, hr, rfl, hnum⟩ := numbered_of_mem_constants hn hk h hc
    rcases mem_references_iff.1 hr with ⟨-, hname⟩ | ⟨ht, hid⟩
    · obtain ⟨b, hall, he⟩ := exists_of_mem_builtinNames h hname
      refine Naming.not_base_prefix_builtin hall ?_
      rw [he]
      exact Naming.base_prefix_of_numbered hnum (base_prefix_of_mem_bases h hb)
    · rw [ht] at hb
      exact hne _ hb _ hid rfl

theorem nodup_values_iff :
    m.values.Nodup ↔ ∀ base ∈ m.bases, ∀ id ∈ Entries.keys graph.schemas,
      (graph.outline settings).constant .contentType id ≠ base := by
  have hi : m.importedValues.Nodup := by
    rw [importedValues_eq h]
    exact List.nodup_singleton _
  have hc : m.constants.Nodup := nodup_constants hk h
  rw [m.perm_values.nodup_iff, List.nodup_append', List.nodup_append',
    ← disjoint_bases_iff hn hk h]
  constructor
  · rintro ⟨-, ⟨-, -, hd⟩, -⟩
    exact hd
  · intro hd
    exact ⟨hi, ⟨nodup_bases hk h, hc, hd⟩, disjoint_importedValues hn hk h⟩

theorem typeName_of_type_eq {r : NamedReference} (hr : r ∈ graph.references)
    (ht : (graph.outline settings).type r.target r.name = "Document") :
    r.target = .contentType ∧ r.name ∈ Entries.keys graph.schemas ∧
      Naming.standard.typeName r.name = "Document" := by
  have hnum := numbered_type settings hk hr
  rw [hn, ht] at hnum
  have he := (hnum.eq_of_not_isDigit rfl).symm
  rcases mem_references_iff.1 hr with ⟨-, hname⟩ | ⟨htarget, hid⟩
  · obtain ⟨b, hall, hb⟩ := exists_of_mem_builtinNames h hname
    rw [← hb] at he
    exact absurd he (Naming.typeName_builtin_ne_document hall)
  · exact ⟨htarget, hid, he⟩

/-- Only a content type may have the type of rich text for its type. -/
theorem document_mem_types_iff :
    "Document" ∈ m.declarations.map (·.type) ↔
      ∃ id ∈ Entries.keys graph.schemas, Naming.standard.typeName id = "Document" := by
  rw [types_declarations h, List.mem_map]
  constructor
  · rintro ⟨r, hr, ht⟩
    obtain ⟨-, hid, he⟩ := typeName_of_type_eq hn hk h (declared_sublist.subset hr) ht
    exact ⟨r.name, hid, he⟩
  · rintro ⟨id, hid, he⟩
    -- another content type may have taken the type first, but some content type has it
    have hmem : ⟨id, .contentType⟩ ∈ graph.references := mem_references_iff.2 (.inr ⟨rfl, hid⟩)
    obtain ⟨r, hr, ht⟩ := exists_type_eq settings hk hmem
    rw [hn, he] at ht
    obtain ⟨htarget, hname, -⟩ := typeName_of_type_eq hn hk h hr ht
    obtain ⟨name, target⟩ := r
    obtain rfl : target = .contentType := htarget
    exact ⟨_, mem_declared_contentType hname, ht⟩

theorem nodup_types_iff :
    m.types.Nodup ↔ ("Document" ∈ m.importedTypes →
      ∀ id ∈ Entries.keys graph.schemas, Naming.standard.typeName id ≠ "Document") := by
  have hd := document_mem_types_iff hn hk h
  rw [m.types_eq, importedTypes_eq h]
  split
  · rw [List.singleton_append, List.nodup_cons, hd, and_iff_left (nodup_types hk h)]
    simp
  · simp [nodup_types hk h]

end

end Graph

/-- By the standard rules, no identifier is declared twice but in two cases: where a base is named
like the constant of a content type, for which the id of that begins like a base, and where a
content type has the name of the type that is imported for rich text. -/
theorem identifiers_distinct_iff {model : ContentModel} {settings : Settings} {graph : Graph}
    {generated : Generated} (hn : settings.naming = .standard)
    (hg : model.graph settings = .ok graph) (hp : graph.print settings = .ok generated) :
    ∃ m, (graph.toModule settings).outcome = .ok m ∧
      generated.source =
        Module.paragraphs (m.preamble :: m.statements.map (·.render)) ++ "\n" ∧
      (m.values.Nodup ↔ ∀ base ∈ m.bases, ∀ id ∈ model.ids,
        (graph.outline settings).constant .contentType id ≠ base) ∧
      ((∀ id ∈ model.ids, ¬ "_base".toList <+: id.toList) → m.values.Nodup) ∧
      (m.types.Nodup ↔ ("Document" ∈ m.importedTypes →
        ∀ id ∈ model.ids, Naming.standard.typeName id ≠ "Document")) := by
  obtain ⟨m, hm, rfl⟩ := Graph.print_eq_ok_iff.1 hp
  have hk := ContentModel.nodup_keys_graph hg
  have hids {p : String → Prop} :
      (∀ id ∈ Entries.keys graph.schemas, p id) ↔ ∀ id ∈ model.ids, p id := by
    simp only [ContentModel.mem_keys_graph hg]
  have hvalues := Graph.nodup_values_iff hn hk hm
  refine ⟨m, hm, m.render_eq_paragraphs, ?_, ?_, ?_⟩
  · simpa only [hids] using hvalues
  · intro hb
    rw [hvalues]
    rintro base hbase id hid rfl
    have hr : ⟨id, .contentType⟩ ∈ graph.references :=
      Graph.mem_references_iff.2 (.inr ⟨rfl, hid⟩)
    have hnum := Graph.numbered_constant settings hk hr
    rw [hn] at hnum
    exact hids.2 hb id hid
      (Naming.base_prefix_of_numbered hnum (Graph.base_prefix_of_mem_bases hm hbase))
  · simpa only [hids] using Graph.nodup_types_iff hn hk hm

theorem identifiers_distinct_linking :
    ∃ graph generated m, linkedSettings.naming = .standard ∧
      (⟨[linking "a" 1 ["b"], linking "b" 0 ["a"]]⟩ : ContentModel).graph linkedSettings =
        .ok graph ∧
      graph.print linkedSettings = .ok generated ∧
      (graph.toModule linkedSettings).outcome = .ok m ∧ m.values.Nodup ∧ m.types.Nodup := by
  obtain ⟨graph, generated, hg, hp⟩ : ∃ graph generated,
      (⟨[linking "a" 1 ["b"], linking "b" 0 ["a"]]⟩ : ContentModel).graph linkedSettings =
        .ok graph ∧ graph.print linkedSettings = .ok generated := ⟨_, _, rfl, rfl⟩
  obtain ⟨m, hm, -, -, hv, ht⟩ := identifiers_distinct_iff rfl hg hp
  refine ⟨graph, generated, m, rfl, hg, hp, hm, hv (by decide), ht.2 fun _ => ?_⟩
  decide +kernel

/-- A content type with rich text that is named like the type of rich text. -/
def documents : ContentModel :=
  ⟨[⟨"document", "", none, none, [⟨"body", "", ⟨"RichText", none, []⟩, [], true, false⟩]⟩]⟩

/-- A content type whose base is named like the constant of another. -/
def basePages : ContentModel :=
  ⟨[⟨"_basePage", "", none, none, []⟩, linking "pageSchema" 0 ["_basePage"]]⟩

theorem identifiers_declared_twice :
    (∃ graph m, documents.graph linkedSettings = .ok graph ∧
      (graph.toModule linkedSettings).outcome = .ok m ∧
      m.types = ["Document", "ContentfulRichText", "Document"] ∧ ¬ m.types.Nodup) ∧
    ∃ graph m, basePages.graph linkedSettings = .ok graph ∧
      (graph.toModule linkedSettings).outcome = .ok m ∧
      m.values = ["z", "_basePageSchema", "_basePageSchema", "pageSchemaSchema"] ∧
      ¬ m.values.Nodup := by
  have ht : ∃ graph m, documents.graph linkedSettings = .ok graph ∧
      (graph.toModule linkedSettings).outcome = .ok m ∧
      m.types = ["Document", "ContentfulRichText", "Document"] :=
    ⟨_, _, rfl, rfl, by decide +kernel⟩
  have hv : ∃ graph m, basePages.graph linkedSettings = .ok graph ∧
      (graph.toModule linkedSettings).outcome = .ok m ∧
      m.values = ["z", "_basePageSchema", "_basePageSchema", "pageSchemaSchema"] :=
    ⟨_, _, rfl, rfl, by decide +kernel⟩
  constructor
  · obtain ⟨graph, m, hg, hm, ht⟩ := ht
    refine ⟨graph, m, hg, hm, ht, ?_⟩
    rw [ht]
    decide
  · obtain ⟨graph, m, hg, hm, hv⟩ := hv
    refine ⟨graph, m, hg, hm, hv, ?_⟩
    rw [hv]
    decide

end ContentSchema
