import ContentSchema.Proofs.Source.Provided
import ContentSchema.Proofs.Source.References
import ContentSchema.Proofs.Source.Silent
import ContentSchema.Proofs.Validator.Degraded

/-! # References without a schema

Linked, a reference to a content type without a schema is written as one that lets everything pass,
and a warning names it. The links that a field is declared again with are not looked at in this way:
what has no schema is named there all the same.
-/

namespace ContentSchema

open Source

namespace Report

variable {α β : Type}

theorem outcome_mapM_congr {f g : α → Report β} {as : List α}
    (h : ∀ a ∈ as, (f a).outcome = (g a).outcome) :
    (as.mapM f).outcome = (as.mapM g).outcome := by
  induction as with
  | nil => rfl
  | cons a rest ih =>
    rw [List.forall_mem_cons] at h
    simp only [List.mapM_cons, outcome_bind, outcome_pure, h.1, ih h.2]

end Report

namespace Node

variable {follow : Follow} {known : List String} {node : Node} {name : String}

theorem outcome_body_degradedChildren
    (h : ∀ child ∈ node.children,
      ((child.degraded known).expr follow).outcome = (child.expr follow).outcome) :
    ((node.degradedChildren known).body follow).outcome = (node.body follow).outcome := by
  cases node with
  | primitive p tags => rfl
  | object shape policy tags =>
    simp only [body, degradedChildren, shapeExprs_eq_mapM, degradedShape_eq_map, List.mapM_map,
      Report.outcome_map]
    refine congrArg _ (Report.outcome_mapM_congr fun e he => ?_)
    simp only [Function.comp_apply, Report.outcome_map, h e.2 (List.mem_map_of_mem he)]
  | array element tags =>
    simp only [body, degradedChildren, Report.outcome_map, h element List.mem_cons_self]
  | optional inner tags =>
    simp only [body, degradedChildren, Report.outcome_map, h inner List.mem_cons_self]
  | union branches tags =>
    have hm : (branches.mapM (expr follow ∘ degraded known)).outcome =
        (branches.mapM (expr follow)).outcome := Report.outcome_mapM_congr h
    simp only [body, degradedChildren, branchExprs_eq_mapM, degradedBranches_eq_map, List.mapM_map,
      List.length_map]
    split
    · rfl
    · rw [Report.outcome_map, Report.outcome_map, hm]
  | unknown tags => rfl

theorem stopAtBuiltin_subset (tags : Tags) {inner inner' : List String} (h : inner ⊆ inner') :
    stopAtBuiltin tags inner ⊆ stopAtBuiltin tags inner' := by
  unfold stopAtBuiltin
  split
  · exact List.Subset.refl _
  · exact h

theorem builtinNames_map_subset {shape : List (String × Node)} {policy : ObjectPolicy} {tags : Tags}
    {f : String × Node → String × Node}
    (hf : ∀ e ∈ shape, (f e).2.builtinNames ⊆ e.2.builtinNames) :
    (object (shape.map f) policy tags).builtinNames ⊆ (object shape policy tags).builtinNames := by
  rw [builtinNames_eq, builtinNames_eq]
  refine stopAtBuiltin_subset tags fun name h => ?_
  simp only [children, List.map_map, List.flatMap_map, List.mem_flatMap] at h ⊢
  obtain ⟨e, he, h⟩ := h
  exact ⟨e, he, hf e he h⟩

theorem builtinNames_withPlaceholders_subset (node : Node) :
    node.withPlaceholders.builtinNames ⊆ node.builtinNames := by
  have hp (field : Node) : field.placeholder.builtinNames ⊆ field.builtinNames := by
    unfold placeholder
    split
    · exact List.nil_subset _
    · exact List.Subset.refl _
  cases node with
  | object shape policy tags =>
    refine builtinNames_map_subset fun e _ => ?_
    split
    · exact builtinNames_map_subset fun field _ => hp field.2
    · exact List.Subset.refl _
  | _ => exact List.Subset.refl _

/-- What is declared of a node before any links are added to it. -/
def opened (node : Node) : Node :=
  if node.linkedFields.isEmpty then node else node.withPlaceholders

theorem builtinNames_opened_subset (node : Node) :
    node.opened.builtinNames ⊆ node.builtinNames := by
  unfold opened
  split
  · exact List.Subset.refl _
  · exact node.builtinNames_withPlaceholders_subset

end Node

namespace Outline

variable {o : Outline} {id : String} {node : Node} {e : Expr} {u : Use}

theorem isSome_byName (o : Outline) (r : NamedReference) : (o.byName r).isSome = true := by
  obtain ⟨report, h⟩ := o.exists_byName r
  rw [h, Option.isSome_some]

theorem outcome_expr_degraded (node : Node) :
    ((node.degraded (Entries.keys o.schemas)).expr o.byName).outcome =
      (node.expr o.byName).outcome := by
  induction node using Node.induct with
  | step node ih =>
    cases hr : node.tags.reference with
    | some r =>
      obtain ⟨report, hf⟩ := o.exists_byName r
      cases hd : r.dangles (Entries.keys o.schemas) with
      | true =>
        obtain ⟨name, target⟩ := r
        obtain ⟨rfl, hn⟩ := NamedReference.dangles_iff.1 hd
        rw [← Entries.lookup_eq_none_iff] at hn
        rw [Node.degraded_of_dangles hr hd, Node.expr_of_followed hr rfl, hn]
        rfl
      | false =>
        have hn : ∀ r', node.tags.reference = some r' →
            r'.dangles (Entries.keys o.schemas) = false := by
          rintro r' hr'
          rwa [← Option.some.inj (hr.symm.trans hr')]
        have hr' : (node.degradedChildren (Entries.keys o.schemas)).tags.reference = some r := by
          rwa [Node.tags_degradedChildren]
        rw [Node.degraded_of_not_dangles hn, Node.expr_of_followed hr hf,
          Node.expr_of_followed hr' hf]
    | none =>
      rw [Node.degraded_of_not_dangles (by simp [hr]), Node.expr_of_not_followed (by simp [hr]),
        Node.expr_of_not_followed (by simp [hr]), Node.tags_degradedChildren, Report.outcome_map,
        Report.outcome_map, Node.outcome_body_degradedChildren ih]

theorem warnings_byName (r : NamedReference) :
    (o.byName r).elim [] (·.warnings) =
      if r.dangles (Entries.keys o.schemas) then [.danglingReference r.name] else [] := by
  obtain ⟨name, _ | _⟩ := r
  · rw [byName, Option.elim_some]
    split <;> rfl
  · rw [byName, Option.elim_some]
    by_cases h : name ∈ Entries.keys o.schemas
    · rw [if_pos (Entries.lookup_isSome_iff.2 h), if_neg fun hd => (NamedReference.dangles_iff.1 hd).2 h]
      rfl
    · rw [if_neg (mt Entries.lookup_isSome_iff.1 h), if_pos (NamedReference.dangles_iff.2 ⟨rfl, h⟩)]
      rfl

/-- There is a warning for each dangling reference, and for nothing else. -/
theorem warnings_expr_byName_eq (h : (node.expr o.byName).outcome = .ok e) :
    (node.expr o.byName).warnings =
      (node.dangling (Entries.keys o.schemas)).map .danglingReference := by
  rw [Node.warnings_expr_eq o.isSome_byName h, Node.dangling]
  simp only [warnings_byName]
  induction (node.outermost fun _ => true) with
  | nil => rfl
  | cons r rest ih =>
    rw [List.flatMap_cons, ih]
    cases hd : r.dangles (Entries.keys o.schemas) <;> simp [hd]

/-- A node is written like its degraded form, which is written without a warning. -/
theorem expr_degraded (h : (node.expr o.byName).outcome = .ok e) :
    (node.degraded (Entries.keys o.schemas)).expr o.byName = Report.ok e := by
  have ho := (outcome_expr_degraded node).trans h
  have hw := warnings_expr_byName_eq ho
  rw [Node.dangling, Node.outermost_degraded, List.filter_filter] at hw
  generalize (node.degraded (Entries.keys o.schemas)).expr o.byName = report at ho hw
  obtain ⟨warnings, outcome⟩ := report
  simp only at ho hw
  rw [Report.ok, ho, hw]
  simp

/-- What may be named where a node is written out: built-ins, content types that have a schema, and
types that nodes are cast to. -/
inductive Names (o : Outline) (node : Node) : Use → Prop
  | builtin {name : String} (h : name ∈ node.builtinNames) :
    Names o node (.value (o.constant .builtin name))
  | contentType {id : String} (h : id ∈ Entries.keys o.schemas) :
    Names o node (.deferred (o.constant .contentType id))
  | cast {n : Node} {type : String} (h : n ∈ node.walk) (ht : n.tags.cast = some type) :
    Names o node (.type type)

theorem Names.of_child {child : Node} (h : o.Names child u) (hc : child ∈ node.children)
    (hr : node.tags.reference = none) : o.Names node u := by
  cases h with
  | builtin h =>
    refine .builtin ?_
    rw [Node.builtinNames_of_not_builtin (by simp [hr])]
    exact List.mem_flatMap.2 ⟨child, hc, h⟩
  | contentType h => exact .contentType h
  | cast h ht =>
    refine .cast ?_ ht
    rw [Node.walk_eq]
    exact List.mem_cons_of_mem _ (List.mem_flatMap.2 ⟨child, hc, h⟩)

theorem names_of_mem_uses (h : (node.expr o.byName).outcome = .ok e) (hu : u ∈ e.uses) :
    o.Names node u := by
  induction node using Node.induct generalizing e with
  | step node ih =>
    cases hr : node.tags.reference with
    | some r =>
      obtain ⟨name, _ | _⟩ := r
      · rw [Node.expr_of_followed hr rfl] at h
        split at h
        · obtain rfl := Except.ok.inj h
          obtain rfl := List.mem_singleton.1 hu
          exact .builtin (builtinNames_of_reference hr ▸ List.mem_singleton_self name)
        · cases h
      · rw [Node.expr_of_followed hr rfl] at h
        split at h
        · next hk =>
          obtain rfl := Except.ok.inj h
          obtain rfl := List.mem_singleton.1 hu
          exact .contentType (Entries.lookup_isSome_iff.1 hk)
        · obtain rfl := Except.ok.inj h
          cases hu
    | none =>
      rw [Node.expr_of_not_followed (by simp [hr])] at h
      obtain ⟨b, hbody, rfl⟩ := Report.outcome_map_eq_ok.1 h
      have hinner (hu : u ∈ b.uses) : o.Names node u := by
        obtain ⟨child, hm, e, he, hu⟩ := Node.exists_child_of_mem_uses hbody hu
        exact (ih child hm he hu).of_child hm hr
      cases hcast : node.tags.cast with
      | none => exact hinner (by simpa only [hcast, Node.withType] using hu)
      | some type =>
        rw [hcast, Node.withType, Expr.uses, List.mem_append, List.mem_singleton] at hu
        rcases hu with hu | rfl
        · exact hinner hu
        · exact .cast (Node.walk_eq node ▸ List.mem_cons_self) hcast

theorem contentType_of_linked (hf : o.settings.flat = false) (id : String) (node : Node) :
    o.contentType id node = (do
      let body ← node.opened.expr o.byName
      let links ← node.linkedFields.mapM fun l => o.linkField l.1 l.2
      return if node.linkedFields.isEmpty then
          .schema (o.constant .contentType id) (o.type .contentType id) body none
        else .linked ("_base" ++ o.type .contentType id) (o.constant .contentType id)
          (o.type .contentType id) body links) := by
  have hfollow : o.follow id = o.byName := by simp [follow, hf]
  simp only [contentType, hf, Bool.false_eq_true, if_false, hfollow, Node.opened]
  cases hl : node.linkedFields <;> simp

theorem declared_of_linked {d : Declaration} (hf : o.settings.flat = false)
    (h : (o.contentType id node).outcome = .ok d) :
    (node.opened.expr o.byName).outcome = .ok d.body ∧
      d.links = (node.linkedFields.map fun l => o.linked l.1 l.2) ∧
      (o.contentType id node).warnings = (node.opened.expr o.byName).warnings := by
  rw [contentType_of_linked hf] at h ⊢
  obtain ⟨body, hb, h⟩ := Report.outcome_bind_eq_ok.1 h
  rw [bind_pure_comp] at h
  obtain ⟨links, hls, hd⟩ := Report.outcome_map_eq_ok.1 h
  have hlinks : links = node.linkedFields.map fun l => o.linked l.1 l.2 := by
    rw [← List.map_id links]
    exact Report.map_eq_of_mapM (fun l _ link hlink => linkField_eq_ok hlink) hls
  have hbody : d.body = body ∧ d.links = links := by
    subst hd hlinks
    split
    · next he =>
      rw [List.isEmpty_iff.1 he]
      exact ⟨rfl, rfl⟩
    · exact ⟨rfl, rfl⟩
  refine ⟨hbody.1 ▸ hb, hbody.2 ▸ hlinks, ?_⟩
  rw [Report.warnings_bind_of_ok hb, bind_pure_comp, Report.warnings_map,
    Report.warnings_mapM_eq_nil fun l _ => warnings_linkField l.1 l.2, List.append_nil]

end Outline

namespace Graph

variable {graph : Graph} {settings : Settings} {m : Module}

/-- What is left open of a schema is declared as if it let everything pass where it refers to what
has no schema, and names only what is declared, apart from types. The links are added by name. -/
structure DeclaresOpened (graph : Graph) (settings : Settings) (m : Module) (e : String × Node)
    (d : Declaration) : Prop where
  bears : (graph.outline settings).Bears ⟨e.1, .contentType⟩ d
  body : (e.2.opened.degraded (Entries.keys graph.schemas)).expr (graph.outline settings).byName =
    Report.ok d.body
  uses : ∀ u ∈ d.body.uses, (∃ b ∈ m.builtins, u = .value b.constant) ∨
    (∃ t ∈ m.contentTypes, u = .deferred t.constant) ∨
    ∃ n ∈ e.2.opened.walk, ∃ type, n.tags.cast = some type ∧ u = .type type
  links : d.links = e.2.linkedFields.map fun l => (graph.outline settings).linked l.1 l.2

section

variable (hf : settings.flat = false) (hm : (graph.toModule settings).outcome = .ok m)
include hf hm

theorem declaresOpened {e : String × Node} (he : e ∈ graph.schemas) {d : Declaration}
    (h : ((graph.outline settings).contentType e.1 e.2).outcome = .ok d) :
    graph.DeclaresOpened settings m e d := by
  obtain ⟨hb, hl, -⟩ := Outline.declared_of_linked hf h
  refine ⟨Outline.bears_of_contentType h, Outline.expr_degraded hb, fun u hu => ?_, hl⟩
  cases Outline.names_of_mem_uses hb hu with
  | @builtin name hn =>
    have hname := mem_builtinNames.2 ⟨e, he, e.2.builtinNames_opened_subset hn⟩
    obtain ⟨b, hmem, hbears⟩ := exists_mem_builtins hm hf hname
    exact .inl ⟨b, hmem, congrArg _ hbears.constant.symm⟩
  | @contentType id hid =>
    obtain ⟨t, ht, hbears⟩ := exists_mem_contentTypes hm hid
    exact .inr (.inl ⟨t, ht, congrArg _ hbears.constant.symm⟩)
  | cast hn ht => exact .inr (.inr ⟨_, hn, _, ht, rfl⟩)

theorem warnings_toModule_of_linked :
    (graph.toModule settings).warnings =
      (graph.schemas.flatMap fun e => e.2.opened.dangling (Entries.keys graph.schemas)).map
        .danglingReference := by
  obtain ⟨found, hb, -, hbuiltins, hc⟩ := toModule_eq_ok hm
  rw [hf, if_neg Bool.false_ne_true] at hbuiltins
  have hw : (graph.toModule settings).warnings =
      (found.mapM (graph.outline settings).builtin).warnings ++
        (graph.schemas.mapM fun e => (graph.outline settings).contentType e.1 e.2).warnings := by
    simp only [toModule, hb, hf, Bool.false_eq_true, if_false]
    refine (Report.warnings_bind_of_ok hbuiltins).trans (congrArg _ ?_)
    rw [bind_pure_comp, Report.warnings_map]
    rfl
  rw [hw, Report.warnings_mapM_eq_nil fun b hmem =>
    Outline.warnings_builtin (mem_all_of_builtins hb b hmem), List.nil_append,
    Report.warnings_mapM hc, List.map_flatMap]
  refine List.flatMap_congr fun e he => ?_
  obtain ⟨d, -, hd⟩ := Report.exists_mem_of_mapM hc he
  obtain ⟨hbody, -, hwarn⟩ := Outline.declared_of_linked hf hd
  rw [hwarn]
  exact Outline.warnings_expr_byName_eq hbody

end

theorem names_of_not_mem (settings : Settings) (hk : (Entries.keys graph.schemas).Nodup)
    {id : String} (h : id ∉ Entries.keys graph.schemas) :
    (graph.outline settings).constant .contentType id = settings.naming.schemaName id ∧
      (graph.outline settings).type .contentType id = settings.naming.typeName id := by
  have hn : (graph.nameTable settings.naming).find? .contentType id = none := by
    rw [← Option.not_isSome_iff_eq_none, NameTable.find?_isSome_iff,
      keys_nameTable settings.naming hk]
    simp [references, h]
  simp [Outline.constant, Outline.type, outline, hn]

end Graph

/-- Linked, what a schema refers to in vain is written as what lets everything pass, with a warning
that names it, and what is left open of a schema names nothing that is not declared. Links are
written by name, also where there is no schema of that name; if each target has one, the links name
nothing but what is declared. -/
theorem dangling_references_degrade {graph : Graph} {settings : Settings} {generated : Generated}
    (hf : settings.flat = false) (hk : (Entries.keys graph.schemas).Nodup)
    (hp : graph.print settings = .ok generated) :
    ∃ m, (graph.toModule settings).outcome = .ok m ∧
      generated.source =
        Module.paragraphs (m.preamble :: m.statements.map (·.render)) ++ "\n" ∧
      generated.warnings = graph.warnings ++
        (graph.schemas.flatMap fun e => e.2.opened.dangling (Entries.keys graph.schemas)).map
          (fun id => (Warning.danglingReference id).message) ∧
      List.Forall₂ (graph.DeclaresOpened settings m) graph.schemas m.contentTypes ∧
      (∀ id ∉ Entries.keys graph.schemas,
        (graph.outline settings).constant .contentType id = settings.naming.schemaName id ∧
          (graph.outline settings).type .contentType id = settings.naming.typeName id) ∧
      ((∀ e ∈ graph.schemas, ∀ l ∈ e.2.linkedFields, ∀ id ∈ l.2.targets,
          id ∈ Entries.keys graph.schemas) →
        ∀ d ∈ m.contentTypes, ∀ link ∈ d.links,
          (∀ constant ∈ link.constants, constant ∈ m.contentTypes.map (·.constant)) ∧
          ∀ type ∈ link.types, type ∈ m.contentTypes.map (·.type)) := by
  obtain ⟨m, hm, rfl⟩ := Graph.print_eq_ok_iff.1 hp
  obtain ⟨-, -, -, -, hc⟩ := Graph.toModule_eq_ok hm
  have hall : List.Forall₂ (graph.DeclaresOpened settings m) graph.schemas m.contentTypes := by
    refine ((List.forall₂_and_left _ _).2
      ⟨fun e he => he, Report.outcome_mapM_eq_ok.1 hc⟩).imp ?_
    rintro e d ⟨he, hd⟩
    exact Graph.declaresOpened hf hm he hd
  refine ⟨m, hm, m.render_eq_paragraphs, ?_, hall,
    fun id => Graph.names_of_not_mem settings hk, ?_⟩
  · rw [Report.messages, Graph.warnings_toModule_of_linked hf hm, List.map_map]
    rfl
  · intro htargets d hd link hlink
    obtain ⟨e, he, h⟩ := Report.exists_of_mem_right hall hd
    rw [h.links] at hlink
    obtain ⟨l, hl, rfl⟩ := List.mem_map.1 hlink
    constructor
    · intro constant hconstant
      obtain ⟨id, hid, rfl⟩ := List.mem_map.1 hconstant
      obtain ⟨t, ht, hbears⟩ := Graph.exists_mem_contentTypes hm (htargets e he l hl id hid)
      exact List.mem_map.2 ⟨t, ht, hbears.constant⟩
    · intro type htype
      obtain ⟨id, hid, rfl⟩ := List.mem_map.1 htype
      obtain ⟨t, ht, hbears⟩ := Graph.exists_mem_contentTypes hm (htargets e he l hl id hid)
      exact List.mem_map.2 ⟨t, ht, hbears.type⟩

def page (fields : List (String × Node)) : Graph :=
  ⟨[("page", .record [("fields", .record fields .strict)] .strict)], []⟩

theorem dangling_references_degrade_page :
    ∃ generated m, (page [("next", Node.any.withReference "ghost" .contentType),
        ("all", .link ["page"] none)]).print linkedSettings = .ok generated ∧
      generated.warnings = ["reference to unknown content type 'ghost'; emitting z.unknown()"] ∧
      ((page [("next", Node.any.withReference "ghost" .contentType),
        ("all", .link ["page"] none)]).toModule linkedSettings).outcome = .ok m ∧
      ∀ d ∈ m.contentTypes, ∀ link ∈ d.links, ∀ constant ∈ link.constants,
        constant ∈ m.contentTypes.map (·.constant) := by
  obtain ⟨generated, hp⟩ : ∃ generated, (page [("next", Node.any.withReference "ghost"
    .contentType), ("all", .link ["page"] none)]).print linkedSettings = .ok generated := ⟨_, rfl⟩
  obtain ⟨m, hm, -, hw, -, -, hlinks⟩ := dangling_references_degrade rfl (by decide) hp
  refine ⟨generated, m, hp, hw.trans (by rfl), hm, fun d hd link hl => ?_⟩
  exact (hlinks (by decide) d hd link hl).1

/-- A link to what has no schema is written by name, without a warning. -/
theorem dangling_links_named :
    ∃ generated m, (page [("next", .link ["ghost"] none)]).print linkedSettings = .ok generated ∧
      generated.warnings = [] ∧
      ((page [("next", .link ["ghost"] none)]).toModule linkedSettings).outcome = .ok m ∧
      generated.source =
        Module.paragraphs (m.preamble :: m.statements.map (·.render)) ++ "\n" ∧
      (∃ s ∈ m.statements, .deferred "ghostSchema" ∈ s.uses) ∧ "ghostSchema" ∉ m.values ∧
      (∃ s ∈ m.statements, .type "Ghost" ∈ s.uses) ∧ "Ghost" ∉ m.types := by
  refine ⟨_, _, rfl, rfl, rfl, Module.render_eq_paragraphs _, ?_, ?_, ?_, ?_⟩
  · decide
  · decide
  · decide
  · decide

end ContentSchema
