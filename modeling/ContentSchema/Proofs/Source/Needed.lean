import ContentSchema.Proofs.Naming.Registration
import ContentSchema.Proofs.Source.Provided
import ContentSchema.Proofs.Source.Tagged

/-! # Built-ins that a module needs

A module declares the built-ins that its content types name, no more and no fewer, in the order in
which they are first named. Placeholders hide no built-in, as what has links refers to none.
-/

namespace ContentSchema

open Source

namespace Source

/-- The name of a value that has to be there at once. -/
def Use.immediate? : Use → Option String
  | .value name => some name
  | _ => none

def Use.value? : Use → Option String
  | .value name => some name
  | .deferred name => some name
  | .type _ => none
  | .typeOf name => some name

def Use.type? : Use → Option String
  | .type name => some name
  | _ => none

namespace Declaration

/-- The values that are named in the text of the declaration. -/
def named (d : Declaration) : List String :=
  (d.statements.flatMap (·.uses)).filterMap Use.value?

def bound (d : Declaration) : List String := d.statements.flatMap (·.values)

/-- The types that expressions of the declaration are cast to. -/
def casts (d : Declaration) : List String :=
  d.body.uses.filterMap Use.type? ++ d.assertion?.toList

end Declaration

/-- The values that the content types name but do not bind themselves, in the order of the text. -/
def Module.needed (m : Module) : List String :=
  (m.contentTypes.flatMap (·.named)).filter (· ∉ m.contentTypes.flatMap (·.bound))

end Source

theorem Builtin.lookup_name {b : Builtin} (h : b ∈ all) : lookup b.name = some b := by
  rcases mem_all_iff.1 h with rfl | rfl | rfl | rfl <;> rfl

namespace Node

variable {follow : Follow} {node : Node} {e : Expr}

theorem filterMap_uses_expr {f : Use → Option String} {g : String → List String}
    (hg : node.Genuine)
    (hr : ∀ n ∈ node.walk, ∀ r e, n.tags.reference = some r → (n.expr follow).outcome = .ok e →
      e.uses.filterMap f = n.builtinNames.flatMap g)
    (h : (node.expr follow).outcome = .ok e) :
    e.uses.filterMap f = node.builtinNames.flatMap g := by
  induction node using induct generalizing e with
  | step node ih =>
    obtain ⟨hn, hc⟩ := genuine_iff.1 hg
    obtain ⟨hnode, hchildren⟩ := forall_mem_walk_iff.1 hr
    cases href : node.tags.reference with
    | some r => exact hnode r e href h
    | none =>
      -- what is neither a reference nor cast is written as its children are, one after the other
      have hno : ∀ name, node.tags.reference ≠ some ⟨name, .builtin⟩ := by simp [href]
      rw [expr_of_not_followed (by simp [href]), hn.cast_eq_none hno] at h
      obtain ⟨b, hbody, rfl⟩ := Report.outcome_map_eq_ok.1 h
      obtain ⟨es, hes, huses⟩ := uses_of_body hbody
      rw [withType, huses, builtinNames_of_not_builtin hno, List.filterMap_flatMap,
        List.flatMap_assoc]
      refine (Report.flatMap_eq_of_forall₂ hes fun child hm e he => ?_).symm
      exact (ih child hm (hc child hm) (hchildren child hm) he).symm

theorem builtinNames_choice (targets : List String) : (choice targets).builtinNames = [] := by
  match targets with
  | [] => rfl
  | [_] => rfl
  | a :: b :: rest =>
    rw [builtinNames_of_not_builtin (by simp [choice, Node.tags, Tags.empty]), choice, children,
      List.flatMap_map, List.flatMap_eq_nil_iff]
    · intro target _
      rfl
    · simp

theorem IsLink.builtinNames_eq_nil {known : List String} {depth : Nat} {links : LinkSet}
    (h : node.IsLink known depth links) : node.builtinNames = [] := by
  have listed (depth : Nat) (n : Node) :
      ((array · .empty)^[depth] n).builtinNames = n.builtinNames := by
    induction depth with
    | zero => rfl
    | succ depth ih =>
      rw [Function.iterate_succ_apply']
      exact ih
  have absent (n : Node) : (optional n .empty).builtinNames = n.builtinNames := rfl
  rw [← builtinNames_withTags_links none]
  change node.unlinked.builtinNames = []
  rw [h.node, LinkSet.nested, layered]
  split
  · rw [absent, listed, builtinNames_choice]
  · rw [listed, builtinNames_choice]

section

variable {sys : Node} {fields : List (String × Node)} {policy : ObjectPolicy}

theorem builtinNames_entry :
    (object [("sys", sys), ("fields", object fields policy .empty)] policy .empty).builtinNames =
      sys.builtinNames ++ fields.flatMap (·.2.builtinNames) := by
  have untagged (shape : List (String × Node)) :
      (object shape policy .empty).builtinNames = shape.flatMap (·.2.builtinNames) :=
    shapeBuiltins_eq_flatMap shape
  rw [untagged, List.flatMap_cons, List.flatMap_singleton, untagged]

theorem genuine_entry_iff :
    (object [("sys", sys), ("fields", object fields policy .empty)] policy .empty).Genuine ↔
      sys.Genuine ∧ ∀ e ∈ fields, e.2.Genuine := by
  have untagged (shape : List (String × Node)) :
      (object shape policy .empty).Genuine ↔ ∀ e ∈ shape, e.2.Genuine := by
    rw [genuine_iff, and_iff_right (isGenuine_of_untagged rfl), children, List.forall_mem_map]
  rw [untagged, List.forall_mem_cons, List.forall_mem_singleton, untagged]

end

theorem genuine_placeholder (h : node.Genuine) : node.placeholder.Genuine := by
  unfold placeholder
  split
  · exact genuine_mapClosed.basic .any
  · exact h

end Node

theorem Scope.placeholders_of_mapContentType {scope : Scope} {ct : ContentType} {node : Node}
    (hf : scope.settings.flat = false) (h : (scope.mapContentType ct).outcome = .ok node)
    (hg : node.Genuine) :
    node.withPlaceholders.Genuine ∧ node.withPlaceholders.builtinNames = node.builtinNames := by
  obtain ⟨entries, hm, rfl⟩ := exists_of_mapContentType h
  rw [Node.genuine_entry_iff] at hg
  rw [Node.withPlaceholders_entry, Node.genuine_entry_iff, Node.builtinNames_entry,
    Node.builtinNames_entry, List.flatMap_map, List.forall_mem_map]
  refine ⟨⟨hg.1, fun e he => Node.genuine_placeholder (hg.2 e he)⟩,
    congrArg _ (List.flatMap_congr fun e he => ?_)⟩
  rw [Node.placeholder]
  split
  · next hl =>
    obtain ⟨links, hl⟩ := Option.isSome_iff_exists.1 hl
    obtain ⟨f, -, hfield⟩ := Report.exists_of_mem_mapM hm (Entries.mem_of_mem_ofList he)
    exact (isLink_mapField hf (mapEntry_eq_ok_iff.1 hfield).2 hl).1.builtinNames_eq_nil.symm
  · rfl

namespace Outline

variable {o : Outline} {node : Node} {e : Expr}

/-- Linked, what an expression names at once are its built-ins. -/
theorem immediate_of_expr_byName (hg : node.Genuine) (hp : node.Proper)
    (h : (node.expr o.byName).outcome = .ok e) :
    e.uses.filterMap Use.immediate? = node.builtinNames.map (o.constant .builtin) := by
  rw [List.map_eq_flatMap]
  refine Node.filterMap_uses_expr hg (fun n hn r e hr he => ?_) h
  obtain ⟨name, _ | _⟩ := r
  · rw [Node.expr_of_followed hr rfl] at he
    split at he
    · obtain rfl := Except.ok.inj he
      rw [builtinNames_of_reference hr]
      rfl
    · cases he
  · -- nothing is hidden behind a reference to a content type: a proper one has no children
    have hnone : n.builtinNames = [] := by
      rw [Node.builtinNames_of_not_builtin (by simp [hr]),
        Node.children_of_isProper (hp n hn) hr, List.flatMap_nil]
    rw [Node.expr_of_followed hr rfl] at he
    rw [hnone]
    split at he
    · obtain rfl := Except.ok.inj he
      rfl
    · obtain rfl := Except.ok.inj he
      rfl

/-- Flat, what an expression is cast to are the types of its built-ins. -/
theorem casts_of_expr_bare (hg : node.Genuine) (hn : ∀ id, id ∉ node.contentTypeReferences)
    (h : (node.expr Node.bare).outcome = .ok e) :
    e.uses.filterMap Use.type? = node.builtinNames.flatMap fun name =>
      ((Builtin.lookup name).bind (·.node.tags.cast)).toList := by
  refine Node.filterMap_uses_expr hg (fun n hm r e hr he => ?_) h
  obtain ⟨name, _ | _⟩ := r
  · obtain ⟨b, hb, hnode⟩ := (hg n hm).resolve_right fun hno => hno.2 _ hr
    rw [Node.expr_of_unlinked hnode, Node.expr_bare] at he
    obtain ⟨body, hbody, rfl⟩ := Report.outcome_map_eq_ok.1 he
    have hnone : body.uses = [] := Node.uses_of_body_builtin hb hbody
    rw [builtinNames_of_reference (Node.reference_of_unlinked hb hnode), List.flatMap_singleton,
      Builtin.lookup_name hb, Option.bind_some]
    cases b.node.tags.cast with
    | none =>
      rw [Node.withType, hnone]
      rfl
    | some type =>
      rw [Node.withType, Expr.uses, hnone]
      rfl
  · exact absurd (Node.mem_contentTypeReferences_of_mem_walk hm hr) (hn name)

end Outline

namespace Source.Declaration

variable {d : Declaration}

theorem mem_casts {type : String} :
    type ∈ d.casts ↔ .type type ∈ d.body.uses ∨ d.assertion? = some type := by
  rw [casts, List.mem_append, Option.mem_toList, List.mem_filterMap]
  refine or_congr_left ⟨?_, fun h => ⟨_, h, rfl⟩⟩
  rintro ⟨u, hu, ht⟩
  cases u with
  | type name => exact Option.some.inj ht ▸ hu
  | _ => cases ht

theorem exists_named_eq (d : Declaration) :
    ∃ later, d.named = d.body.uses.filterMap Use.value? ++ later ∧
      ∀ name ∈ later, name ∈ d.bound ∨ ∃ link ∈ d.links, name ∈ link.constants := by
  cases d with
  | schema constant type body assertion =>
    refine ⟨[constant], ?_, by simp [bound, values_statements, Declaration.constant]⟩
    simp [named, statements, Statement.uses, Declaration.body, Use.value?, Function.comp_def]
  | linked base constant type body links =>
    have htypes : (links.flatMap (·.types.map Use.type)).filterMap Use.value? = [] := by
      simp [List.filterMap_flatMap, Function.comp_def, Use.value?]
    have hconstants : (links.flatMap (·.constants.map Use.deferred)).filterMap Use.value? =
        links.flatMap (·.constants) := by
      simp [List.filterMap_flatMap, Function.comp_def, Use.value?]
    refine ⟨base :: base :: links.flatMap (·.constants), ?_, ?_⟩
    · simp [named, statements, Statement.uses, Declaration.body, LinkField.uses_expr,
        List.filterMap_cons, Use.value?, htypes, hconstants]
    · have hbase : base ∈ (linked base constant type body links).bound := by
        simp [bound, values_statements, base?]
      intro name hn
      rcases List.mem_cons.1 hn with rfl | hn
      · exact .inl hbase
      · rcases List.mem_cons.1 hn with rfl | hn
        · exact .inl hbase
        · exact .inr (List.mem_flatMap.1 hn)

end Source.Declaration

namespace Graph

variable {graph : Graph} {settings : Settings} {m : Module} {b b' : Builtin}

theorem numbered_schemaName (graph : Graph) (settings : Settings) (target : Target) (id : String) :
    Numbered (settings.naming.schemaName id) ((graph.outline settings).constant target id) := by
  rw [Outline.constant, outline]
  cases hf : (graph.nameTable settings.naming).find? target id with
  | none => exact .inl rfl
  | some s =>
    obtain ⟨hs, he⟩ := NameTable.mem_of_find? (r := ⟨id, target⟩) hf
    obtain ⟨rfl, -⟩ := NamedReference.mk.inj he
    exact (made_nameTable settings.naming).schema_eq s hs

theorem name_prefix_constant (graph : Graph) (settings : Settings) (hb : b ∈ Builtin.all) :
    b.name.toList <+: ((graph.outline settings).constant .builtin b.name).toList := by
  have hid : Text.isIdentifier b.name = true := by
    rcases Builtin.mem_all_iff.1 hb with rfl | rfl | rfl | rfl <;> decide
  refine List.IsPrefix.trans ?_ (graph.numbered_schemaName settings .builtin b.name).isPrefix
  rw [Naming.schemaName, if_pos hid, String.toList_append]
  exact List.prefix_append _ _

/-- No built-in has the constant of another, numbered or not: no name of one begins that of
another. -/
theorem eq_of_constant_eq (hb : b ∈ Builtin.all) (hb' : b' ∈ Builtin.all)
    (h : (graph.outline settings).constant .builtin b.name =
      (graph.outline settings).constant .builtin b'.name) : b = b' := by
  have hp := graph.name_prefix_constant settings hb
  rw [h] at hp
  have hcases := List.prefix_or_prefix_of_prefix hp (graph.name_prefix_constant settings hb')
  rcases Builtin.mem_all_iff.1 hb with rfl | rfl | rfl | rfl <;>
    rcases Builtin.mem_all_iff.1 hb' with rfl | rfl | rfl | rfl <;>
    first | rfl | exact absurd hcases (by decide)

theorem constant_ne_base (hb : b ∈ Builtin.all) (type : String) :
    (graph.outline settings).constant .builtin b.name ≠ "_base" ++ type := by
  intro h
  have hp := graph.name_prefix_constant settings hb
  rw [h, String.toList_append] at hp
  have hcases := List.prefix_or_prefix_of_prefix hp (List.prefix_append _ _)
  rcases Builtin.mem_all_iff.1 hb with rfl | rfl | rfl | rfl <;> exact absurd hcases (by decide)

section

variable (hm : (graph.toModule settings).outcome = .ok m)
include hm

theorem not_mem_bound_of_mem_builtins (hk : (Entries.keys graph.schemas).Nodup) {d : Declaration}
    (hd : d ∈ m.builtins) : d.constant ∉ m.contentTypes.flatMap (·.bound) := by
  intro h
  obtain ⟨t, ht, hbound⟩ := List.mem_flatMap.1 h
  rw [Declaration.bound, Declaration.values_statements] at hbound
  rcases List.mem_append.1 hbound with hbase | hconstant
  · obtain ⟨b, hb, hdeclares⟩ := declaresBuiltin hm hd
    obtain ⟨r, -, -, hbears⟩ := exists_of_mem_declarations hm (List.mem_append_right _ ht)
    have hne := hbears.base _ (Option.mem_toList.1 hbase)
    rw [hdeclares.bears.constant] at hne
    exact constant_ne_base hb _ hne
  · have hn := nodup_constants hk hm
    rw [Module.declarations, List.map_append] at hn
    have he : d.constant = t.constant := List.mem_singleton.1 hconstant
    exact List.disjoint_of_nodup_append hn (List.mem_map_of_mem hd) (he ▸ List.mem_map_of_mem ht)

theorem filter_named (hk : (Entries.keys graph.schemas).Nodup)
    (hr : graph.Resolves settings m) {d : Declaration} (hd : d ∈ m.contentTypes) :
    d.named.filter (· ∉ m.contentTypes.flatMap (·.bound)) =
      d.body.uses.filterMap Use.immediate? := by
  obtain ⟨e, -, he⟩ := hr.exists_of_mem_contentTypes hd
  have bound {t : Declaration} (ht : t ∈ m.contentTypes) :
      t.constant ∈ m.contentTypes.flatMap (·.bound) := by
    refine List.mem_flatMap.2 ⟨t, ht, ?_⟩
    rw [Declaration.bound, Declaration.values_statements]
    exact List.mem_append_right _ (List.mem_singleton_self _)
  obtain ⟨later, hnamed, hlater⟩ := d.exists_named_eq
  have hnone : later.filter (· ∉ m.contentTypes.flatMap (·.bound)) = [] := by
    rw [List.filter_eq_nil_iff]
    intro name hn
    simp only [decide_not, Bool.not_eq_true', decide_eq_false_iff_not, not_not]
    rcases hlater name hn with hown | ⟨link, hl, hc⟩
    · exact List.mem_flatMap.2 ⟨d, hd, hown⟩
    · obtain ⟨l, -, rfl, ht⟩ := he.exists_targets hl
      obtain ⟨id, hid, rfl⟩ := List.mem_map.1 hc
      obtain ⟨t, hmem, hbears⟩ := ht id hid
      exact hbears.constant ▸ bound hmem
  rw [hnamed, List.filter_append, hnone, List.append_nil, List.filter_filterMap]
  refine List.filterMap_congr fun u hu => ?_
  -- what the body needs at once are built-ins, and what it puts off are content types
  cases he.body u hu with
  | builtin _ hb _ =>
    have hfree := not_mem_bound_of_mem_builtins hm hk hb
    simp [Use.value?, Use.immediate?, Option.filter, hfree]
  | contentType _ ht _ => simp [Use.value?, Use.immediate?, Option.filter, bound ht]
  | imported => rfl

theorem exists_mem_casts_of_linked (hf : settings.flat = false)
    (h : Builtin.richText.name ∈ graph.builtinNames) :
    ∃ d ∈ m.declarations, "Document" ∈ d.casts := by
  obtain ⟨d, hd, hbears⟩ := exists_mem_builtins hm hf h
  obtain ⟨b, hb, hdeclares⟩ := declaresBuiltin hm hd
  obtain rfl : b = Builtin.richText :=
    eq_of_constant_eq hb (by simp [Builtin.all])
      (hdeclares.bears.constant.symm.trans hbears.constant)
  refine ⟨d, List.mem_append_left _ hd, Declaration.mem_casts.2 (.inr ?_)⟩
  rw [hdeclares.schema]
  rfl

theorem count_documentImport :
    m.imports.count documentImport =
      if Builtin.richText.name ∈ graph.builtinNames then 1 else 0 := by
  rw [imports_eq hm]
  split <;> decide

theorem mem_importedTypes_iff :
    "Document" ∈ m.importedTypes ↔ Builtin.richText.name ∈ graph.builtinNames := by
  rw [importedTypes_eq hm]
  split <;> simp [*]

end

theorem mem_importedTypes_of_mem_casts (hr : graph.Resolves settings m) {d : Declaration}
    (hd : d ∈ m.declarations) {type : String} (ht : type ∈ d.casts) : type ∈ m.importedTypes := by
  rw [Declaration.mem_casts] at ht
  rcases List.mem_append.1 hd with hd | hd
  · obtain ⟨b, -, hb⟩ := hr.builtins d hd
    rw [hb.body] at ht
    have hassertion := ht.resolve_left List.not_mem_nil
    rw [hb.schema] at hassertion
    exact hb.imported type hassertion
  · obtain ⟨e, -, he⟩ := hr.exists_of_mem_contentTypes hd
    rw [he.assertion] at ht
    cases he.body _ (ht.resolve_right (by simp)) with
    | imported _ _ _ hi => exact hi

end Graph

namespace ContentModel

variable {model : ContentModel} {settings : Settings} {graph : Graph} {m : Module}

section

variable (hg : model.graph settings = .ok graph) (hm : (graph.toModule settings).outcome = .ok m)
include hg hm

/-- Linked, the content types need the built-ins that the schemas refer to, in the same order. -/
theorem needed_eq (hf : settings.flat = false) :
    m.needed =
      (Node.shapeBuiltins graph.schemas).map ((graph.outline settings).constant .builtin) := by
  obtain ⟨-, -, -, -, hc⟩ := Graph.toModule_eq_ok hm
  have hk := nodup_keys_graph hg
  have hr := resolves_graph hg hm
  have hneeded : m.needed =
      m.contentTypes.flatMap fun d => d.body.uses.filterMap Use.immediate? := by
    rw [Module.needed, List.filter_flatMap]
    exact List.flatMap_congr fun d hd => Graph.filter_named hm hk hr hd
  rw [hneeded, Node.shapeBuiltins_eq_flatMap, List.map_flatMap]
  refine (Report.flatMap_eq_of_forall₂ (Report.outcome_mapM_eq_ok.1 hc) fun e he d ho => ?_).symm
  obtain ⟨ct, -, -, hmap⟩ := exists_of_mem_linked_graph hf hg he
  obtain ⟨hgenuine, hbuiltins⟩ :=
    Scope.placeholders_of_mapContentType hf hmap (genuine_graph hg e he)
  have hd := Outline.declared_of_contentType hf (Node.withPlaceholders_of_mapContentType hmap) ho
  rw [← hbuiltins]
  exact (Outline.immediate_of_expr_byName hgenuine
    (Node.proper_withPlaceholders (proper_graph hg e he)) hd.body).symm

theorem eraseDups_needed (hf : settings.flat = false) :
    m.needed.eraseDups =
      graph.builtinNames.map ((graph.outline settings).constant .builtin) := by
  rw [needed_eq hg hm hf, Graph.builtinNames, eraseDups_map]
  intro name hn name' hn' he
  obtain ⟨b, hb, rfl⟩ := Graph.exists_of_mem_builtinNames hm (List.mem_eraseDups.2 hn)
  obtain ⟨b', hb', rfl⟩ := Graph.exists_of_mem_builtinNames hm (List.mem_eraseDups.2 hn')
  rw [Graph.eq_of_constant_eq hb hb' he]

theorem exists_mem_casts_of_flat (hf : settings.flat = true)
    (h : Builtin.richText.name ∈ graph.builtinNames) :
    ∃ d ∈ m.declarations, "Document" ∈ d.casts := by
  obtain ⟨-, -, -, -, hc⟩ := Graph.toModule_eq_ok hm
  obtain ⟨e, he, hname⟩ := Graph.mem_builtinNames.1 h
  obtain ⟨d, hd, ho⟩ := Report.exists_mem_of_mapM hc he
  have hn := no_references_flat_graph hf hg e he
  rw [Outline.contentType_of_flat hf] at ho
  obtain ⟨body, hbody, rfl⟩ := Report.outcome_map_eq_ok.1 ho
  rw [Node.expr_of_no_references (fun _ => Outline.inlined_builtin) hn] at hbody
  refine ⟨_, List.mem_append_right _ hd, List.mem_append_left _ ?_⟩
  change "Document" ∈ body.uses.filterMap Use.type?
  rw [Outline.casts_of_expr_bare (genuine_graph hg e he) hn hbody]
  exact List.mem_flatMap.2 ⟨_, hname, by decide⟩

end

end ContentModel

/-- Pages with pictures that link to posts, which tell where they were written. -/
def travels : ContentModel :=
  let field (id kind : String) (linkType : Option String) : Field :=
    ⟨id, "", ⟨kind, linkType, []⟩, [], true, false⟩
  let picture := field "picture" "Link" (some "Asset")
  let body := field "body" "RichText" none
  let page := linking "page" 1 ["post"]
  ⟨[{ page with fields := page.fields ++ [picture, body] },
    ⟨"post", "", none, none, [field "place" "Location" none, body, picture]⟩]⟩

end ContentSchema
