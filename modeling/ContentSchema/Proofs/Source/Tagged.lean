import ContentSchema.Proofs.Naming.Unnumbered
import ContentSchema.Proofs.Source.Printed

/-! # Links of inlined schemas

Inlining leaves the links of all fields as they are, and nothing but these fields is changed by it.
So a flat graph that is printed linked declares its content types as the linked graph does, as long
as neither has to number its names.
-/

namespace ContentSchema

open Source

namespace Node

variable {node : Node} {name : String} {schemas : List (String × Node)}

theorem mem_builtinNames :
    name ∈ node.builtinNames ↔
      node.tags.reference = some ⟨name, .builtin⟩ ∨
        (∀ other, node.tags.reference ≠ some ⟨other, .builtin⟩) ∧
          ∃ child ∈ node.children, name ∈ child.builtinNames := by
  rw [builtinNames_eq, stopAtBuiltin]
  split
  · next other hr => simp [hr, eq_comm]
  · next hr =>
    have hne (other : String) : node.tags.reference ≠ some ⟨other, .builtin⟩ := hr other
    simp [hne]

theorem builtinNames_withTags_links (links : Option LinkSet) :
    (node.withTags { node.tags with links := links }).builtinNames = node.builtinNames := by
  rw [builtinNames_eq, builtinNames_eq node, children_withTags, tags_withTags]
  rfl

theorem exists_of_mem_builtinNames_inline (h : name ∈ (node.inline schemas).builtinNames) :
    name ∈ node.builtinNames ∨ ∃ e ∈ schemas, name ∈ e.2.builtinNames := by
  induction node using induct with
  | step node ih =>
    by_cases hr : ∃ id, node.tags.reference = some ⟨id, .contentType⟩
    · obtain ⟨id, hr⟩ := hr
      rw [inline_of_reference hr, builtinNames_withTags_links, linkTarget] at h
      cases hl : schemas.lookup id with
      | none =>
        rw [hl] at h
        cases h
      | some target =>
        rw [hl] at h
        exact .inr ⟨_, Entries.mem_of_lookup hl, h⟩
    · rw [not_exists] at hr
      rw [inline_of_no_reference hr, mem_builtinNames, tags_inlineChildren,
        children_inlineChildren] at h
      rcases h with h | ⟨hb, child, hm, h⟩
      · exact .inl (mem_builtinNames.2 (.inl h))
      · obtain ⟨c, hc, rfl⟩ := List.mem_map.1 hm
        exact (ih c hc h).imp_left fun h => mem_builtinNames.2 (.inr ⟨hb, c, hc, h⟩)

theorem mem_builtinNames_inline (hp : node.Proper) (h : name ∈ node.builtinNames) :
    name ∈ (node.inline schemas).builtinNames := by
  induction node using induct with
  | step node ih =>
    obtain ⟨hn, hc⟩ := proper_iff.1 hp
    rw [mem_builtinNames] at h
    by_cases hr : ∃ id, node.tags.reference = some ⟨id, .contentType⟩
    · obtain ⟨id, hr⟩ := hr
      rcases h with h | ⟨-, child, hm, -⟩
      · simp [hr] at h
      · rw [children_of_isProper hn hr] at hm
        cases hm
    · rw [not_exists] at hr
      rw [inline_of_no_reference hr, mem_builtinNames, tags_inlineChildren,
        children_inlineChildren]
      refine h.imp_right fun ⟨hb, child, hm, hname⟩ => ⟨hb, _, List.mem_map_of_mem hm, ?_⟩
      exact ih child hm (hc child hm) hname

theorem inline_entry {sys : Node} {fields : List (String × Node)} {policy : ObjectPolicy} :
    (object [("sys", sys), ("fields", object fields policy .empty)] policy .empty).inline schemas =
      object [("sys", sys.inline schemas),
        ("fields", object (fields.map fun e => (e.1, e.2.inline schemas)) policy .empty)] policy
        .empty := by
  have untagged (shape : List (String × Node)) : (object shape policy .empty).inline schemas =
      object (shape.map fun e => (e.1, e.2.inline schemas)) policy .empty := by
    rw [inline_of_no_reference (by simp [Node.tags, Tags.empty]), inlineChildren,
      inlineShape_eq_map]
  rw [untagged, List.map_cons, List.map_cons, List.map_nil, untagged]

theorem placeholder_inline (h : node.tags.links = none → ∀ id, id ∉ node.contentTypeReferences) :
    (node.inline schemas).placeholder = node.placeholder := by
  rw [placeholder, placeholder, links_inline]
  cases hl : node.tags.links with
  | none => simp [inline_of_no_references (h hl)]
  | some links => rfl

end Node

namespace Scope

variable {scope : Scope} {ct : ContentType} {node : Node}

theorem no_references_of_no_links (hf : scope.settings.flat = false) {f : Field}
    (h : (scope.mapField f).outcome = .ok node) (hl : node.tags.links = none) (id : String) :
    id ∉ node.contentTypeReferences := by
  obtain ⟨held, hh, rfl⟩ := Report.outcome_map_eq_ok.1 (mapField_eq f ▸ h)
  have hheld : held.tags.links = none → id ∉ held.contentTypeReferences := by
    refine mapKind_induct (P := fun n => n.tags.links = none → id ∉ n.contentTypeReferences)
      ?_ ?_ ?_ hh
    · intro n hb _
      simp [Node.contentTypeReferences_of_basic hb]
    · intro targets _ hn
      rw [copies_linked hf, Node.links_link, Node.linkSet?] at hn
      split at hn
      · next ht =>
        rw [List.isEmpty_iff.1 ht, Node.link, Node.contentTypeReferences_openLink]
        exact List.not_mem_nil
      · cases hn
    · intro n ih hn
      rw [Node.mem_contentTypeReferences_listed]
      exact ih (Option.map_eq_none_iff.1 hn)
  split at hl
  · next hr => simpa only [hr, if_true] using hheld hl
  · next hr =>
    rw [if_neg hr, Node.mem_contentTypeReferences_wrapped]
    exact hheld (Option.map_eq_none_iff.1 hl)

/-- Inlined, a content type has the same links, and the same fields next to them. -/
theorem linkedFields_inline (schemas : List (String × Node)) (hf : scope.settings.flat = false)
    (h : (scope.mapContentType ct).outcome = .ok node) :
    (node.inline schemas).linkedFields = node.linkedFields ∧
      (node.inline schemas).withPlaceholders = node.withPlaceholders ∧
      (node.linkedFields = [] → node.inline schemas = node) := by
  obtain ⟨entries, he, rfl⟩ := exists_of_mapContentType h
  -- fields without links refer to nothing, and so stay what they are when inlined
  have hfields : ∀ e ∈ Entries.ofList entries,
      e.2.tags.links = none → ∀ id, id ∉ e.2.contentTypeReferences := by
    intro e hm
    obtain ⟨f, -, ho⟩ := Report.exists_of_mem_mapM he (Entries.mem_of_mem_ofList hm)
    exact no_references_of_no_links hf (mapEntry_eq_ok_iff.1 ho).2
  have hsys : (discriminant ct.id).inline schemas = discriminant ct.id :=
    Node.inline_of_no_references (by simp [contentTypeReferences_discriminant])
  simp only [Node.inline_entry, Node.linkedFields_entry, Node.withPlaceholders_entry, hsys]
  refine ⟨?_, ?_, ?_⟩
  · rw [List.filterMap_map]
    exact List.filterMap_congr fun e _ => by rw [Function.comp_apply, Node.links_inline]
  · rw [List.map_map]
    have hmap : (Entries.ofList entries).map
        ((fun e => (e.1, e.2.placeholder)) ∘ fun e => (e.1, e.2.inline schemas)) =
        (Entries.ofList entries).map fun e => (e.1, e.2.placeholder) :=
      List.map_congr_left fun e hm =>
        congrArg (Prod.mk e.1) (Node.placeholder_inline (hfields e hm))
    rw [hmap]
  · intro hnil
    have hmap : ((Entries.ofList entries).map fun e => (e.1, e.2.inline schemas)) =
        Entries.ofList entries := by
      refine (List.map_congr_left fun e hm => ?_).trans (List.map_id _)
      rw [List.filterMap_eq_nil_iff] at hnil
      have hl : e.2.tags.links = none := Option.map_eq_none_iff.1 (hnil e hm)
      exact congrArg (Prod.mk e.1) (Node.inline_of_no_references (hfields e hm hl))
    rw [hmap]

end Scope

/-- Outlines with the same names declare a content type alike, inlined or not. -/
theorem Outline.contentType_inline {o o' : Outline} {scope : Scope} {ct : ContentType} {node : Node}
    {schemas : List (String × Node)} (hf : o.settings.flat = false)
    (hf' : o'.settings.flat = false) (hc : o'.constant = o.constant) (ht : o'.type = o.type)
    (hb : o'.byName = o.byName) (hs : scope.settings.flat = false)
    (h : (scope.mapContentType ct).outcome = .ok node) (id : String) :
    o'.contentType id (node.inline schemas) = o.contentType id node := by
  obtain ⟨hlinks, hbody, hsame⟩ := Scope.linkedFields_inline schemas hs h
  have hfollow : o'.follow id = o.follow id := by simp [follow, hf, hf', hb]
  have hfield (key : String) (links : LinkSet) :
      o'.linkField key links = o.linkField key links := by
    simp only [linkField, hc, ht]
  simp only [contentType, hf, hf', Bool.false_eq_true, if_false, hlinks, hbody, hfollow, hc, ht,
    hfield]
  split
  · next he => rw [hsame (List.isEmpty_iff.1 he)]
  · rfl

theorem Report.exists_lookup_zip_of_mapM {α β : Type} {f : String × α → Report β}
    {entries : List (String × α)} {bs : List β} {key : String} {a : α}
    (h : (entries.mapM f).outcome = .ok bs) (hl : entries.lookup key = some a) :
    ∃ b, ((Entries.keys entries).zip bs).lookup key = some b ∧
      (f (key, a)).outcome = .ok b := by
  have hf := outcome_mapM_eq_ok.1 h
  clear h
  induction hf with
  | nil => cases hl
  | @cons e b rest bs he _ ih =>
    rw [Entries.lookup_cons] at hl
    rw [Entries.keys_cons, List.zip_cons_cons, Entries.lookup_cons]
    by_cases hk : key = e.1
    · rw [if_pos hk] at hl
      obtain rfl := Option.some.inj hl
      obtain rfl := hk
      exact ⟨b, if_pos rfl, he⟩
    · rw [if_neg hk] at hl ⊢
      exact ih hl

namespace Graph

/-- The graph can be printed, and declares the content type `id` so. -/
def Prints (graph : Graph) (settings : Settings) (id : String) (d : Declaration) : Prop :=
  ∃ m printed, (graph.toModule settings).outcome = .ok m ∧ graph.print settings = .ok printed ∧
    printed.source = m.render ∧
    ((Entries.keys graph.schemas).zip m.contentTypes).lookup id = some d

variable {graph graph' : Graph} {settings : Settings}

theorem prints_of_contentType {m : Module} (hm : (graph.toModule settings).outcome = .ok m)
    {id : String} {node : Node} (hl : graph.schemas.lookup id = some node) :
    ∃ d, ((graph.outline settings).contentType id node).outcome = .ok d ∧
      graph.Prints settings id d := by
  obtain ⟨-, -, -, -, hc⟩ := toModule_eq_ok hm
  obtain ⟨d, hd, ho⟩ := Report.exists_lookup_zip_of_mapM hc hl
  exact ⟨d, ho, m, _, hm, print_eq_ok_iff.2 ⟨m, hm, rfl⟩, rfl, hd⟩

theorem perm_references (hk : (Entries.keys graph.schemas).Nodup)
    (hk' : (Entries.keys graph'.schemas).Nodup)
    (hs : ∀ id, id ∈ Entries.keys graph'.schemas ↔ id ∈ Entries.keys graph.schemas)
    (hb : ∀ name, name ∈ graph'.builtinNames ↔ name ∈ graph.builtinNames) :
    graph'.references.Perm graph.references := by
  have hbuiltins : graph'.builtinNames.Perm graph.builtinNames :=
    (List.perm_ext_iff_of_nodup graph'.nodup_builtinNames graph.nodup_builtinNames).2 hb
  have hschemas : (Entries.keys graph'.schemas).Perm (Entries.keys graph.schemas) :=
    (List.perm_ext_iff_of_nodup hk' hk).2 hs
  exact (hbuiltins.map _).append (hschemas.map _)

/-- Graphs of the same schemas and built-ins, which the rules name differently, name them alike. -/
theorem names_congr (hk : (Entries.keys graph.schemas).Nodup)
    (hk' : (Entries.keys graph'.schemas).Nodup)
    (hs : ∀ id, id ∈ Entries.keys graph'.schemas ↔ id ∈ Entries.keys graph.schemas)
    (hb : ∀ name, name ∈ graph'.builtinNames ↔ name ∈ graph.builtinNames)
    (ha : NameTable.Apart settings.naming graph.references) :
    (graph'.outline settings).constant = (graph.outline settings).constant ∧
      (graph'.outline settings).type = (graph.outline settings).type ∧
      (graph'.outline settings).byName = (graph.outline settings).byName := by
  have ha' : NameTable.Apart settings.naming graph'.references :=
    ha.perm (perm_references hk hk' hs hb)
  have hnames (target : Target) (id : String) :=
    And.intro (names_of_apart ha target id) (names_of_apart ha' target id)
  have hc : (graph'.outline settings).constant = (graph.outline settings).constant := by
    funext target id
    rw [(hnames target id).1.1, (hnames target id).2.1]
  refine ⟨hc, ?_, ?_⟩
  · funext target id
    rw [(hnames target id).1.2, (hnames target id).2.2]
  · funext r
    obtain ⟨name, _ | _⟩ := r
    · rw [Outline.byName, Outline.byName, hc]
    · have hsome : ((graph'.outline settings).schemas.lookup name).isSome ↔
          ((graph.outline settings).schemas.lookup name).isSome := by
        rw [Entries.lookup_isSome_iff, Entries.lookup_isSome_iff]
        exact hs name
      simp only [Outline.byName, hc, hsome]

end Graph

def Settings.withFlat (settings : Settings) (flat : Bool) : Settings :=
  { settings with flat := flat }

namespace ContentModel

variable {model : ContentModel} {settings : Settings} {linked flat : Graph} {ct : ContentType}

theorem exists_flat_schema (hs : settings.flat = true) (h : model.graph settings = .ok flat)
    (hct : ct ∈ model.contentTypes) :
    ∃ node made, (model.linked settings ct).outcome = .ok node ∧
      flat.schemas.lookup ct.id = some (node.inline made) := by
  obtain ⟨hids, types, hseq, ha, -⟩ := graph_eq_ok_iff.1 h
  have hperm := perm_of_sequence hids hseq
  obtain ⟨before, after, rfl⟩ := List.append_of_mem (hperm.mem_iff.2 hct)
  obtain ⟨made, node, -, -, hn, hl⟩ :=
    exists_of_foldlM_flat hs ((hperm.map _).nodup_iff.2 hids) ha
  exact ⟨node, made, hn, hl⟩

theorem exists_inlined (hl : model.graph (settings.withFlat false) = .ok linked)
    (hf : model.graph (settings.withFlat true) = .ok flat) (hct : ct ∈ model.contentTypes) :
    ∃ node made, (model.linked settings ct).outcome = .ok node ∧
      linked.schemas.lookup ct.id = some node ∧
      flat.schemas.lookup ct.id = some (node.inline made) := by
  obtain ⟨node, hn, hlookup⟩ := lookup_linked_graph rfl hl hct
  obtain ⟨node', made, hn', hflat⟩ := exists_flat_schema rfl hf hct
  obtain rfl : node' = node := Except.ok.inj (hn'.symm.trans hn)
  exact ⟨node', made, hn', hlookup, hflat⟩

theorem mem_builtinNames_flat_iff (hl : model.graph (settings.withFlat false) = .ok linked)
    (hf : model.graph (settings.withFlat true) = .ok flat) (name : String) :
    name ∈ flat.builtinNames ↔ name ∈ linked.builtinNames := by
  constructor
  · rw [Graph.mem_builtinNames]
    rintro ⟨e, he, hname⟩
    suffices ∀ e ∈ flat.schemas, e.2.IsEntry ∧
        ∀ name ∈ e.2.builtinNames, name ∈ linked.builtinNames from (this e he).2 name hname
    refine graph_induct hf fun ct hct made inlined hall hm => ?_
    rw [Scope.mapContentType_of_flat rfl fun e he => (hall e he).1.links] at hm
    obtain ⟨node, hn, rfl⟩ := Report.outcome_map_eq_ok.1 hm
    obtain ⟨node', hn', hlookup⟩ := lookup_linked_graph rfl hl hct
    obtain rfl : node' = node := Except.ok.inj (hn'.symm.trans hn)
    refine ⟨(Scope.isEntry_mapContentType hn).inline made, ?_⟩
    intro name hname
    rcases Node.exists_of_mem_builtinNames_inline hname with hname | ⟨e, he, hname⟩
    · exact Graph.mem_builtinNames.2 ⟨_, Entries.mem_of_lookup hlookup, hname⟩
    · exact (hall e he).2 name hname
  · rw [Graph.mem_builtinNames]
    rintro ⟨e, he, hname⟩
    obtain ⟨ct, hct, hid, -⟩ := exists_of_mem_linked_graph rfl hl he
    obtain ⟨node, made, -, hlookup, hflat⟩ := exists_inlined hl hf hct
    rw [hid, (Entries.mem_iff_lookup (nodup_keys_graph hl)).1 he] at hlookup
    obtain rfl := Option.some.inj hlookup
    exact Graph.mem_builtinNames.2 ⟨_, Entries.mem_of_lookup hflat,
      Node.mem_builtinNames_inline (proper_graph hl e he) hname⟩

theorem targets_ne_nil {graph : Graph} (h : model.graph settings = .ok graph) :
    ∀ e ∈ graph.schemas, ∀ l ∈ e.2.linkedFields, l.2.targets ≠ [] := by
  have targets {ct : ContentType} {node : Node}
      (hn : (model.linked settings ct).outcome = .ok node) :
      ∀ l ∈ node.linkedFields, l.2.targets ≠ [] := by
    intro l hlink
    obtain ⟨_, _, hlink⟩ := Scope.exists_isLink_of_linkedFields rfl hn hlink
    exact hlink.ne_nil
  intro e he
  have hk : e.1 ∈ Entries.keys graph.schemas := List.mem_map_of_mem he
  obtain ⟨ct, hct, hid⟩ := List.mem_map.1 ((mem_keys_graph h).1 hk)
  have hfound := (Entries.mem_iff_lookup (nodup_keys_graph h)).1 he
  cases hf : settings.flat with
  | false =>
    obtain ⟨node, hn, hl⟩ := lookup_linked_graph hf h hct
    rw [hid, hfound] at hl
    rw [Option.some.inj hl]
    exact targets hn
  | true =>
    obtain ⟨node, made, hn, hl⟩ := exists_flat_schema hf h hct
    rw [hid, hfound] at hl
    rw [Option.some.inj hl, (Scope.linkedFields_inline made rfl hn).1]
    exact targets hn

theorem exists_toModule_linked {graph : Graph} (h : model.graph settings = .ok graph)
    {later : Settings} (hs : later.flat = false) : ∃ m, (graph.toModule later).outcome = .ok m :=
  Graph.exists_toModule_of_linked hs (proper_graph h) (targets_ne_nil h)

end ContentModel

/-- A model that can be inlined is declared alike by its flat and by its linked graph, where both
are printed linked and the rules name all schemas differently. The flat graph needs the same
built-ins. -/
theorem flat_graph_declares_links {model : ContentModel} {settings later : Settings}
    {linked flat : Graph} (hl : model.graph (settings.withFlat false) = .ok linked)
    (hf : model.graph (settings.withFlat true) = .ok flat) (hs : later.flat = false)
    (ha : NameTable.Apart later.naming linked.references) :
    (∀ name, name ∈ flat.builtinNames ↔ name ∈ linked.builtinNames) ∧
    ∀ ct ∈ model.contentTypes, ∃ d, flat.Prints later ct.id d ∧ linked.Prints later ct.id d := by
  have hbuiltins := ContentModel.mem_builtinNames_flat_iff hl hf
  refine ⟨hbuiltins, ?_⟩
  have hkeys (id : String) :
      id ∈ Entries.keys flat.schemas ↔ id ∈ Entries.keys linked.schemas := by
    rw [ContentModel.mem_keys_graph hf, ContentModel.mem_keys_graph hl]
  obtain ⟨hc, ht, hb⟩ := Graph.names_congr (ContentModel.nodup_keys_graph hl)
    (ContentModel.nodup_keys_graph hf) hkeys hbuiltins ha
  intro ct hct
  obtain ⟨node, made, hn, hlookup, hflat⟩ := ContentModel.exists_inlined hl hf hct
  obtain ⟨ml, hml⟩ := ContentModel.exists_toModule_linked hl hs
  obtain ⟨mf, hmf⟩ := ContentModel.exists_toModule_linked hf hs
  obtain ⟨d, hd, hprints⟩ := Graph.prints_of_contentType hml hlookup
  obtain ⟨d', hd', hprints'⟩ := Graph.prints_of_contentType hmf hflat
  rw [Outline.contentType_inline (o := linked.outline later) hs hs hc ht hb rfl hn] at hd'
  obtain rfl := Except.ok.inj (hd'.symm.trans hd)
  exact ⟨d', hprints', hprints⟩

/-- A content type with an asset and a link to content types. -/
def illustrated (id : String) (targets : List String) : ContentType :=
  let picture : Field := ⟨"picture", "", ⟨"Link", some "Asset", []⟩, [], true, false⟩
  { linking id 0 targets with fields := picture :: (linking id 0 targets).fields }

theorem flat_graph_declares_links_illustrated :
    ∃ linked flat d,
      (⟨[illustrated "a" ["b"], illustrated "b" []]⟩ : ContentModel).graph linkedSettings =
        .ok linked ∧
      (⟨[illustrated "a" ["b"], illustrated "b" []]⟩ : ContentModel).graph flatSettings =
        .ok flat ∧
      "contentfulAsset" ∈ flat.builtinNames ∧
      flat.Prints linkedSettings "a" d ∧ linked.Prints linkedSettings "a" d := by
  obtain ⟨linked, hl, ha, hb⟩ : ∃ linked,
      (⟨[illustrated "a" ["b"], illustrated "b" []]⟩ : ContentModel).graph linkedSettings =
        .ok linked ∧ NameTable.Apart linkedSettings.naming linked.references ∧
      "contentfulAsset" ∈ linked.builtinNames := ⟨_, rfl, ⟨by decide, by decide⟩, by decide⟩
  obtain ⟨flat, hf⟩ : ∃ flat,
      (⟨[illustrated "a" ["b"], illustrated "b" []]⟩ : ContentModel).graph flatSettings =
        .ok flat := by with_unfolding_all exact ⟨_, rfl⟩
  obtain ⟨hbuiltins, hall⟩ :=
    @flat_graph_declares_links _ Options.empty.resolve _ _ _ hl hf rfl ha
  obtain ⟨d, hflat, hlinked⟩ := hall (illustrated "a" ["b"]) List.mem_cons_self
  exact ⟨linked, flat, d, hl, hf, (hbuiltins _).2 hb, hflat, hlinked⟩

end ContentSchema
