import ContentSchema.Proofs.Graph.Assembly
import ContentSchema.Proofs.Graph.References
import ContentSchema.Proofs.Validator.Inlining

/-! # Flat graphs

The node of a content type in a flat graph is its linked node with the schemas of the graph in place
of the references, as long as the dependencies cover what is referred to.
-/

namespace ContentSchema

/-- A node as content types have it: untagged, with a part for the system and a part for fields. -/
def Node.IsEntry (node : Node) : Prop :=
  node.tags = .empty ∧ ∃ sys fields, node.shape? = some [("sys", sys), ("fields", fields)]

theorem Node.IsEntry.links {node : Node} (h : node.IsEntry) : node.tags.links = none := by
  rw [h.1]
  rfl

theorem Node.IsEntry.ne_openLink {node : Node} (h : node.IsEntry) : node ≠ openLink := by
  rintro rfl
  obtain ⟨-, sys, fields, hs⟩ := h
  cases hs

theorem Node.IsEntry.inline {node : Node} (h : node.IsEntry) (schemas : List (String × Node)) :
    (node.inline schemas).IsEntry := by
  obtain ⟨ht, sys, fields, hs⟩ := h
  cases node with
  | object shape policy tags =>
    obtain rfl : tags = .empty := ht
    obtain rfl := Option.some.inj hs
    exact ⟨rfl, _, _, rfl⟩
  | _ => cases hs

theorem Node.inline_of_basic {schemas : List (String × Node)} {node : Node} (h : node.Basic) :
    node.inline schemas = node :=
  inline_of_no_references (by simp [contentTypeReferences_of_basic h])

namespace Scope

variable {scope : Scope}

def linked (scope : Scope) : Scope :=
  { scope with settings := { scope.settings with flat := false }, produced := [] }

theorem unknown_linked : scope.linked.settings.unknown = scope.settings.unknown := rfl

theorem contentType_linked : scope.linked.contentType = scope.contentType := rfl

theorem mapContentType_of_linked (h : scope.settings.flat = false) (ct : ContentType) :
    scope.mapContentType ct = scope.linked.mapContentType ct := by
  refine mapContentType_congr unknown_linked rfl contentType_linked (fun field targets => ?_) ct
  rw [entryLink_eq, entryLink_eq, copies_linked h, copies_linked rfl]
  rfl

theorem mapContentType_of_flat (h : scope.settings.flat = true)
    (hp : ∀ e ∈ scope.produced, e.2.tags.links = none) (ct : ContentType) :
    scope.mapContentType ct =
      Node.inline scope.produced <$> scope.linked.mapContentType ct := by
  have hc : scope.copies = some scope.produced := copies_flat h
  have he : ct.fields.mapM scope.mapEntry =
      List.map (fun e => (e.1, e.2.inline scope.produced)) <$>
        ct.fields.mapM scope.linked.mapEntry := by
    refine mapEntries_map unknown_linked contentType_linked (fun _ => Node.inline_of_basic)
      (fun field targets => ?_) (fun _ => Node.inline_listed) (fun _ => Node.inline_wrapped) ct.fields
    rw [entryLink_eq, entryLink_eq, hc, copies_linked rfl, Report.map_eq]
    exact congrArg (Report.mk _) (congrArg Except.ok (Node.inline_link hp _).symm)
  have hd : (discriminant ct.id).inline scope.produced = discriminant ct.id :=
    Node.inline_of_no_references (by simp [contentTypeReferences_discriminant])
  rw [mapContentType_eq, mapContentType_eq, he]
  simp only [Functor.map_map, Node.inline_record, List.map_cons, List.map_nil, hd]
  rfl

theorem isEntry_mapContentType {ct : ContentType} {node : Node}
    (h : (scope.mapContentType ct).outcome = .ok node) : node.IsEntry := by
  obtain ⟨entries, -, rfl⟩ := Report.outcome_map_eq_ok.1 (mapContentType_eq ct ▸ h)
  exact ⟨rfl, _, _, rfl⟩

theorem exists_of_mapContentType {ct : ContentType} {node : Node}
    (h : (scope.mapContentType ct).outcome = .ok node) :
    ∃ entries, (ct.fields.mapM scope.mapEntry).outcome = .ok entries ∧
      node = .object [("sys", discriminant ct.id),
        ("fields", .object (Entries.ofList entries) scope.settings.objectPolicy .empty)]
        scope.settings.objectPolicy .empty := by
  obtain ⟨entries, he, rfl⟩ := Report.outcome_map_eq_ok.1 (mapContentType_eq ct ▸ h)
  exact ⟨entries, he, rfl⟩

end Scope

namespace ContentModel

variable {model : ContentModel} {settings : Settings} {ct : ContentType} {node : Node}
  {schemas : List (String × Node)} {types : List ContentType}

def linked (model : ContentModel) (settings : Settings) (ct : ContentType) : Report Node :=
  (Scope.linked ⟨settings, model.ids, [], ct.id⟩).mapContentType ct

theorem mem_references_linked {id : String} (h : (model.linked settings ct).outcome = .ok node) :
    id ∈ node.contentTypeReferences ↔ ct.Reaches model.ids id :=
  Scope.mem_references_mapContentType rfl h

theorem addSchema_eq (hs : settings.flat = true → ∀ e ∈ schemas, e.2.IsEntry) :
    model.addSchema settings schemas ct =
      (fun node => Entries.put ct.id (if settings.flat then node.inline schemas else node) schemas)
        <$> model.linked settings ct := by
  cases hf : settings.flat with
  | true =>
    have hm : (⟨settings, model.ids, schemas, ct.id⟩ : Scope).mapContentType ct =
        Node.inline schemas <$> model.linked settings ct :=
      Scope.mapContentType_of_flat hf (fun e he => (hs hf e he).links) ct
    simp only [addSchema, hm, bind_pure_comp, Functor.map_map, if_true]
  | false =>
    have hm : (⟨settings, model.ids, schemas, ct.id⟩ : Scope).mapContentType ct =
        model.linked settings ct := Scope.mapContentType_of_linked hf ct
    simp only [addSchema, hm, bind_pure_comp, Bool.false_eq_true, if_false]

theorem addSchema_of_linked (h : settings.flat = false) (hi : ct.id ∉ Entries.keys schemas) :
    model.addSchema settings schemas ct =
      (fun node => schemas ++ [(ct.id, node)]) <$> model.linked settings ct := by
  rw [addSchema_eq (by simp [h])]
  simp only [h, Bool.false_eq_true, if_false, Entries.put_of_not_mem hi]

theorem addSchema_of_flat (h : settings.flat = true) (hs : ∀ e ∈ schemas, e.2.IsEntry)
    (hi : ct.id ∉ Entries.keys schemas) :
    model.addSchema settings schemas ct =
      (fun node => schemas ++ [(ct.id, node.inline schemas)]) <$> model.linked settings ct := by
  rw [addSchema_eq fun _ => hs]
  simp only [h, if_true, Entries.put_of_not_mem hi]

theorem foldlM_addSchema_of_linked (h : settings.flat = false) (hn : (types.map (·.id)).Nodup)
    (hd : ∀ ct ∈ types, ct.id ∉ Entries.keys schemas) :
    types.foldlM (model.addSchema settings) schemas =
      (schemas ++ ·) <$> types.mapM fun ct => (ct.id, ·) <$> model.linked settings ct := by
  induction types generalizing schemas with
  | nil => simp
  | cons ct rest ih =>
    rw [List.map_cons, List.nodup_cons] at hn
    rw [List.forall_mem_cons] at hd
    have hs (node : Node) : rest.foldlM (model.addSchema settings) (schemas ++ [(ct.id, node)]) =
        (schemas ++ [(ct.id, node)] ++ ·) <$>
          rest.mapM fun ct => (ct.id, ·) <$> model.linked settings ct := by
      apply ih hn.2
      intro ct' hct'
      have hne : ct'.id ≠ ct.id := fun he => hn.1 (he ▸ List.mem_map_of_mem hct')
      simpa [Entries.keys, hne] using hd.2 ct' hct'
    rw [List.foldlM_cons, addSchema_of_linked h hd.1, List.mapM_cons]
    simp only [bind_map_left, hs, map_bind, bind_pure_comp, Functor.map_map, List.append_assoc,
      List.singleton_append]

/-- The schemas that the content types are flattened to. -/
structure Flattened (model : ContentModel) (settings : Settings) (types : List ContentType)
    (schemas : List (String × Node)) : Prop where
  keys : Entries.keys schemas = types.map (·.id)
  entries : ∀ e ∈ schemas, e.2.IsEntry
  closed : ∀ e ∈ schemas, ∀ id, id ∉ e.2.contentTypeReferences
  inlined : ∀ ct ∈ types, ∃ node, (model.linked settings ct).outcome = .ok node ∧
    (∀ id ∈ node.contentTypeReferences, id ∈ Entries.keys schemas) ∧
    schemas.lookup ct.id = some (node.inline schemas)

theorem Flattened.snoc (h : model.Flattened settings types schemas)
    (hi : ct.id ∉ types.map (·.id)) (hn : (model.linked settings ct).outcome = .ok node)
    (hr : ∀ id ∈ node.contentTypeReferences, id ∈ types.map (·.id)) :
    model.Flattened settings (types ++ [ct]) (schemas ++ [(ct.id, node.inline schemas)]) := by
  rw [← h.keys] at hi hr
  have hk : Entries.keys (schemas ++ [(ct.id, node.inline schemas)]) =
      Entries.keys schemas ++ [ct.id] := by simp [Entries.keys]
  -- an addition at the end changes nothing for nodes that refer to what is there
  have extend {n : Node} (hn : ∀ id ∈ n.contentTypeReferences, id ∈ Entries.keys schemas) :
      n.inline schemas = n.inline (schemas ++ [(ct.id, node.inline schemas)]) := by
    apply Node.inline_congr
    intro id hid
    rw [List.lookup_append, Option.or_of_isSome (Entries.lookup_isSome_iff.2 (hn id hid))]
  refine ⟨by rw [hk, h.keys, List.map_append]; rfl, ?_, ?_, ?_⟩
  · intro e he
    rcases List.mem_append.1 he with he | he
    · exact h.entries e he
    · obtain rfl := List.mem_singleton.1 he
      exact (Scope.isEntry_mapContentType hn).inline schemas
  · intro e he
    rcases List.mem_append.1 he with he | he
    · exact h.closed e he
    · obtain rfl := List.mem_singleton.1 he
      exact Node.not_mem_contentTypeReferences_inline h.closed
  · intro ct' hct'
    rcases List.mem_append.1 hct' with hct' | hct'
    · obtain ⟨n, hn', hr', hl⟩ := h.inlined ct' hct'
      refine ⟨n, hn', ?_, ?_⟩
      · intro id hid
        rw [hk]
        exact List.mem_append_left _ (hr' id hid)
      · rw [← extend hr', List.lookup_append, hl, Option.some_or]
    · obtain rfl := List.mem_singleton.1 hct'
      refine ⟨node, hn, ?_, ?_⟩
      · intro id hid
        rw [hk]
        exact List.mem_append_left _ (hr id hid)
      · rw [← extend hr, Entries.lookup_append_of_not_mem hi, List.lookup_cons_self]

theorem foldlM_addSchema_snoc {before : List ContentType} :
    ((before ++ [ct]).foldlM (model.addSchema settings) []).outcome = .ok schemas ↔
      ∃ earlier, (before.foldlM (model.addSchema settings) []).outcome = .ok earlier ∧
        (model.addSchema settings earlier ct).outcome = .ok schemas := by
  simp only [List.foldlM_append, List.foldlM_cons, List.foldlM_nil, bind_pure,
    Report.outcome_bind_eq_ok]

theorem flattened_of_foldlM (hf : settings.flat = true)
    (ho : ContentType.Ordered model.ids types) (hc : ∀ ct ∈ types, ct.Covered model.ids)
    (h : (types.foldlM (model.addSchema settings) []).outcome = .ok schemas) :
    model.Flattened settings types schemas := by
  induction ho generalizing schemas with
  | nil =>
    obtain rfl := Except.ok.inj h
    exact ⟨rfl, by simp, by simp, by simp⟩
  | @snoc before ct ho hi hd ih =>
    obtain ⟨earlier, he, ha⟩ := foldlM_addSchema_snoc.1 h
    have hb := ih (fun ct hct => hc ct (List.mem_append_left _ hct)) he
    rw [addSchema_of_flat hf hb.entries (hb.keys ▸ hi), Report.outcome_map_eq_ok] at ha
    obtain ⟨node, hn, rfl⟩ := ha
    apply hb.snoc hi hn
    intro id hid
    have hr := (mem_references_linked hn).1 hid
    exact hd id (hc ct (List.mem_append_right _ (List.mem_singleton_self ct)) id hr) hr.1

theorem exists_foldlM_flat (hf : settings.flat = true) (ho : ContentType.Ordered model.ids types)
    (hc : ∀ ct ∈ types, ct.Covered model.ids)
    (hl : ∀ ct ∈ types, ∃ node, (model.linked settings ct).outcome = .ok node) :
    ∃ schemas, (types.foldlM (model.addSchema settings) []).outcome = .ok schemas := by
  induction ho with
  | nil => exact ⟨[], rfl⟩
  | @snoc before ct ho hi hd ih =>
    rw [List.forall_mem_append] at hc hl
    obtain ⟨earlier, he⟩ := ih hc.1 hl.1
    obtain ⟨node, hn⟩ := hl.2 ct (List.mem_singleton_self ct)
    have hb := flattened_of_foldlM hf ho hc.1 he
    refine ⟨earlier ++ [(ct.id, node.inline earlier)], foldlM_addSchema_snoc.2 ⟨earlier, he, ?_⟩⟩
    rw [addSchema_of_flat hf hb.entries (hb.keys ▸ hi)]
    exact Report.outcome_map_eq_ok.2 ⟨node, hn, rfl⟩

theorem foldlM_cons_of_flat (hf : settings.flat = true) (hs : ∀ e ∈ schemas, e.2.IsEntry)
    (hi : ct.id ∉ Entries.keys schemas) {all : List (String × Node)} :
    ((ct :: types).foldlM (model.addSchema settings) schemas).outcome = .ok all ↔
      ∃ node, (model.linked settings ct).outcome = .ok node ∧
        (types.foldlM (model.addSchema settings)
          (schemas ++ [(ct.id, node.inline schemas)])).outcome = .ok all := by
  rw [List.foldlM_cons, addSchema_of_flat hf hs hi, bind_map_left,
    Report.outcome_bind_eq_ok]

theorem foldlM_addSchema_of_flat (hf : settings.flat = true)
    (hs : ∀ e ∈ schemas, e.2.IsEntry) (hn : (Entries.keys schemas ++ types.map (·.id)).Nodup)
    {all : List (String × Node)}
    (h : (types.foldlM (model.addSchema settings) schemas).outcome = .ok all) :
    (∀ e ∈ all, e.2.IsEntry) ∧ ∃ later, all = schemas ++ later ∧
      Entries.keys later = types.map (·.id) := by
  induction types generalizing schemas with
  | nil =>
    obtain rfl := Except.ok.inj h
    exact ⟨hs, [], (List.append_nil _).symm, rfl⟩
  | cons ct rest ih =>
    have hi : ct.id ∉ Entries.keys schemas := fun hm =>
      (List.nodup_append.1 hn).2.2 _ hm _ List.mem_cons_self rfl
    obtain ⟨node, hnode, h⟩ := (foldlM_cons_of_flat hf hs hi).1 h
    have he := (Scope.isEntry_mapContentType hnode).inline schemas
    obtain ⟨hall, later, rfl, hk⟩ := ih (List.forall_mem_append.2 ⟨hs, by simpa using he⟩)
      (by simpa [Entries.keys] using hn) h
    refine ⟨hall, (ct.id, node.inline schemas) :: later, by simp, ?_⟩
    rw [Entries.keys_cons, hk, List.map_cons]

theorem exists_of_foldlM_flat (hf : settings.flat = true) {before after : List ContentType}
    (hn : ((before ++ ct :: after).map (·.id)).Nodup)
    (h : ((before ++ ct :: after).foldlM (model.addSchema settings) []).outcome = .ok schemas) :
    ∃ made node, Entries.keys made = before.map (·.id) ∧ (∀ e ∈ made, e.2.IsEntry) ∧
      (model.linked settings ct).outcome = .ok node ∧
      schemas.lookup ct.id = some (node.inline made) := by
  rw [List.map_append, List.map_cons] at hn
  rw [List.foldlM_append, Report.outcome_bind_eq_ok] at h
  obtain ⟨made, hmade, h⟩ := h
  have hb : (Entries.keys ([] : List (String × Node)) ++ before.map (·.id)).Nodup :=
    (List.nodup_append.1 hn).1
  obtain ⟨hs, _, rfl, hk⟩ := foldlM_addSchema_of_flat hf (by simp) hb hmade
  rw [← hk] at hn
  have hi : ct.id ∉ Entries.keys made := fun hm =>
    (List.nodup_append.1 hn).2.2 _ hm _ List.mem_cons_self rfl
  obtain ⟨node, hnode, h⟩ := (foldlM_cons_of_flat hf hs hi).1 h
  have he := (Scope.isEntry_mapContentType hnode).inline made
  obtain ⟨-, later, rfl, -⟩ := foldlM_addSchema_of_flat hf
    (List.forall_mem_append.2 ⟨hs, by simpa using he⟩) (by simpa [Entries.keys] using hn) h
  refine ⟨made, node, hk, hs, hnode, ?_⟩
  rw [List.append_assoc, Entries.lookup_append_of_not_mem hi, List.singleton_append,
    List.lookup_cons_self]

variable {graph : Graph}

/-- Where the dependencies cover the references, each schema of a flat graph is the linked one with
the schemas of the graph in place of the references. -/
theorem flattened_graph (hf : settings.flat = true)
    (hc : ∀ ct ∈ model.contentTypes, ct.Covered model.ids)
    (h : model.graph settings = .ok graph) :
    ∃ types, ContentType.Ordered model.ids types ∧ types.Perm model.contentTypes ∧
      model.Flattened settings types graph.schemas := by
  obtain ⟨hn, types, hs, ha, -⟩ := graph_eq_ok_iff.1 h
  obtain ⟨ho, hp⟩ := ContentType.order_ok hn ((sequence_of_flat hf).1 hs)
  exact ⟨types, ho, hp, flattened_of_foldlM hf ho (fun ct hct => hc ct (hp.mem_iff.1 hct)) ha⟩

theorem mem_keys_of_foldlM {start all : List (String × Node)}
    (h : (types.foldlM (model.addSchema settings) start).outcome = .ok all) {id : String} :
    id ∈ Entries.keys all ↔ id ∈ types.map (·.id) ∨ id ∈ Entries.keys start := by
  induction types generalizing start with
  | nil =>
    obtain rfl := Except.ok.inj h
    simp
  | cons ct rest ih =>
    rw [List.foldlM_cons, Report.outcome_bind_eq_ok] at h
    obtain ⟨next, hn, h⟩ := h
    obtain ⟨node, -, ho⟩ := Report.outcome_bind_eq_ok.1 hn
    obtain rfl := Except.ok.inj ho
    rw [ih h, Entries.mem_keys_put, List.map_cons, List.mem_cons, or_left_comm, or_assoc]

theorem mem_keys_graph (h : model.graph settings = .ok graph) {id : String} :
    id ∈ Entries.keys graph.schemas ↔ id ∈ model.ids := by
  obtain ⟨hn, types, hs, ha, -⟩ := graph_eq_ok_iff.1 h
  rw [mem_keys_of_foldlM ha, ids, ((perm_of_sequence hn hs).map (·.id)).mem_iff]
  simp

/-- The schemas of a linked graph are the nodes of the content types, in the order of the model. -/
theorem linked_graph (hf : settings.flat = false) (h : model.graph settings = .ok graph) :
    (model.contentTypes.mapM fun ct => (ct.id, ·) <$> model.linked settings ct).outcome =
      .ok graph.schemas := by
  obtain ⟨hn, types, hs, ha, -⟩ := graph_eq_ok_iff.1 h
  obtain rfl := Except.ok.inj ((sequence_of_linked hf).symm.trans hs)
  rw [foldlM_addSchema_of_linked hf hn (by simp)] at ha
  obtain ⟨entries, he, rfl⟩ := Report.outcome_map_eq_ok.1 ha
  exact he

theorem keys_linked_graph (hf : settings.flat = false) (h : model.graph settings = .ok graph) :
    Entries.keys graph.schemas = model.ids := by
  refine Report.map_eq_of_mapM (fun ct _ e hce => ?_) (linked_graph hf h)
  obtain ⟨node, -, rfl⟩ := Report.outcome_map_eq_ok.1 hce
  rfl

theorem lookup_linked_graph (hf : settings.flat = false) (h : model.graph settings = .ok graph)
    (hct : ct ∈ model.contentTypes) :
    ∃ node, (model.linked settings ct).outcome = .ok node ∧
      graph.schemas.lookup ct.id = some node := by
  have hn : (Entries.keys graph.schemas).Nodup := keys_linked_graph hf h ▸ (graph_eq_ok_iff.1 h).1
  obtain ⟨e, he, hce⟩ := Report.exists_mem_of_mapM (linked_graph hf h) hct
  obtain ⟨node, hnode, rfl⟩ := Report.outcome_map_eq_ok.1 hce
  exact ⟨node, hnode, (Entries.mem_iff_lookup hn).1 he⟩

theorem exists_of_lookup_linked_graph (hf : settings.flat = false)
    (h : model.graph settings = .ok graph) {id : String}
    (hl : graph.schemas.lookup id = some node) :
    ∃ ct ∈ model.contentTypes, ct.id = id ∧ (model.linked settings ct).outcome = .ok node := by
  obtain ⟨ct, hct, hce⟩ :=
    Report.exists_of_mem_mapM (linked_graph hf h) (Entries.mem_of_lookup hl)
  obtain ⟨n, hn, he⟩ := Report.outcome_map_eq_ok.1 hce
  obtain ⟨rfl, rfl⟩ := Prod.mk.inj he
  exact ⟨ct, hct, rfl, hn⟩

theorem exists_of_mem_linked_graph (hf : settings.flat = false)
    (h : model.graph settings = .ok graph) {e : String × Node} (he : e ∈ graph.schemas) :
    ∃ ct ∈ model.contentTypes, ct.id = e.1 ∧
      (Scope.mapContentType ⟨settings, model.ids, [], ct.id⟩ ct).outcome = .ok e.2 := by
  obtain ⟨ct, hct, hce⟩ := Report.exists_of_mem_mapM (linked_graph hf h) he
  obtain ⟨node, hn, rfl⟩ := Report.outcome_map_eq_ok.1 hce
  refine ⟨ct, hct, rfl, ?_⟩
  rw [Scope.mapContentType_of_linked hf]
  exact hn

/-- Flat, no schema refers to a content type, not even where the dependencies do not cover what is
referred to. -/
theorem no_references_flat_graph (hf : settings.flat = true) (h : model.graph settings = .ok graph) :
    ∀ e ∈ graph.schemas, ∀ id, id ∉ e.2.contentTypeReferences := by
  suffices ∀ e ∈ graph.schemas, e.2.IsEntry ∧ ∀ id, id ∉ e.2.contentTypeReferences from
    fun e he => (this e he).2
  refine graph_induct h fun ct _ made node hall hn => ?_
  have hentry : ∀ e ∈ made, e.2.tags.links = none := fun e he => (hall e he).1.links
  rw [Scope.mapContentType_of_flat hf hentry] at hn
  obtain ⟨linked, hl, rfl⟩ := Report.outcome_map_eq_ok.1 hn
  exact ⟨(Scope.isEntry_mapContentType hl).inline made,
    Node.not_mem_contentTypeReferences_inline fun e he => (hall e he).2⟩

end ContentModel

end ContentSchema
