import ContentSchema.Proofs.Graph.Coverage
import ContentSchema.Validator.Equality

/-! # Content types in another order

A graph does not depend on the order in which a model lists its content types. Flat, this needs that
the dependencies cover what is copied, as they do without lists of lists.
-/

namespace ContentSchema

namespace ContentType

variable {types types' sorted : List ContentType}

theorem exists_order_of_perm (hp : types'.Perm types) (hn : (types.map (·.id)).Nodup)
    (h : order types = .ok sorted) : ∃ sorted', order types' = .ok sorted' := by
  cases ho : order types' with
  | ok sorted' => exact ⟨sorted', rfl⟩
  | error circle =>
    have hn' : (types'.map (·.id)).Nodup := (hp.map _).nodup_iff.2 hn
    have hd : Depends types' ≤ Depends types := by
      rintro a b ⟨ha, hb, hd⟩
      exact ⟨hp.mem_iff.1 ha, hp.mem_iff.1 hb, hd⟩
    have hc := Relation.TransGen.mono hd _ _ (order_error hn' ho).transGen
    exact absurd hc (acyclic_depends hn h circle.first)

end ContentType

namespace ContentModel

variable {model model' : ContentModel} {settings : Settings} {graph graph' : Graph}
  {schemas : List (String × Node)} {ct : ContentType}

theorem linked_congr (h : ∀ id, id ∈ model'.ids ↔ id ∈ model.ids) (settings : Settings)
    (ct : ContentType) : model'.linked settings ct = model.linked settings ct := by
  apply Scope.mapContentType_congr
  case hl =>
    intro field targets
    simp only [Scope.entryLink_eq, Scope.linked, h]
    rfl
  all_goals rfl

theorem entries_addSchema (hs : ∀ e ∈ schemas, e.2.IsEntry) {next : List (String × Node)}
    (h : (model.addSchema settings schemas ct).outcome = .ok next) : ∀ e ∈ next, e.2.IsEntry := by
  rw [addSchema_eq fun _ => hs] at h
  obtain ⟨node, hn, rfl⟩ := Report.outcome_map_eq_ok.1 h
  have hnode : node.IsEntry := Scope.isEntry_mapContentType hn
  intro e he
  rcases Entries.mem_of_mem_put he with rfl | he
  · dsimp only
    split
    · exact hnode.inline schemas
    · exact hnode
  · exact hs e he

/-- A model has a graph just where no id is used twice, the content types can be put in sequence and
each has a linked node. -/
theorem exists_graph_iff :
    (∃ graph, model.graph settings = .ok graph) ↔
      model.ids.Nodup ∧ (∃ types, model.sequence settings = .ok types) ∧
        ∀ ct ∈ model.contentTypes, ∃ node, (model.linked settings ct).outcome = .ok node := by
  -- whether a content type can be added does not depend on the schemas that are there
  have mapped (types : List ContentType) :
      (∃ schemas, (types.foldlM (model.addSchema settings) []).outcome = .ok schemas) ↔
        ∀ ct ∈ types, ∃ node, (model.linked settings ct).outcome = .ok node := by
    refine Report.exists_outcome_foldlM_iff (P := fun schemas => ∀ e ∈ schemas, e.2.IsEntry)
      (by simp) (fun ct _ schemas next hs => entries_addSchema hs) (fun ct schemas hs => ?_)
    rw [addSchema_eq fun _ => hs]
    simp only [Report.outcome_map_eq_ok]
    constructor
    · rintro ⟨-, node, hn, -⟩
      exact ⟨node, hn⟩
    · rintro ⟨node, hn⟩
      exact ⟨_, node, hn, rfl⟩
  constructor
  · rintro ⟨graph, h⟩
    obtain ⟨hn, types, hs, ha, -⟩ := graph_eq_ok_iff.1 h
    refine ⟨hn, ⟨types, hs⟩, fun ct hct => ?_⟩
    exact (mapped types).1 ⟨_, ha⟩ ct ((perm_of_sequence hn hs).mem_iff.2 hct)
  · rintro ⟨hn, ⟨types, hs⟩, hl⟩
    obtain ⟨schemas, ha⟩ := (mapped types).2 fun ct hct =>
      hl ct ((perm_of_sequence hn hs).mem_iff.1 hct)
    exact ⟨⟨schemas, _⟩, graph_eq_ok_iff.2 ⟨hn, types, hs, ha, rfl⟩⟩

theorem perm_warnings_graph (h : model.graph settings = .ok graph) :
    graph.warnings.Perm
      (model.contentTypes.flatMap fun ct => (model.linked settings ct).messages) := by
  obtain ⟨hn, types, hs, ha, hw⟩ := graph_eq_ok_iff.1 h
  have hf := Report.warnings_foldlM (P := fun schemas => ∀ e ∈ schemas, e.2.IsEntry)
    (w := fun ct => (model.linked settings ct).warnings) (by simp)
    (fun ct _ schemas next hs => entries_addSchema hs)
    (fun ct schemas hs => by rw [addSchema_eq fun _ => hs, Report.warnings_map]) ha
  rw [← hw, Report.messages, hf, List.map_flatMap]
  exact (perm_of_sequence hn hs).flatMap_right _

theorem exists_sequence_of_perm (hp : model'.contentTypes.Perm model.contentTypes)
    (hn : model.ids.Nodup) (h : ∃ types, model.sequence settings = .ok types) :
    ∃ types, model'.sequence settings = .ok types := by
  cases hf : settings.flat with
  | true =>
    obtain ⟨types, h⟩ := h
    obtain ⟨types', h'⟩ := ContentType.exists_order_of_perm hp hn ((sequence_of_flat hf).1 h)
    exact ⟨types', (sequence_of_flat hf).2 h'⟩
  | false => exact ⟨_, sequence_of_linked hf⟩

theorem exists_graph_of_perm (hp : model'.contentTypes.Perm model.contentTypes)
    (h : ∃ graph, model.graph settings = .ok graph) :
    ∃ graph, model'.graph settings = .ok graph := by
  have hids : model'.ids.Perm model.ids := hp.map _
  obtain ⟨hn, hs, hl⟩ := exists_graph_iff.1 h
  refine exists_graph_iff.2 ⟨hids.nodup_iff.2 hn, exists_sequence_of_perm hp hn hs, fun ct hct => ?_⟩
  rw [linked_congr fun id => hids.mem_iff]
  exact hl ct (hp.mem_iff.1 hct)

/-- Along the order, schemas that stand for the same linked nodes are the same. -/
theorem lookup_eq_of_ordered {known : List String} {types : List ContentType}
    {flat flat' : List (String × Node)} (ho : ContentType.Ordered known types)
    (h : ∀ ct ∈ types, ∃ node : Node, flat.lookup ct.id = some (node.inline flat) ∧
      flat'.lookup ct.id = some (node.inline flat') ∧
      ∀ id ∈ node.contentTypeReferences, id ∈ ct.dependencies ∧ id ∈ known)
    (hct : ct ∈ types) : flat'.lookup ct.id = flat.lookup ct.id := by
  induction ho generalizing ct with
  | nil => cases hct
  | @snoc before last _ hi hd ih =>
    rw [List.forall_mem_append] at h
    rcases List.mem_append.1 hct with hct | hct
    · exact ih h.1 hct
    · obtain rfl := List.mem_singleton.1 hct
      obtain ⟨node, hl, hl', hr⟩ := h.2 ct hct
      rw [hl, hl']
      refine congrArg some (Node.inline_congr fun id hid => ?_)
      obtain ⟨target, ht, rfl⟩ := List.mem_map.1 (hd id (hr id hid).1 (hr id hid).2)
      exact ih h.1 ht

theorem lookup_eq_of_flat (hf : settings.flat = true)
    (hp : model'.contentTypes.Perm model.contentTypes)
    (hc : ∀ ct ∈ model.contentTypes, ct.Covered model.ids)
    (h : model.graph settings = .ok graph) (h' : model'.graph settings = .ok graph')
    (hct : ct ∈ model.contentTypes) : graph'.schemas.lookup ct.id = graph.schemas.lookup ct.id := by
  have hids : ∀ id, id ∈ model'.ids ↔ id ∈ model.ids := fun id => (hp.map _).mem_iff
  have hc' : ∀ ct ∈ model'.contentTypes, ct.Covered model'.ids := by
    rintro ct hct target ⟨hk, hr⟩
    exact hc ct (hp.mem_iff.1 hct) target ⟨(hids target).1 hk, hr⟩
  obtain ⟨types, ho, htypes, hflat⟩ := flattened_graph hf hc h
  obtain ⟨types', -, htypes', hflat'⟩ := flattened_graph hf hc' h'
  refine lookup_eq_of_ordered ho (fun ct hct => ?_) (htypes.mem_iff.2 hct)
  have hm := htypes.mem_iff.1 hct
  obtain ⟨node, hn, -, hl⟩ := hflat.inlined ct hct
  obtain ⟨node', hn', -, hl'⟩ := hflat'.inlined ct (htypes'.mem_iff.2 (hp.mem_iff.2 hm))
  rw [linked_congr hids] at hn'
  obtain rfl := Except.ok.inj (hn'.symm.trans hn)
  refine ⟨node', hl, hl', fun id hid => ?_⟩
  have hr := (mem_references_linked hn).1 hid
  exact ⟨hc ct hm id hr, hr.1⟩

theorem lookup_eq_of_linked (hf : settings.flat = false)
    (hp : model'.contentTypes.Perm model.contentTypes)
    (h : model.graph settings = .ok graph) (h' : model'.graph settings = .ok graph')
    (hct : ct ∈ model.contentTypes) : graph'.schemas.lookup ct.id = graph.schemas.lookup ct.id := by
  obtain ⟨node, hn, hl⟩ := lookup_linked_graph hf h hct
  obtain ⟨node', hn', hl'⟩ := lookup_linked_graph hf h' (hp.mem_iff.2 hct)
  rw [linked_congr fun id => (hp.map _).mem_iff] at hn'
  rw [hl, hl', Except.ok.inj (hn'.symm.trans hn)]

end ContentModel

/-- The order in which a model lists its content types decides neither whether it has a graph nor of
what the graph warns, but only in which order it does so. Nor does it decide which schema stands for
an id, unless content types that link to each other through lists of lists are flattened. -/
theorem graph_permuted {model model' : ContentModel} (settings : Settings)
    (hp : model'.contentTypes.Perm model.contentTypes) :
    ((∃ graph, model'.graph settings = .ok graph) ↔ ∃ graph, model.graph settings = .ok graph) ∧
    ∀ graph graph', model.graph settings = .ok graph → model'.graph settings = .ok graph' →
      graph'.warnings.Perm graph.warnings ∧
      ((settings.flat = true → ∀ ct ∈ model.contentTypes, ∀ f ∈ ct.fields, ¬ f.isNested) →
        ∀ id, graph'.schemas.lookup id = graph.schemas.lookup id) := by
  have hids : ∀ id, id ∈ model'.ids ↔ id ∈ model.ids := fun id => (hp.map _).mem_iff
  refine ⟨⟨ContentModel.exists_graph_of_perm hp.symm, ContentModel.exists_graph_of_perm hp⟩, ?_⟩
  intro graph graph' h h'
  constructor
  · have hw := ContentModel.perm_warnings_graph h'
    simp only [ContentModel.linked_congr hids] at hw
    exact (hw.trans (hp.flatMap_right _)).trans (ContentModel.perm_warnings_graph h).symm
  · intro hnested id
    by_cases hid : id ∈ model.ids
    · obtain ⟨ct, hct, rfl⟩ := List.mem_map.1 hid
      cases hf : settings.flat with
      | true =>
        have hc : ∀ ct ∈ model.contentTypes, ct.Covered model.ids := fun ct hct =>
          ContentType.covered_of_not_nested (hnested hf ct hct) model.ids
        exact ContentModel.lookup_eq_of_flat hf hp hc h h' hct
      | false => exact ContentModel.lookup_eq_of_linked hf hp h h' hct
    · have hn : graph.schemas.lookup id = none :=
        Entries.lookup_eq_none_iff.2 (mt (ContentModel.mem_keys_graph h).1 hid)
      have hn' : graph'.schemas.lookup id = none :=
        Entries.lookup_eq_none_iff.2
          (mt (ContentModel.mem_keys_graph h').1 (mt (hids id).1 hid))
      rw [hn, hn']

/-- A content type is flattened to the same schema whether it comes before or after the one that it
links to. -/
theorem graph_permuted_linking :
    [linking "a" 0 [], linking "b" 1 ["a", "c"]].Perm [linking "b" 1 ["a", "c"], linking "a" 0 []] ∧
    ∃ graph graph',
      (⟨[linking "b" 1 ["a", "c"], linking "a" 0 []]⟩ : ContentModel).graph flatSettings =
        .ok graph ∧
      (⟨[linking "a" 0 [], linking "b" 1 ["a", "c"]]⟩ : ContentModel).graph flatSettings =
        .ok graph' ∧
      graph'.warnings.Perm graph.warnings ∧
      ∀ id, graph'.schemas.lookup id = graph.schemas.lookup id := by
  have hp : [linking "a" 0 [], linking "b" 1 ["a", "c"]].Perm
      [linking "b" 1 ["a", "c"], linking "a" 0 []] := .swap _ _ _
  obtain ⟨hiff, h⟩ := @graph_permuted ⟨[linking "b" 1 ["a", "c"], linking "a" 0 []]⟩
    ⟨[linking "a" 0 [], linking "b" 1 ["a", "c"]]⟩ flatSettings hp
  obtain ⟨graph, hg⟩ : ∃ graph, (⟨[linking "b" 1 ["a", "c"], linking "a" 0 []]⟩ :
      ContentModel).graph flatSettings = .ok graph := by
    with_unfolding_all exact ⟨_, rfl⟩
  obtain ⟨graph', hg'⟩ := hiff.2 ⟨graph, hg⟩
  obtain ⟨hw, hl⟩ := h graph graph' hg hg'
  refine ⟨hp, graph, graph', hg, hg', hw, hl fun _ => ?_⟩
  simp [linking, Field.isNested]

/-- A list of lists is no dependency, and what it links to is copied only if it happens to come
first. -/
example :
    ((⟨[linking "b" 2 ["a"], linking "a" 0 []]⟩ : ContentModel).graph flatSettings).toOption.map
        (·.schemas.lookup "b") ≠
      ((⟨[linking "a" 0 [], linking "b" 2 ["a"]]⟩ : ContentModel).graph flatSettings).toOption.map
        (·.schemas.lookup "b") := by
  decide +kernel

end ContentSchema
