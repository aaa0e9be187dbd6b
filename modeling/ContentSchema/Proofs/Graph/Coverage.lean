import ContentSchema.Proofs.Graph.Inlining

/-! # Dependencies and references

The dependencies of a content type cover its references unless a list of lists leads further. Where
they do, flat schemas have a schema for each reference, and references that go in a circle are
found.
-/

namespace ContentSchema

variable {model : ContentModel} {settings : Settings} {graph : Graph}

/-- The schema of `a` refers to the content type `b`. -/
def Graph.Refers (graph : Graph) (a b : String) : Prop :=
  ∃ node, graph.schemas.lookup a = some node ∧ b ∈ node.contentTypeReferences

theorem Scope.references_covered_iff {scope : Scope} {ct : ContentType} {node : Node}
    (hf : scope.settings.flat = false) (h : (scope.mapContentType ct).outcome = .ok node) :
    (∀ id ∈ node.contentTypeReferences, id ∈ ct.dependencies) ↔ ct.Covered scope.known := by
  constructor
  · intro hr id hid
    exact hr id ((mem_references_mapContentType hf h).2 hid)
  · intro hc id hid
    exact hc id ((mem_references_mapContentType hf h).1 hid)

theorem Node.linkTarget_eq_openLink_iff {schemas : List (String × Node)} {id : String}
    (hs : ∀ e ∈ schemas, e.2.IsEntry) :
    linkTarget (some schemas) id = openLink ↔ id ∉ Entries.keys schemas := by
  rw [← Entries.lookup_eq_none_iff, linkTarget]
  cases hl : schemas.lookup id with
  | none => simp
  | some node => simpa using (hs _ (Entries.mem_of_lookup hl)).ne_openLink

namespace ContentModel

theorem depends_of_refers (hf : settings.flat = false) (h : model.graph settings = .ok graph)
    (hc : ∀ ct ∈ model.contentTypes, ct.Covered model.ids) {a b : String}
    (hr : graph.Refers a b) :
    ∃ ct ∈ model.contentTypes, ct.id = a ∧ b ∈ ct.dependencies ∧ b ∈ model.ids := by
  obtain ⟨node, hl, hb⟩ := hr
  obtain ⟨ct, hct, rfl, hn⟩ := exists_of_lookup_linked_graph hf h hl
  have hb := (mem_references_linked hn).1 hb
  exact ⟨ct, hct, rfl, hc ct hct b hb, hb.1⟩

theorem order_error_of_circle (hf : settings.flat = false) (h : model.graph settings = .ok graph)
    (hc : ∀ ct ∈ model.contentTypes, ct.Covered model.ids) {id : String}
    (hr : Relation.TransGen graph.Refers id id) :
    ∃ circle, ContentType.order model.contentTypes = .error circle := by
  have hn : model.ids.Nodup := (graph_eq_ok_iff.1 h).1
  have step (i : Fin model.contentTypes.length) (b : String)
      (hb : graph.Refers model.contentTypes[i].id b) :
      ∃ j : Fin model.contentTypes.length, model.contentTypes[j].id = b ∧
        Order.Leads (ContentType.links model.contentTypes) i j := by
    obtain ⟨ct, hct, hid, hd, hk⟩ := depends_of_refers hf h hc hb
    obtain rfl : ct = model.contentTypes[i] :=
      List.inj_on_of_nodup_map hn hct (List.getElem_mem _) hid
    obtain ⟨ct', hct', rfl⟩ := List.mem_map.1 hk
    obtain ⟨k, hlt, rfl⟩ := List.getElem_of_mem hct'
    exact ⟨⟨k, hlt⟩, rfl, (ContentType.mem_links_iff hn).2 hd⟩
  obtain ⟨b, hb, -⟩ := Relation.TransGen.head'_iff.1 hr
  obtain ⟨ct, hct, rfl, -⟩ := depends_of_refers hf h hc hb
  obtain ⟨k, hlt, rfl⟩ := List.getElem_of_mem hct
  obtain ⟨j, hj, hl⟩ :=
    exists_transGen (f := fun i : Fin model.contentTypes.length => model.contentTypes[i].id) step
      (a := ⟨k, hlt⟩) hr
  obtain rfl : j = ⟨k, hlt⟩ := ContentType.eq_of_id_eq hn hj
  cases ho : ContentType.order model.contentTypes with
  | ok sorted => exact absurd hl (ContentType.acyclic_of_order_ok ho _)
  | error circle => exact ⟨circle, rfl⟩

end ContentModel

/-- The references of a content type are dependencies just where these cover what its fields lead
to, as they do without lists of lists. Flat, a known target of a link is copied just where it comes
before the link in the order, and left open otherwise. -/
theorem references_covered (ct : ContentType) (model : ContentModel) (settings : Settings) :
    (∀ (scope : Scope) (node : Node), scope.settings.flat = false →
      (scope.mapContentType ct).outcome = .ok node →
      ((∀ id ∈ node.contentTypeReferences, id ∈ ct.dependencies) ↔ ct.Covered scope.known)) ∧
    ((∀ f ∈ ct.fields, ¬ f.isNested) → ∀ known, ct.Covered known) ∧
    (∀ graph before after, settings.flat = true → model.graph settings = .ok graph →
      ContentType.order model.contentTypes = .ok (before ++ ct :: after) →
      ∃ made node, (model.linked settings ct).outcome = .ok node ∧
        graph.schemas.lookup ct.id = some (node.inline made) ∧
        ∀ id, Node.linkTarget (some made) id = Node.openLink ↔ id ∉ before.map (·.id)) ∧
    ((∀ ct ∈ model.contentTypes, ct.Covered model.ids) →
      (∀ graph, settings.flat = true → model.graph settings = .ok graph →
        ∀ ct ∈ model.contentTypes, ∃ node, (model.linked settings ct).outcome = .ok node ∧
          graph.schemas.lookup ct.id = some (node.inline graph.schemas) ∧
          ∀ id ∈ node.contentTypeReferences,
            Node.linkTarget (some graph.schemas) id ≠ Node.openLink) ∧
      ∀ graph, settings.flat = false → model.graph settings = .ok graph →
        (∃ id, Relation.TransGen graph.Refers id id) →
        ∃ circle, ContentType.order model.contentTypes = .error circle) := by
  refine ⟨fun scope node => Scope.references_covered_iff, ContentType.covered_of_not_nested, ?_, ?_⟩
  · intro graph before after hf h ho
    obtain ⟨hn, types, hs, ha, -⟩ := ContentModel.graph_eq_ok_iff.1 h
    obtain rfl := Except.ok.inj (((ContentModel.sequence_of_flat hf).1 hs).symm.trans ho)
    have hnt : ((before ++ ct :: after).map (·.id)).Nodup :=
      ((ContentType.order_ok hn ho).2.map _).nodup_iff.2 hn
    obtain ⟨made, node, hk, hm, hnode, hl⟩ := ContentModel.exists_of_foldlM_flat hf hnt ha
    exact ⟨made, node, hnode, hl, fun id => hk ▸ Node.linkTarget_eq_openLink_iff hm⟩
  · intro hc
    constructor
    · intro graph hf h ct hct
      obtain ⟨types, -, hp, hfl⟩ := ContentModel.flattened_graph hf hc h
      obtain ⟨node, hnode, hr, hl⟩ := hfl.inlined ct (hp.mem_iff.2 hct)
      refine ⟨node, hnode, hl, ?_⟩
      intro id hid ho
      exact (Node.linkTarget_eq_openLink_iff hfl.entries).1 ho (hr id hid)
    · rintro graph hf h ⟨id, hr⟩
      exact ContentModel.order_error_of_circle hf h hc hr

/-- A content type of this id with one field, which links to these content types at the end of
lists in lists. -/
def linking (id : String) (lists : Nat) (targets : List String) : ContentType :=
  let link : Descriptor := ⟨"Link", some "Entry", [⟨some (.many targets), none⟩]⟩
  let list : Descriptor := ⟨"Array", none, []⟩
  ⟨id, "", none, none,
    [match lists with
      | 0 => ⟨"next", "", link, [], true, false⟩
      | n + 1 => ⟨"next", "", list, List.replicate n list ++ [link], true, false⟩]⟩

def linkedSettings : Settings := { Options.empty.resolve with flat := false }

def flatSettings : Settings := { Options.empty.resolve with flat := true }

/-- Single links and lists of links are covered: they are copied, and their circles are found. -/
theorem references_covered_linking :
    (linking "a" 1 ["a"]).Covered ["a"] ∧
    (∃ graph, (⟨[linking "b" 1 ["a"], linking "a" 0 []]⟩ : ContentModel).graph flatSettings =
        .ok graph ∧
      Node.linkTarget (some graph.schemas) "a" ≠ Node.openLink) ∧
    ∃ graph, (⟨[linking "a" 1 ["b"], linking "b" 0 ["a"]]⟩ : ContentModel).graph linkedSettings =
        .ok graph ∧
      Relation.TransGen graph.Refers "a" "a" ∧
      ∃ circle, ContentType.order [linking "a" 1 ["b"], linking "b" 0 ["a"]] = .error circle := by
  have hflat (id : String) (targets : List String) (n : Nat) (hn : n < 2) (known : List String) :
      (linking id n targets).Covered known := by
    refine (references_covered _ ⟨[]⟩ linkedSettings).2.1 ?_ known
    rcases n with _ | _ | n
    · simp [linking, Field.isNested]
    · simp [linking, Field.isNested]
    · omega
  refine ⟨hflat _ _ 1 (by omega) _, ?_, ?_⟩
  · obtain ⟨graph, h⟩ : ∃ graph, (⟨[linking "b" 1 ["a"], linking "a" 0 []]⟩ : ContentModel).graph
        flatSettings = .ok graph := by with_unfolding_all exact ⟨_, rfl⟩
    refine ⟨graph, h, ?_⟩
    obtain ⟨-, -, -, covered⟩ := references_covered (linking "b" 1 ["a"])
      ⟨[linking "b" 1 ["a"], linking "a" 0 []]⟩ flatSettings
    obtain ⟨node, hn, -, hr⟩ :=
      (covered (by simp [hflat])).1 graph rfl h (linking "b" 1 ["a"]) List.mem_cons_self
    refine hr "a" ?_
    obtain ⟨n, hn', ha⟩ : ∃ n, ((⟨[linking "b" 1 ["a"], linking "a" 0 []]⟩ : ContentModel).linked
        flatSettings (linking "b" 1 ["a"])).outcome = .ok n ∧
        "a" ∈ n.contentTypeReferences := ⟨_, rfl, by decide⟩
    obtain rfl := Except.ok.inj (hn.symm.trans hn')
    exact ha
  · obtain ⟨graph, h, hr⟩ : ∃ graph,
        (⟨[linking "a" 1 ["b"], linking "b" 0 ["a"]]⟩ : ContentModel).graph linkedSettings =
          .ok graph ∧ graph.Refers "a" "b" ∧ graph.Refers "b" "a" :=
      ⟨_, rfl, ⟨_, rfl, by decide⟩, ⟨_, rfl, by decide⟩⟩
    have hc := Relation.TransGen.head hr.1 (.single hr.2)
    obtain ⟨-, -, -, covered⟩ := references_covered (linking "a" 1 ["b"])
      ⟨[linking "a" 1 ["b"], linking "b" 0 ["a"]]⟩ linkedSettings
    exact ⟨graph, h, hc, (covered (by simp [hflat])).2 graph rfl h ⟨"a", hc⟩⟩

/-- A list of lists of links to its own content type is not among the dependencies: its circle is
not found, and flat, the link is left open although its target is there. -/
theorem nested_references_not_covered :
    (∃ node, (Scope.mapContentType ⟨linkedSettings, ["a"], [], "a"⟩
        (linking "a" 2 ["a"])).outcome = .ok node ∧
      "a" ∈ node.contentTypeReferences ∧ "a" ∉ (linking "a" 2 ["a"]).dependencies) ∧
    (∃ graph, (⟨[linking "a" 2 ["a"]]⟩ : ContentModel).graph linkedSettings = .ok graph ∧
      graph.Refers "a" "a" ∧
      ContentType.order [linking "a" 2 ["a"]] = .ok [linking "a" 2 ["a"]]) ∧
    ∃ graph, (⟨[linking "a" 2 ["a"]]⟩ : ContentModel).graph flatSettings = .ok graph ∧
      graph.schemas.lookup "a" = some (.record
        [("sys", Scope.discriminant "a"),
          ("fields", .record [("next",
            (Node.openLink.withLinks ⟨["a"], false, false⟩).listed.listed)]
            flatSettings.objectPolicy)]
        flatSettings.objectPolicy) := by
  refine ⟨⟨_, rfl, by decide, by decide⟩, ⟨_, rfl, ⟨_, rfl, by decide⟩, by cbv⟩, ?_⟩
  with_unfolding_all exact ⟨_, rfl, rfl⟩

end ContentSchema
