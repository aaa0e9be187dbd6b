import ContentSchema.Proofs.Source.Flat

/-! # Two ways to inline

A model can be inlined while its graph is assembled, or while its linked graph is printed. Both fail
on the same circles, and where there are none they print the same schemas.
-/

namespace ContentSchema

open Source

variable {model : ContentModel} {settings : Settings} {graph linked : Graph}

namespace ContentModel

/-- No field holds a list of lists, and no two fields of a content type have one id. -/
structure Regular (model : ContentModel) : Prop where
  lists : ∀ ct ∈ model.contentTypes, ∀ f ∈ ct.fields, ¬ f.isNested
  fields : ∀ ct ∈ model.contentTypes, (ct.fields.map (·.id)).Nodup

theorem Regular.covered (h : model.Regular) :
    ∀ ct ∈ model.contentTypes, ct.Covered model.ids :=
  fun ct hct => ct.covered_of_not_nested (h.lists ct hct) _

theorem Regular.refers_of_depends (h : model.Regular) (hf : settings.flat = false)
    (hg : model.graph settings = .ok graph) {a b : ContentType}
    (hd : ContentType.Depends model.contentTypes a b) : graph.Refers a.id b.id := by
  obtain ⟨ha, hb, hd⟩ := hd
  obtain ⟨node, hn, hl⟩ := lookup_linked_graph hf hg ha
  exact ⟨node, hl, (mem_references_linked hn).2
    (ContentType.reaches_of_mem_dependencies (h.fields a ha) hd (List.mem_map_of_mem hb))⟩

/-- Where the linked graph is there, the flat one is missing only if there is no order. -/
theorem exists_flat_graph (h : model.Regular)
    (hl : model.graph { settings with flat := false } = .ok linked) {types : List ContentType}
    (ho : ContentType.order model.contentTypes = .ok types) :
    ∃ graph, model.graph { settings with flat := true } = .ok graph := by
  have hn : model.ids.Nodup := (graph_eq_ok_iff.1 hl).1
  obtain ⟨hord, hp⟩ := ContentType.order_ok hn ho
  have hnodes : ∀ ct ∈ types,
      ∃ node, (model.linked { settings with flat := true } ct).outcome = .ok node := by
    intro ct hct
    obtain ⟨node, hnode, -⟩ := lookup_linked_graph rfl hl (hp.mem_iff.1 hct)
    exact ⟨node, hnode⟩
  obtain ⟨schemas, hs⟩ := exists_foldlM_flat rfl hord
    (fun ct hct => h.covered ct (hp.mem_iff.1 hct)) hnodes
  exact ⟨⟨schemas, _⟩, graph_eq_ok_iff.2 ⟨hn, types, (sequence_of_flat rfl).2 ho, hs, rfl⟩⟩

/-- Both graphs of a regular model hold the content types, the flat one inlined. -/
theorem Regular.inlined (h : model.Regular)
    (hl : model.graph { settings with flat := false } = .ok linked)
    (hg : model.graph { settings with flat := true } = .ok graph) :
    ∃ types, ContentType.Ordered model.ids types ∧ types.Perm model.contentTypes ∧
      (∀ e ∈ graph.schemas, ∀ id, id ∉ e.2.contentTypeReferences) ∧
      ∀ ct ∈ types, ∃ node, linked.schemas.lookup ct.id = some node ∧
        graph.schemas.lookup ct.id = some (node.inline graph.schemas) ∧
        ∀ id ∈ node.contentTypeReferences, id ∈ ct.dependencies ∧ id ∈ model.ids := by
  obtain ⟨types, ho, hp, hfl⟩ := flattened_graph rfl h.covered hg
  refine ⟨types, ho, hp, hfl.closed, ?_⟩
  intro ct hct
  obtain ⟨node, hn, -, hi⟩ := hfl.inlined ct hct
  obtain ⟨node', hn', hk⟩ := lookup_linked_graph rfl hl (hp.mem_iff.1 hct)
  obtain rfl := Except.ok.inj (hn'.symm.trans hn)
  refine ⟨node', hk, hi, ?_⟩
  intro id hid
  have hr := (mem_references_linked hn).1 hid
  exact ⟨h.covered ct (hp.mem_iff.1 hct) id hr, hr.1⟩

theorem Regular.exists_expr (h : model.Regular)
    (hl : model.graph { settings with flat := false } = .ok linked)
    (hg : model.graph { settings with flat := true } = .ok graph) {id : String}
    (hid : id ∈ model.ids) :
    ∃ node node' e, (id, node) ∈ graph.schemas ∧ (id, node') ∈ linked.schemas ∧
      (graph.flatExpr { settings with flat := true } id node).outcome = .ok e ∧
      (linked.flatExpr { settings with flat := true } id node').outcome = .ok e := by
  obtain ⟨types, ho, hp, hclosed, hex⟩ := h.inlined hl hg
  obtain ⟨ct, hct, rfl⟩ := List.mem_map.1 hid
  obtain ⟨node, hn, hi, hr⟩ := hex ct (hp.mem_iff.2 hct)
  have hm := Entries.mem_of_lookup hi
  have hlinked : linked.flatExpr { settings with flat := true } ct.id node =
      (node.inline graph.schemas).expr Node.bare := by
    refine Outline.expr_inlined_eq ho hex (hp.mem_iff.2 hct) (fun id _ hne => ?_) hn
    rw [Entries.lookup_remove, if_neg hne]
  have hflat : graph.flatExpr { settings with flat := true } ct.id (node.inline graph.schemas) =
      (node.inline graph.schemas).expr Node.bare :=
    Node.expr_of_no_references (fun _ => Outline.inlined_builtin) (hclosed _ hm)
  obtain ⟨e, he⟩ := Node.exists_expr_bare (proper_graph hg _ hm).branched
  exact ⟨_, node, e, hm, Entries.mem_of_lookup hn, by rw [hflat, he], by rw [hlinked, he]⟩

theorem keys_flat_graph (h : model.Regular)
    (hg : model.graph { settings with flat := true } = .ok graph) {id : String} :
    id ∈ Entries.keys graph.schemas ↔ id ∈ model.ids := by
  obtain ⟨types, -, hp, hfl⟩ := flattened_graph rfl h.covered hg
  rw [hfl.keys, ids]
  exact (hp.map _).mem_iff

theorem Regular.exists_modules (h : model.Regular)
    (hl : model.graph { settings with flat := false } = .ok linked)
    (hg : model.graph { settings with flat := true } = .ok graph) :
    (∃ m, (graph.toModule { settings with flat := true }).outcome = .ok m) ∧
      ∃ m, (linked.toModule { settings with flat := true }).outcome = .ok m := by
  constructor
  · apply Graph.exists_toModule_of_flat rfl (proper_graph hg)
    intro entry hm
    have hid : entry.1 ∈ model.ids := (keys_flat_graph h hg).1 (List.mem_map_of_mem hm)
    obtain ⟨node, -, e, hn, -, he, -⟩ := h.exists_expr hl hg hid
    obtain rfl : node = entry.2 := Entries.eq_of_mem (nodup_keys_graph hg) hn hm
    exact ⟨e, he⟩
  · apply Graph.exists_toModule_of_flat rfl (proper_graph hl)
    intro entry hm
    have hid : entry.1 ∈ model.ids := keys_linked_graph rfl hl ▸ List.mem_map_of_mem hm
    obtain ⟨-, node, e, -, hn, -, he⟩ := h.exists_expr hl hg hid
    obtain rfl : node = entry.2 := Entries.eq_of_mem (nodup_keys_graph hl) hn hm
    exact ⟨e, he⟩

theorem Regular.not_toModule_of_order_error (h : model.Regular)
    (hl : model.graph { settings with flat := false } = .ok linked) {circle : Circle ContentType}
    (ho : ContentType.order model.contentTypes = .error circle) {m : Module} :
    (linked.toModule { settings with flat := true }).outcome ≠ .ok m := by
  intro hm
  have hc := (ContentType.order_error (graph_eq_ok_iff.1 hl).1 ho).transGen
  have hr : Relation.TransGen linked.Follows circle.first.id circle.first.id :=
    hc.lift (·.id) fun a b hd =>
      (Graph.follows_iff_refers (proper_graph hl)).2 (h.refers_of_depends rfl hl hd)
  obtain ⟨b, ⟨node, hn, -⟩, -⟩ := Relation.TransGen.head'_iff.1 hr
  obtain ⟨e, he⟩ := Graph.exists_flatExpr_of_toModule rfl (proper_graph hl) hm
    (Entries.mem_of_lookup hn)
  exact Outline.not_expr_ok_of_circle rfl hn hr he

end ContentModel

/-- A regular model can be inlined while its graph is assembled just where its linked graph can be
inlined while it is printed. Then both ways come to the same schemas, and if not, both fail on a
circle. -/
theorem inlining_agrees (h : model.Regular)
    (hl : model.graph { settings with flat := false } = .ok linked) :
    ((∃ graph, model.graph { settings with flat := true } = .ok graph) ↔
      ∃ printed, linked.print { settings with flat := true } = .ok printed) ∧
    (∀ graph, model.graph { settings with flat := true } = .ok graph →
      (∃ printed, graph.print { settings with flat := true } = .ok printed) ∧
      ∀ id ∈ model.ids, ∃ text, graph.Declares { settings with flat := true } id text ∧
        linked.Declares { settings with flat := true } id text) ∧
    (∀ e, model.graph { settings with flat := true } = .error e →
      ∃ first later, e = .dependencyCycle first later) ∧
    ∀ e, linked.print { settings with flat := true } = .error e →
      ∃ name around, e = .inliningCycle name around := by
  have hpl := ContentModel.proper_graph hl
  refine ⟨⟨?_, ?_⟩, ?_, ?_, fun e => Graph.exists_of_flat_print_error rfl hpl⟩
  · rintro ⟨graph, hg⟩
    obtain ⟨-, m, hm⟩ := h.exists_modules hl hg
    exact ⟨_, Graph.print_eq_ok_iff.2 ⟨m, hm, rfl⟩⟩
  · rintro ⟨printed, hp⟩
    obtain ⟨m, hm, -⟩ := Graph.print_eq_ok_iff.1 hp
    -- no order means that the content types refer to each other in a circle, which is not printed
    cases ho : ContentType.order model.contentTypes with
    | ok types => exact ContentModel.exists_flat_graph h hl ho
    | error circle => exact absurd hm (h.not_toModule_of_order_error hl ho)
  · intro graph hg
    obtain ⟨⟨m, hm⟩, m', hm'⟩ := h.exists_modules hl hg
    refine ⟨⟨_, Graph.print_eq_ok_iff.2 ⟨m, hm, rfl⟩⟩, ?_⟩
    intro id hid
    obtain ⟨node, node', e, hn, hn', he, he'⟩ := h.exists_expr hl hg hid
    exact ⟨e.render 0, Graph.declares_of_expr rfl (ContentModel.proper_graph hg) hm hn he,
      Graph.declares_of_expr rfl hpl hm' hn' he'⟩
  · intro e he
    cases ho : ContentType.order model.contentTypes with
    | ok types =>
      obtain ⟨graph, hg⟩ := ContentModel.exists_flat_graph h hl ho
      cases he.symm.trans hg
    | error circle =>
      have hc : model.graph { settings with flat := true } =
          .error (.dependencyCycle circle.first.id (circle.later.map (·.id))) :=
        ContentModel.graph_of_order_error (ContentModel.graph_eq_ok_iff.1 hl).1 rfl ho
      exact ⟨_, _, Except.error.inj (he.symm.trans hc)⟩

theorem inlining_agrees_linking :
    (∃ linked printed, (⟨[linking "a" 1 ["b"], linking "b" 0 []]⟩ : ContentModel).Regular ∧
      (⟨[linking "a" 1 ["b"], linking "b" 0 []]⟩ : ContentModel).graph linkedSettings = .ok linked ∧
      linked.print flatSettings = .ok printed ∧
      ∃ text, linked.Declares flatSettings "a" text) ∧
    ∃ linked name around, (⟨[linking "a" 1 ["b"], linking "b" 0 ["a"]]⟩ : ContentModel).Regular ∧
      (⟨[linking "a" 1 ["b"], linking "b" 0 ["a"]]⟩ : ContentModel).graph linkedSettings =
        .ok linked ∧
      linked.print flatSettings = .error (.inliningCycle name around) := by
  constructor
  · have hr : (⟨[linking "a" 1 ["b"], linking "b" 0 []]⟩ : ContentModel).Regular :=
      ⟨by simp [linking, Field.isNested], by simp [linking]⟩
    obtain ⟨linked, hl⟩ : ∃ linked, (⟨[linking "a" 1 ["b"], linking "b" 0 []]⟩ :
        ContentModel).graph linkedSettings = .ok linked := ⟨_, rfl⟩
    obtain ⟨graph, hg⟩ : ∃ graph, (⟨[linking "a" 1 ["b"], linking "b" 0 []]⟩ :
        ContentModel).graph flatSettings = .ok graph := by with_unfolding_all exact ⟨_, rfl⟩
    obtain ⟨same, agree, -, -⟩ := @inlining_agrees _ Options.empty.resolve linked hr hl
    obtain ⟨printed, hp⟩ := same.1 ⟨graph, hg⟩
    obtain ⟨text, -, ht⟩ := (agree graph hg).2 "a" (by decide)
    exact ⟨linked, printed, hr, hl, hp, text, ht⟩
  · have hr : (⟨[linking "a" 1 ["b"], linking "b" 0 ["a"]]⟩ : ContentModel).Regular :=
      ⟨by simp [linking, Field.isNested], by simp [linking]⟩
    obtain ⟨linked, hl⟩ : ∃ linked, (⟨[linking "a" 1 ["b"], linking "b" 0 ["a"]]⟩ :
        ContentModel).graph linkedSettings = .ok linked := ⟨_, rfl⟩
    obtain ⟨failure, hg⟩ : ∃ failure, (⟨[linking "a" 1 ["b"], linking "b" 0 ["a"]]⟩ :
        ContentModel).graph flatSettings = .error failure := by with_unfolding_all exact ⟨_, rfl⟩
    obtain ⟨same, -, -, circle⟩ := @inlining_agrees _ Options.empty.resolve linked hr hl
    cases hp : linked.print flatSettings with
    | ok printed =>
      obtain ⟨graph, hg'⟩ := same.2 ⟨printed, hp⟩
      cases hg.symm.trans hg'
    | error e =>
      obtain ⟨name, around, rfl⟩ := circle e hp
      exact ⟨linked, name, around, hr, hl, hp⟩

end ContentSchema
