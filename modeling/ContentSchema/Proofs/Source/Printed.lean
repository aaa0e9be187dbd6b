import ContentSchema.Proofs.Graph.Failures
import ContentSchema.Proofs.Graph.LinkSets
import ContentSchema.Proofs.Graph.Stored
import ContentSchema.Proofs.Source.Linked

/-! # Modules of assembled graphs

Whatever is assembled can be printed with the settings that it was assembled with. So a run fails
only where the text is no content model or the model has no graph.
-/

namespace ContentSchema

open Source

namespace Node

variable {node : Node}

theorem proper_placeholder (h : node.Proper) : node.placeholder.Proper := by
  unfold placeholder
  split
  · exact proper_mapClosed.basic .any
  · exact h

theorem isProper_object_map {shape : List (String × Node)} {policy : ObjectPolicy} {tags : Tags}
    (f : String × Node → String × Node) :
    (object (shape.map f) policy tags).isProper = (object shape policy tags).isProper := by
  cases shape <;> rfl

theorem proper_withPlaceholders (h : node.Proper) : node.withPlaceholders.Proper := by
  cases node with
  | object shape policy tags =>
    obtain ⟨hp, hc⟩ := proper_iff.1 h
    refine proper_iff.2 ⟨(isProper_object_map _).trans hp, ?_⟩
    rw [children, List.forall_mem_map] at hc
    simp only [withPlaceholders, children, List.forall_mem_map]
    intro e he
    split
    · next fields policy tags =>
      obtain ⟨hp, hc⟩ := proper_iff.1 (hc _ he)
      refine proper_iff.2 ⟨(isProper_object_map _).trans hp, ?_⟩
      rw [children, List.forall_mem_map] at hc
      rw [children, List.forall_mem_map, List.forall_mem_map]
      intro field hf
      exact proper_placeholder (hc field hf)
    · exact hc e he
  | _ => exact h

end Node

namespace Scope

variable {scope : Scope} {ct : ContentType} {node : Node}

theorem exists_isLink_of_linkedFields (hf : scope.settings.flat = false)
    (h : (scope.mapContentType ct).outcome = .ok node) {e : String × LinkSet}
    (he : e ∈ node.linkedFields) : ∃ field depth, Node.IsLink field scope.known depth e.2 := by
  obtain ⟨entries, hm, rfl⟩ := exists_of_mapContentType h
  rw [Node.linkedFields_entry, List.mem_filterMap] at he
  obtain ⟨entry, hentry, hl⟩ := he
  obtain ⟨links, hlinks, rfl⟩ := Option.map_eq_some_iff.1 hl
  obtain ⟨f, -, hfield⟩ := Report.exists_of_mem_mapM hm (Entries.mem_of_mem_ofList hentry)
  exact ⟨_, _, (isLink_mapField hf (mapEntry_eq_ok_iff.1 hfield).2 hlinks).1⟩

end Scope

namespace Outline

variable {o : Outline} {node : Node}

theorem exists_expr_byName (h : node.Proper) : ∃ e, (node.expr o.byName).outcome = .ok e := by
  cases he : (node.expr o.byName).outcome with
  | ok e => exact ⟨e, rfl⟩
  | error failure =>
    obtain ⟨⟨name, target⟩, hmem, report, hf, hreport⟩ :=
      Node.exists_outermost_of_expr_error (fun _ => rfl) h.branched he
    obtain ⟨⟨n, hn, hr⟩, -⟩ := Node.mem_walk_of_mem_outermost hmem
    cases target
    · have hb := Node.lookup_isSome_of_isProper (h n hn) hr
      rw [byName, if_pos hb] at hf
      obtain rfl := Option.some.inj hf
      cases hreport
    · obtain rfl := Option.some.inj hf
      split at hreport <;> cases hreport

theorem exists_builtin {b : Builtin} (h : b ∈ Builtin.all) :
    ∃ d, (o.builtin b).outcome = .ok d := by
  obtain ⟨e, he⟩ :=
    exists_expr_byName (o := o) (Node.proper_withTags_empty (Node.proper_builtin h))
  rw [builtin, bind_pure_comp]
  exact ⟨_, Report.outcome_map_eq_ok.2 ⟨e, he, rfl⟩⟩

theorem exists_contentType (hf : o.settings.flat = false) (hp : node.Proper)
    (hl : ∀ e ∈ node.linkedFields, e.2.targets ≠ []) (id : String) :
    ∃ d, (o.contentType id node).outcome = .ok d := by
  have hfollow : o.follow id = o.byName := by simp [follow, hf]
  simp only [contentType, hf, Bool.false_eq_true, if_false, hfollow]
  split
  · obtain ⟨e, he⟩ := exists_expr_byName (o := o) hp
    rw [bind_pure_comp]
    exact ⟨_, Report.outcome_map_eq_ok.2 ⟨e, he, rfl⟩⟩
  · obtain ⟨body, hb⟩ := exists_expr_byName (o := o) (Node.proper_withPlaceholders hp)
    obtain ⟨links, hls⟩ : ∃ links,
        (node.linkedFields.mapM fun e => o.linkField e.1 e.2).outcome = .ok links :=
      Report.exists_outcome_mapM fun e he => ⟨_, outcome_linkField (hl e he) e.1⟩
    exact ⟨_, Report.outcome_bind_eq_ok.2 ⟨body, hb,
      Report.outcome_bind_eq_ok.2 ⟨links, hls, rfl⟩⟩⟩

end Outline

namespace Graph

variable {graph : Graph} {settings : Settings}

theorem exists_toModule_of_linked (hf : settings.flat = false)
    (hp : ∀ e ∈ graph.schemas, e.2.Proper)
    (hl : ∀ e ∈ graph.schemas, ∀ l ∈ e.2.linkedFields, l.2.targets ≠ []) :
    ∃ m, (graph.toModule settings).outcome = .ok m := by
  obtain ⟨found, hb⟩ := exists_builtins_of_proper hp
  obtain ⟨declared, hd⟩ : ∃ ds,
      (found.mapM (graph.outline settings).builtin).outcome = .ok ds :=
    Report.exists_outcome_mapM fun b hm => Outline.exists_builtin (mem_all_of_builtins hb b hm)
  obtain ⟨types, ht⟩ : ∃ ds, (graph.schemas.mapM fun e =>
      (graph.outline settings).contentType e.1 e.2).outcome = .ok ds :=
    Report.exists_outcome_mapM fun e he =>
      Outline.exists_contentType hf (hp e he) (hl e he) e.1
  simp only [toModule, hb, hf, Bool.false_eq_true, if_false]
  exact ⟨_, Report.outcome_bind_eq_ok.2 ⟨declared, hd,
    Report.outcome_bind_eq_ok.2 ⟨types, ht, rfl⟩⟩⟩

end Graph

namespace ContentModel

variable {model : ContentModel} {settings : Settings} {graph : Graph}

theorem exists_toModule_of_graph (h : model.graph settings = .ok graph) :
    ∃ m, (graph.toModule settings).outcome = .ok m := by
  have hp := proper_graph h
  cases hf : settings.flat with
  | true =>
    refine Graph.exists_toModule_of_flat hf hp fun e he => ?_
    -- no reference is left that could lead into a circle
    rw [Graph.flatExpr, Node.expr_of_no_references (fun _ => Outline.inlined_builtin)
      (no_references_flat_graph hf h e he)]
    exact Node.exists_expr_bare (hp e he).branched
  | false =>
    refine Graph.exists_toModule_of_linked hf hp fun e he => ?_
    obtain ⟨ct, -, -, hm⟩ := exists_of_mem_linked_graph hf h he
    intro l hl
    obtain ⟨_, _, hlink⟩ := Scope.exists_isLink_of_linkedFields hf hm hl
    exact hlink.ne_nil

end ContentModel

/-- Every graph that is assembled is printed with the same settings. What a run fails with is a text
that is no content model, or the cause for which the model has no graph: an id that is used twice, a
kind that the settings do not let pass, or, flat, content types that link in a circle. -/
theorem generation_fails_early (settings : Settings) :
    (∀ (model : ContentModel) (graph : Graph), model.graph settings = .ok graph →
      ∃ generated, graph.print settings = .ok generated) ∧
    ∀ text failure, generate text settings = .error failure →
      (∃ fault, ContentModel.ofText text = .error fault ∧ failure = .invalidModel fault) ∨
      ∃ model, ContentModel.ofText text = .ok model ∧ model.Refused settings failure := by
  have printed (model : ContentModel) (graph : Graph) (h : model.graph settings = .ok graph) :
      ∃ generated, graph.print settings = .ok generated := by
    obtain ⟨m, hm⟩ := ContentModel.exists_toModule_of_graph h
    exact ⟨_, Graph.print_eq_ok_iff.2 ⟨m, hm, rfl⟩⟩
  refine ⟨printed, ?_⟩
  intro text failure h
  cases hm : ContentModel.ofText text with
  | error fault =>
    have hr : readModel text = .error (.invalidModel fault) := by
      rw [readModel, hm]
      rfl
    simp only [generate, hr] at h
    exact .inl ⟨fault, rfl, (Except.error.inj h).symm⟩
  | ok model =>
    have hr := readModel_eq_ok_iff.2 hm
    refine .inr ⟨model, rfl, ?_⟩
    cases hg : model.graph settings with
    | error e =>
      rw [generate_of_graph_error hr hg] at h
      obtain rfl := Except.error.inj h
      exact ContentModel.refused_of_graph_error hg
    | ok graph =>
      obtain ⟨generated, hp⟩ := printed model graph hg
      rw [generate_eq_print hr hg, hp] at h
      cases h

/-- Linked, entries may list entries of their own type; flat, they may not. -/
theorem generation_fails_early_selfLinked :
    (∃ graph generated, selfLinked.graph linkedSettings = .ok graph ∧
      graph.print linkedSettings = .ok generated) ∧
    ∃ failure, generate selfLinked.toValue.compact flatSettings = .error failure ∧
      selfLinked.Refused flatSettings failure ∧ failure = .dependencyCycle "page" [] := by
  have hr : readModel selfLinked.toValue.compact = .ok selfLinked := readModel_compact rfl
  constructor
  · obtain ⟨graph, hg⟩ : ∃ graph, selfLinked.graph linkedSettings = .ok graph := ⟨_, rfl⟩
    obtain ⟨generated, hp⟩ := (generation_fails_early linkedSettings).1 selfLinked graph hg
    exact ⟨graph, generated, hg, hp⟩
  · obtain ⟨circle, hc, hfirst, hlater⟩ : ∃ circle,
        ContentType.order selfLinked.contentTypes = .error circle ∧ circle.first.id = "page" ∧
        circle.later = [] := ⟨⟨_, []⟩, by cbv, rfl, rfl⟩
    have hf : flatSettings.flat = true := rfl
    have hg : selfLinked.graph flatSettings = .error (.dependencyCycle "page" []) := by
      rw [ContentModel.graph_of_order_error (by decide) hf hc, hfirst, hlater]
      rfl
    have h := generate_of_graph_error hr hg
    refine ⟨_, h, ?_, rfl⟩
    rcases (generation_fails_early flatSettings).2 _ _ h with ⟨fault, -, hn⟩ | ⟨model, hm, hrefused⟩
    · cases hn
    · obtain rfl := Except.ok.inj ((readModel_eq_ok_iff.2 hm).symm.trans hr)
      exact hrefused

end ContentSchema
