import ContentSchema.Proofs.Source.Printed

/-! # Warnings of modules

All that a run warns of, it warns of while the graph is assembled. An assembled graph is printed
without a warning, as it refers to nothing that is missing.
-/

namespace ContentSchema

open Source

namespace Report

variable {α β : Type}

theorem warnings_bind_eq_nil {first : Report α} {next : α → Report β} (h : first.warnings = [])
    (hn : ∀ a, (next a).warnings = []) : (first >>= next).warnings = [] := by
  cases ho : first.outcome with
  | error e => simp [bind, andThen, ho, h]
  | ok a => rw [warnings_bind_of_ok ho, h, hn, List.append_nil]

theorem warnings_mapM_eq_nil {f : α → Report β} {as : List α} (h : ∀ a ∈ as, (f a).warnings = []) :
    (as.mapM f).warnings = [] := by
  induction as with
  | nil => rfl
  | cons a rest ih =>
    rw [List.forall_mem_cons] at h
    rw [List.mapM_cons]
    refine warnings_bind_eq_nil h.1 fun b => ?_
    rw [bind_pure_comp, warnings_map]
    exact ih h.2

end Report

namespace Node

variable {follow : Follow} {node : Node} {id : String}

theorem warnings_body (h : ∀ child ∈ node.children, (child.expr follow).warnings = []) :
    (node.body follow).warnings = [] := by
  cases node with
  | primitive p tags => rfl
  | object shape policy tags =>
    rw [body, Report.warnings_map, shapeExprs_eq_mapM]
    apply Report.warnings_mapM_eq_nil
    intro e he
    rw [Report.warnings_map]
    exact h e.2 (List.mem_map_of_mem he)
  | array element tags => rw [body, Report.warnings_map, h element List.mem_cons_self]
  | optional inner tags => rw [body, Report.warnings_map, h inner List.mem_cons_self]
  | union branches tags =>
    rw [body]
    split
    · rfl
    · rw [Report.warnings_map, branchExprs_eq_mapM]
      exact Report.warnings_mapM_eq_nil h
  | unknown tags => rfl

theorem warnings_expr
    (hb : ∀ name report, follow ⟨name, .builtin⟩ = some report → report.warnings = [])
    (hc : ∀ id ∈ node.contentTypeReferences, ∀ report, follow ⟨id, .contentType⟩ = some report →
      report.warnings = []) : (node.expr follow).warnings = [] := by
  induction node using induct with
  | step node ih =>
    rcases expr_cases follow node with ⟨⟨name, _ | _⟩, report, hr, hf, he⟩ | he
    · rw [he]
      exact hb name report hf
    · rw [he]
      exact hc name (mem_contentTypeReferences.2 (.inl hr)) report hf
    · rw [he, Report.warnings_map]
      refine warnings_body fun child hm => ih child hm fun id hid => ?_
      exact hc id (mem_contentTypeReferences.2 (.inr ⟨child, hm, hid⟩))

theorem mem_references_of_map {shape : List (String × Node)} {policy : ObjectPolicy} {tags : Tags}
    {f : String × Node → String × Node}
    (hf : ∀ e ∈ shape, id ∈ (f e).2.contentTypeReferences → id ∈ e.2.contentTypeReferences)
    (h : id ∈ (object (shape.map f) policy tags).contentTypeReferences) :
    id ∈ (object shape policy tags).contentTypeReferences := by
  rw [mem_contentTypeReferences] at h ⊢
  refine h.imp_right ?_
  rintro ⟨child, hm, hid⟩
  rw [children, List.map_map] at hm
  obtain ⟨e, he, rfl⟩ := List.mem_map.1 hm
  exact ⟨e.2, List.mem_map_of_mem he, hf e he hid⟩

theorem mem_references_of_placeholder (h : id ∈ node.placeholder.contentTypeReferences) :
    id ∈ node.contentTypeReferences := by
  unfold placeholder at h
  split at h
  · cases h
  · exact h

theorem mem_references_of_withPlaceholders
    (h : id ∈ node.withPlaceholders.contentTypeReferences) : id ∈ node.contentTypeReferences := by
  cases node with
  | object shape policy tags =>
    refine mem_references_of_map (fun e _ he => ?_) h
    split at he
    · exact mem_references_of_map (fun _ _ => mem_references_of_placeholder) he
    · exact he
  | _ => exact h

end Node

namespace Outline

variable {o : Outline} {node : Node} {id : String}

theorem warnings_expr_byName
    (h : ∀ id ∈ node.contentTypeReferences, (o.schemas.lookup id).isSome) :
    (node.expr o.byName).warnings = [] := by
  apply Node.warnings_expr
  · intro name report hf
    obtain rfl := Option.some.inj hf
    split <;> rfl
  · intro id hid report hf
    obtain rfl := Option.some.inj hf
    rw [if_pos (h id hid)]
    rfl

theorem warnings_expr_inlined {around : List String} {left : List (String × Node)}
    (h : ∀ id, id ∉ node.contentTypeReferences) :
    (node.expr (o.inlined around left)).warnings = [] := by
  apply Node.warnings_expr
  · intro name report hf
    rw [inlined_builtin] at hf
    cases hf
  · intro id hid
    exact absurd hid (h id)

theorem warnings_builtin {b : Builtin} (h : b ∈ Builtin.all) : (o.builtin b).warnings = [] := by
  rw [builtin, bind_pure_comp, Report.warnings_map]
  have hnone : (b.node.withTags .empty).contentTypeReferences = [] := by
    rcases Builtin.mem_all_iff.1 h with rfl | rfl | rfl | rfl <;> rfl
  exact warnings_expr_byName (by simp [hnone])

theorem warnings_linkField (key : String) (links : LinkSet) :
    (o.linkField key links).warnings = [] := by
  unfold linkField
  split <;> rfl

theorem warnings_contentType_of_linked (hf : o.settings.flat = false)
    (h : ∀ id ∈ node.contentTypeReferences, (o.schemas.lookup id).isSome) :
    (o.contentType id node).warnings = [] := by
  have hfollow : o.follow id = o.byName := by simp [follow, hf]
  simp only [contentType, hf, Bool.false_eq_true, if_false, hfollow]
  split
  · rw [bind_pure_comp, Report.warnings_map]
    exact warnings_expr_byName h
  · have hp : (node.withPlaceholders.expr o.byName).warnings = [] :=
      warnings_expr_byName fun id hid => h id (Node.mem_references_of_withPlaceholders hid)
    refine Report.warnings_bind_eq_nil hp fun body => ?_
    rw [bind_pure_comp, Report.warnings_map]
    exact Report.warnings_mapM_eq_nil fun l _ => warnings_linkField l.1 l.2

theorem warnings_contentType_of_flat (hf : o.settings.flat = true)
    (h : ∀ id, id ∉ node.contentTypeReferences) : (o.contentType id node).warnings = [] := by
  rw [contentType_of_flat hf, Report.warnings_map]
  exact warnings_expr_inlined h

end Outline

namespace ContentModel

variable {model : ContentModel} {settings : Settings} {graph : Graph}

theorem lookup_isSome_of_linked_graph (hf : settings.flat = false)
    (h : model.graph settings = .ok graph) {e : String × Node} (he : e ∈ graph.schemas)
    {id : String} (hid : id ∈ e.2.contentTypeReferences) :
    (graph.schemas.lookup id).isSome := by
  obtain ⟨ct, hct, -, hm⟩ := exists_of_mem_linked_graph hf h he
  have hk := (Scope.mem_references_mapContentType hf hm).1 hid
  exact Entries.lookup_isSome_iff.2 ((mem_keys_graph h).2 hk.1)

/-- An assembled graph is printed without a warning. -/
theorem warnings_toModule (h : model.graph settings = .ok graph) :
    (graph.toModule settings).warnings = [] := by
  unfold Graph.toModule
  split
  · rfl
  · next found hb =>
    have hall := Graph.mem_all_of_builtins hb
    cases hf : settings.flat with
    | true =>
      simp only [if_true, pure_bind]
      refine Report.warnings_bind_eq_nil (Report.warnings_mapM_eq_nil fun e he => ?_) fun _ => rfl
      exact Outline.warnings_contentType_of_flat hf (no_references_flat_graph hf h e he)
    | false =>
      simp only [Bool.false_eq_true, if_false]
      refine Report.warnings_bind_eq_nil
        (Report.warnings_mapM_eq_nil fun b hm => Outline.warnings_builtin (hall b hm)) fun _ => ?_
      refine Report.warnings_bind_eq_nil (Report.warnings_mapM_eq_nil fun e he => ?_) fun _ => rfl
      exact Outline.warnings_contentType_of_linked hf fun id => lookup_isSome_of_linked_graph hf h he

theorem exists_print_graph (h : model.graph settings = .ok graph) :
    ∃ m, (graph.toModule settings).outcome = .ok m ∧
      graph.print settings = .ok ⟨m.render, graph.warnings⟩ := by
  obtain ⟨m, hm⟩ := exists_toModule_of_graph h
  refine ⟨m, hm, Graph.print_eq_ok_iff.2 ⟨m, hm, ?_⟩⟩
  rw [Report.messages, warnings_toModule h, List.map_nil, List.append_nil]

end ContentModel

end ContentSchema
