import ContentSchema.Graph.Assembly
import ContentSchema.Proofs.Entries
import ContentSchema.Proofs.Graph.Order
import ContentSchema.Proofs.Report

/-! # Assembled graphs

A graph is assembled just where no id is used twice, the content types can be put in sequence, and
each of them can be mapped with the schemas before it at hand.
-/

namespace ContentSchema.ContentModel

variable {model : ContentModel} {settings : Settings} {graph : Graph} {types : List ContentType}

theorem repeatedId?_eq_none_iff {seen ids : List String} :
    repeatedId? seen ids = none ↔ ids.Nodup ∧ ∀ id ∈ ids, id ∉ seen := by
  induction ids generalizing seen with
  | nil => simp [repeatedId?]
  | cons id rest ih =>
    by_cases h : id ∈ seen
    · simp [repeatedId?, h]
    · have hc : seen.contains id = false := by simpa using h
      simp only [repeatedId?, hc, Bool.false_eq_true, if_false]
      rw [ih, List.nodup_cons, List.forall_mem_cons]
      constructor
      · rintro ⟨hn, hr⟩
        refine ⟨⟨?_, hn⟩, h, ?_⟩
        · intro hm
          exact hr id hm List.mem_cons_self
        · intro k hk hm
          exact hr k hk (List.mem_cons_of_mem id hm)
      · rintro ⟨⟨hm, hn⟩, -, hr⟩
        refine ⟨hn, ?_⟩
        intro k hk hs
        rcases List.mem_cons.1 hs with rfl | hs
        · exact hm hk
        · exact hr k hk hs

theorem graph_eq_ok_iff :
    model.graph settings = .ok graph ↔
      model.ids.Nodup ∧ ∃ types, model.sequence settings = .ok types ∧
        (types.foldlM (model.addSchema settings) []).outcome = .ok graph.schemas ∧
        (types.foldlM (model.addSchema settings) []).messages = graph.warnings := by
  have hn : model.ids.Nodup ↔ repeatedId? [] model.ids = none := by
    simp [repeatedId?_eq_none_iff]
  rw [hn, ContentModel.graph, schemas]
  cases repeatedId? [] model.ids with
  | some id => simp [Report.fail, Except.map]
  | none =>
    cases model.sequence settings with
    | error failure => simp [Report.fail, Except.map]
    | ok types =>
      obtain ⟨schemas, warnings⟩ := graph
      cases h : (types.foldlM (model.addSchema settings) []).outcome <;> simp [h, Except.map]

theorem sequence_of_linked (hf : settings.flat = false) :
    model.sequence settings = .ok model.contentTypes := by
  simp [sequence, hf]

theorem sequence_of_flat (hf : settings.flat = true) :
    model.sequence settings = .ok types ↔ ContentType.order model.contentTypes = .ok types := by
  simp only [sequence, hf, if_true]
  cases ContentType.order model.contentTypes <;> simp

theorem perm_of_sequence (hn : model.ids.Nodup) (h : model.sequence settings = .ok types) :
    types.Perm model.contentTypes := by
  cases hf : settings.flat with
  | true => exact (ContentType.order_ok hn ((sequence_of_flat hf).1 h)).2
  | false =>
    obtain rfl := Except.ok.inj ((sequence_of_linked hf).symm.trans h)
    exact List.Perm.refl _

/-- What passes on to the schema of a content type from the schemas at hand holds of all schemas of
a graph. -/
theorem graph_induct {P : String × Node → Prop} (h : model.graph settings = .ok graph)
    (step : ∀ ct ∈ model.contentTypes, ∀ made node, (∀ e ∈ made, P e) →
      (Scope.mapContentType ⟨settings, model.ids, made, ct.id⟩ ct).outcome = .ok node →
      P (ct.id, node)) : ∀ e ∈ graph.schemas, P e := by
  obtain ⟨hn, types, hs, ha, -⟩ := graph_eq_ok_iff.1 h
  refine Report.outcome_foldlM_induct (P := fun schemas => ∀ e ∈ schemas, P e) (by simp)
    (fun ct hct made next hall ha => ?_) ha
  obtain ⟨node, hnode, ho⟩ := Report.outcome_bind_eq_ok.1 ha
  obtain rfl := Except.ok.inj ho
  intro e he
  rcases Entries.mem_of_mem_put he with rfl | he
  · exact step ct ((perm_of_sequence hn hs).mem_iff.1 hct) made node hall hnode
  · exact hall e he

theorem graph_of_order_error (hn : model.ids.Nodup) (hf : settings.flat = true)
    {circle : Circle ContentType} (h : ContentType.order model.contentTypes = .error circle) :
    model.graph settings =
      .error (.dependencyCycle circle.first.id (circle.later.map (·.id))) := by
  have hr : repeatedId? [] model.ids = none := repeatedId?_eq_none_iff.2 ⟨hn, by simp⟩
  simp [ContentModel.graph, schemas, hr, sequence, hf, h, Report.fail, Except.map]

end ContentSchema.ContentModel
