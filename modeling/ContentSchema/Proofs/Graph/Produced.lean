import ContentSchema.Proofs.Graph.Inlining
import ContentSchema.Proofs.Graph.Links

/-! # Schemas at hand

Each content type is mapped with schemas of the same graph at hand. Flat, those that it depends on
are among them, so that its links to known content types are copies of what the graph has for these.
-/

namespace ContentSchema

theorem ContentType.Ordered.mem_before {known : List String} {types before after : List ContentType}
    {ct : ContentType} (h : Ordered known types) (hs : types = before ++ ct :: after) :
    ∀ t ∈ ct.dependencies, t ∈ known → t ∈ before.map (·.id) := by
  induction h generalizing after with
  | nil => simp at hs
  | @snoc done last _ _ hd ih =>
    rcases List.eq_nil_or_concat after with rfl | ⟨rest, final, rfl⟩
    · obtain ⟨rfl, rfl⟩ := List.append_singleton_inj.1 hs
      exact hd
    · rw [List.concat_eq_append, ← List.cons_append, ← List.append_assoc] at hs
      exact ih (List.append_singleton_inj.1 hs).1

theorem Field.isEntryLink_of_linkTargets {f : Field} (h : f.linkTargets ≠ []) : f.isEntryLink := by
  by_contra hf
  exact h (Descriptor.linkTargets_of_not_isEntryLink hf)

theorem ContentType.mem_dependencies_of_mem_knownTargets {ct : ContentType} {f : Field}
    {known : List String} {target : String} (hf : f ∈ ct.fields)
    (ht : target ∈ f.knownTargets known) : target ∈ ct.dependencies ∧ target ∈ known := by
  obtain ⟨ht, hk⟩ := List.mem_filter.1 ht
  exact ⟨mem_dependencies.2 ⟨f, hf, ht⟩, of_decide_eq_true hk⟩

namespace ContentModel

variable {model : ContentModel} {settings : Settings} {graph : Graph} {ct : ContentType}

theorem lookup_foldlM_addSchema {types : List ContentType} {start all : List (String × Node)}
    {id : String} (h : (types.foldlM (model.addSchema settings) start).outcome = .ok all)
    (hid : id ∉ types.map (·.id)) : all.lookup id = start.lookup id := by
  induction types generalizing start with
  | nil =>
    obtain rfl := Except.ok.inj h
    rfl
  | cons ct rest ih =>
    rw [List.map_cons, List.mem_cons, not_or] at hid
    rw [List.foldlM_cons, Report.outcome_bind_eq_ok] at h
    obtain ⟨next, hn, h⟩ := h
    obtain ⟨node, -, ho⟩ := Report.outcome_bind_eq_ok.1 hn
    obtain rfl := Except.ok.inj ho
    rw [ih h hid.2, Entries.lookup_put, if_neg hid.1]

/-- The schema of a content type is what it is mapped to with these schemas of the graph at hand,
and flat, with those that it depends on among them. -/
structure MappedWith (model : ContentModel) (settings : Settings) (graph : Graph)
    (ct : ContentType) (produced : List (String × Node)) (node : Node) : Prop where
  mapped : (Scope.mapContentType ⟨settings, model.ids, produced, ct.id⟩ ct).outcome = .ok node
  found : graph.schemas.lookup ct.id = some node
  genuine : ∀ id target, produced.lookup id = some target → graph.schemas.lookup id = some target
  complete : settings.flat = true → ∀ id ∈ ct.dependencies, id ∈ model.ids →
    id ∈ Entries.keys produced

theorem exists_mappedWith (h : model.graph settings = .ok graph) (hct : ct ∈ model.contentTypes) :
    ∃ produced node, model.MappedWith settings graph ct produced node := by
  obtain ⟨hn, types, hs, ha, -⟩ := graph_eq_ok_iff.1 h
  obtain ⟨before, after, rfl⟩ :=
    List.append_of_mem ((perm_of_sequence hn hs).mem_iff.2 hct)
  have hd : ((before ++ ct :: after).map (·.id)).Nodup :=
    ((perm_of_sequence hn hs).map _).nodup_iff.2 hn
  rw [List.map_append, List.map_cons] at hd
  rw [List.foldlM_append, Report.outcome_bind_eq_ok] at ha
  obtain ⟨produced, hp, ha⟩ := ha
  have hall := ha
  rw [List.foldlM_cons, Report.outcome_bind_eq_ok] at ha
  obtain ⟨next, hnext, ha⟩ := ha
  obtain ⟨node, hnode, ho⟩ := Report.outcome_bind_eq_ok.1 hnext
  obtain rfl := Except.ok.inj ho
  have hk : ∀ id, id ∈ Entries.keys produced ↔ id ∈ before.map (·.id) := fun id => by
    simp [mem_keys_of_foldlM hp]
  refine ⟨produced, node, hnode, ?_, ?_, ?_⟩
  · have hlast : ct.id ∉ after.map (·.id) := (List.nodup_cons.1 (List.nodup_append.1 hd).2.1).1
    rw [lookup_foldlM_addSchema ha hlast, Entries.lookup_put, if_pos rfl]
  · intro id target ht
    have hb := (hk id).1 (Entries.lookup_isSome_iff.1 (by rw [ht]; rfl))
    have hl : id ∉ (ct :: after).map (·.id) := fun hm => (List.nodup_append.1 hd).2.2 _ hb _ hm rfl
    rw [lookup_foldlM_addSchema hall hl, ht]
  · intro hf id hid hm
    rw [hk]
    have ho := ContentType.order_ok hn ((sequence_of_flat hf).1 hs)
    exact ho.1.mem_before rfl id hid hm

/-- A link to a content type that is depended on leads to the schema that the graph has for it, be
it by name or by a copy. -/
theorem MappedWith.exists_target {produced : List (String × Node)} {node : Node}
    (hm : model.MappedWith settings graph ct produced node) (h : model.graph settings = .ok graph)
    {id : String} (hd : id ∈ ct.dependencies) (hk : id ∈ model.ids) :
    ∃ target, graph.schemas.lookup id = some target ∧
      ∀ made ∈ Scope.copies ⟨settings, model.ids, produced, ct.id⟩,
        made.lookup id = some target := by
  obtain ⟨target, ht⟩ := Option.isSome_iff_exists.1
    (Entries.lookup_isSome_iff.2 ((mem_keys_graph h).2 hk))
  refine ⟨target, ht, ?_⟩
  intro made hc
  unfold Scope.copies at hc
  split at hc
  · next hf =>
    obtain rfl := Option.some.inj hc
    obtain ⟨copy, hl⟩ := Option.isSome_iff_exists.1
      (Entries.lookup_isSome_iff.2 (hm.complete hf id hd hk))
    rw [hl, ← hm.genuine id copy hl, ht]
  · cases hc

end ContentModel

end ContentSchema
