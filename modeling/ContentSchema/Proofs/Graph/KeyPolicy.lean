import ContentSchema.Proofs.Graph.Discriminated
import ContentSchema.Proofs.Validator.KeyPolicy

/-! # The policy for further keys

Whether further keys pass has a say in nothing but the policies of objects. The graph in which they
pass is the graph in which they are refused with its policies changed, also in copies.
-/

namespace ContentSchema

/-- The settings under which further keys of entries pass or are refused. -/
def Settings.letting (settings : Settings) (pass : Bool) : Settings :=
  { settings with passthrough := pass }

theorem Settings.letting_letting (settings : Settings) (pass pass' : Bool) :
    (settings.letting pass).letting pass' = settings.letting pass' := rfl

def Graph.mapPolicies (f : ObjectPolicy → ObjectPolicy) (graph : Graph) : Graph :=
  { graph with schemas := graph.schemas.map fun e => (e.1, e.2.mapPolicies f) }

def Graph.HasPolicies (P : ObjectPolicy → Prop) (graph : Graph) : Prop :=
  ∀ e ∈ graph.schemas, ∀ node ∈ e.2.walk, ∀ policy, node.policy? = some policy → P policy

/-- Each schema is an object of a discriminant and fields, and these two objects have this policy. -/
def Graph.HasEntries (policy : ObjectPolicy) (graph : Graph) : Prop :=
  ∀ e ∈ graph.schemas, ∃ fields, e.2 =
    .object [("sys", Scope.discriminant e.1), ("fields", .object fields policy .empty)] policy .empty

/-- Entries and their fields have the policy of the settings. -/
theorem ContentModel.hasEntries_graph {model : ContentModel} {settings : Settings} {graph : Graph}
    (h : model.graph settings = .ok graph) : graph.HasEntries settings.objectPolicy := by
  refine graph_induct h ?_
  intro ct _ made node _ hnode
  obtain ⟨entries, -, rfl⟩ := Scope.exists_of_mapContentType hnode
  exact ⟨_, rfl⟩

variable {f : ObjectPolicy → ObjectPolicy}

namespace Graph

variable {graph : Graph}

@[simp] theorem keys_mapPolicies :
    Entries.keys (graph.mapPolicies f).schemas = Entries.keys graph.schemas :=
  Entries.keys_map _ _

theorem HasPolicies.mapPolicies {P Q : ObjectPolicy → Prop} (h : graph.HasPolicies P)
    (hf : ∀ policy, P policy → Q (f policy)) : (graph.mapPolicies f).HasPolicies Q := by
  intro e he n hn policy hp
  obtain ⟨d, hd, rfl⟩ := List.mem_map.1 he
  obtain ⟨m, hm, p, hq, rfl⟩ := Node.exists_of_policy?_mapPolicies hn hp
  exact hf p (h d hd m hm p hq)

theorem accepts_mapPolicies (hf : f .strip = .strip) (hs : ∀ p, f p = .strict → p = .strict)
    {id : String} {v : Json.Value} (h : graph.Accepts id v) :
    (graph.mapPolicies f).Accepts id v := by
  obtain ⟨node, hl, hv⟩ := h
  refine ⟨node.mapPolicies f, ?_, Node.accepts_mapPolicies hf hs hv⟩
  rw [mapPolicies, Entries.lookup_map, hl, Option.map_some]

end Graph

variable (hf : f .strip = .strip)

include hf

theorem Node.mapPolicies_of_basic {node : Node} (h : node.Basic) : node.mapPolicies f = node := by
  cases h with
  | plain p => rfl
  | builtin hb => exact mapPolicies_builtin hf hb
  | any => rfl

def Scope.letting (f : ObjectPolicy → ObjectPolicy) (pass : Bool) (scope : Scope) : Scope :=
  { scope with
    settings := scope.settings.letting pass
    produced := scope.produced.map fun e => (e.1, e.2.mapPolicies f) }

namespace Scope

theorem mapPolicies_discriminant (id : String) :
    (discriminant id).mapPolicies f = discriminant id := by
  simp only [discriminant, Node.mapPolicies_record, List.map_cons, List.map_nil, hf]
  rfl

variable {scope : Scope} {pass : Bool}

omit hf in
theorem copies_letting : (scope.letting f pass).copies =
    scope.copies.map (·.map fun e => (e.1, e.2.mapPolicies f)) := by
  unfold copies
  split
  · next h => rw [if_pos (show scope.settings.flat from h)]; rfl
  · next h => rw [if_neg (show ¬ scope.settings.flat from h)]; rfl

theorem entryLink_letting (field : String) (targets : List String) :
    (scope.letting f pass).entryLink field targets =
      Node.mapPolicies f <$> scope.entryLink field targets := by
  rw [entryLink_eq, entryLink_eq, Report.map_eq, Except.map, Node.mapPolicies_link hf,
    ← copies_letting]
  rfl

theorem mapContentType_letting
    (hp : f scope.settings.objectPolicy = (scope.settings.letting pass).objectPolicy)
    (ct : ContentType) : (scope.letting f pass).mapContentType ct =
      Node.mapPolicies f <$> scope.mapContentType ct := by
  have hp : (scope.letting f pass).settings.objectPolicy = f scope.settings.objectPolicy := hp.symm
  have hu : scope.settings.unknown = (scope.letting f pass).settings.unknown := rfl
  have hc : scope.contentType = (scope.letting f pass).contentType := rfl
  have he : ct.fields.mapM (scope.letting f pass).mapEntry =
      List.map (fun e => (e.1, e.2.mapPolicies f)) <$> ct.fields.mapM scope.mapEntry :=
    mapEntries_map hu hc (fun _ => Node.mapPolicies_of_basic hf) (entryLink_letting hf)
      (fun _ => Node.mapPolicies_listed) (fun _ => Node.mapPolicies_wrapped) ct.fields
  rw [mapContentType_eq, mapContentType_eq, he, hp, Functor.map_map, Functor.map_map]
  simp only [Node.mapPolicies_record, List.map_cons, List.map_nil, mapPolicies_discriminant hf]

end Scope

namespace ContentModel

variable {model : ContentModel} {settings : Settings} {pass : Bool}
  (hp : f settings.objectPolicy = (settings.letting pass).objectPolicy)

include hp

theorem addSchema_letting (made : List (String × Node)) (ct : ContentType) :
    model.addSchema (settings.letting pass) (made.map fun e => (e.1, e.2.mapPolicies f)) ct =
      List.map (fun e => (e.1, e.2.mapPolicies f)) <$> model.addSchema settings made ct := by
  have h : Scope.mapContentType ⟨settings.letting pass, model.ids,
      made.map fun e => (e.1, e.2.mapPolicies f), ct.id⟩ ct =
      Node.mapPolicies f <$> Scope.mapContentType ⟨settings, model.ids, made, ct.id⟩ ct :=
    @Scope.mapContentType_letting f hf ⟨settings, model.ids, made, ct.id⟩ pass hp ct
  simp only [addSchema, h, bind_pure_comp, Functor.map_map, Entries.map_put]

/-- A run under one policy is the run under the other with its policies changed. -/
theorem graph_letting (model : ContentModel) : model.graph (settings.letting pass) =
    (model.graph settings).map (Graph.mapPolicies f) := by
  have hs : model.schemas (settings.letting pass) =
      List.map (fun e => (e.1, e.2.mapPolicies f)) <$> model.schemas settings := by
    have hseq : model.sequence (settings.letting pass) = model.sequence settings := rfl
    unfold schemas
    rw [hseq]
    split
    · rfl
    · split
      · rfl
      · exact Report.foldlM_map (addSchema_letting hf hp) _ []
  rw [graph, graph, hs, Report.messages, Report.warnings_map, Report.outcome_map]
  cases (model.schemas settings).outcome <;> rfl

end ContentModel

omit hf

/-- The graph in which further keys pass is made just where the one in which they are refused is
made, with the same warnings, or fails with the same failure. It is that graph with each strict
object let through and all others stripping, as they were, and it accepts what that graph accepts.
Strict are at least the entries and their fields. -/
theorem letting_pass (model : ContentModel) (settings : Settings) :
    model.graph (settings.letting true) =
        (model.graph (settings.letting false)).map (Graph.mapPolicies .loosened) ∧
      ∀ graph, model.graph (settings.letting false) = .ok graph →
        graph.HasEntries .strict ∧ (graph.mapPolicies .loosened).HasEntries .passthrough ∧
        graph.HasPolicies (fun policy => policy = .strict ∨ policy = .strip) ∧
        (graph.mapPolicies .loosened).HasPolicies
          (fun policy => policy = .passthrough ∨ policy = .strip) ∧
        Entries.keys (graph.mapPolicies .loosened).schemas = Entries.keys graph.schemas ∧
        (graph.mapPolicies .loosened).warnings = graph.warnings ∧
        ∀ id v, graph.Accepts id v → (graph.mapPolicies .loosened).Accepts id v := by
  have hl (f : ObjectPolicy → ObjectPolicy) (pass : Bool) (hf : f .strip = .strip)
      (hp : f (settings.letting false).objectPolicy = (settings.letting pass).objectPolicy) :
      model.graph (settings.letting pass) =
        (model.graph (settings.letting false)).map (Graph.mapPolicies f) := by
    rw [← settings.letting_letting false pass, ContentModel.graph_letting hf hp]
  have hloose := hl .loosened true rfl rfl
  refine ⟨hloose, ?_⟩
  intro graph h
  rw [h] at hloose
  -- the strict graph stays the same when what passes further keys is made to strip them
  have tightened : graph.mapPolicies (fun p => if p = .strict then .strict else .strip) = graph := by
    have hself := hl (fun p => if p = .strict then .strict else .strip) false rfl rfl
    rw [h] at hself
    exact (Except.ok.inj hself).symm
  have strict : graph.HasPolicies fun policy => policy = .strict ∨ policy = .strip := by
    have hany : graph.HasPolicies fun _ => True := fun _ _ _ _ _ _ => trivial
    rw [← tightened]
    refine hany.mapPolicies ?_
    rintro (_ | _ | _) - <;> simp
  refine ⟨ContentModel.hasEntries_graph h, ContentModel.hasEntries_graph hloose, strict,
    strict.mapPolicies ?_, Graph.keys_mapPolicies, rfl, ?_⟩
  · rintro _ (rfl | rfl) <;> simp [ObjectPolicy.loosened]
  · intro id v hv
    refine Graph.accepts_mapPolicies rfl ?_ hv
    rintro (_ | _ | _) <;> simp [ObjectPolicy.loosened]

/-- An entry of a content type without fields, with a key that no content type has. -/
def notedEntry (id : String) : Json.Value :=
  .object [
    ("sys", .object [("contentType", .object [("sys", .object [("id", .str id)])])]),
    ("fields", .object []), ("note", .null)]

theorem accepts_notedEntry {schemas : List (String × Node)} {id : String} {policy : ObjectPolicy} :
    Node.Accepts schemas (.object [("sys", Scope.discriminant id),
        ("fields", .object [] policy .empty)] policy .empty) (some (notedEntry id)) ↔
      policy ≠ .strict := by
  rw [Node.accepts_object]
  constructor
  · rintro ⟨members, hm, hk, -⟩ rfl
    obtain rfl := Json.Value.object.inj (Option.some.inj hm)
    have hnote := hk rfl "note" (by simp [Entries.keys])
    simp [Entries.keys] at hnote
  · intro hne
    refine ⟨_, rfl, fun hp => absurd hp hne, ?_⟩
    rw [List.forall_mem_cons, List.forall_mem_singleton]
    exact ⟨Node.accepts_discriminant.2 rfl, Node.accepts_object.2 ⟨[], rfl, by simp, by simp⟩⟩

/-- In a flat graph with a copied schema, an entry with a further key is accepted just where such
keys pass. -/
theorem letting_pass_linking :
    ∃ graph, (⟨[linking "a" 1 ["b"], bare "b"]⟩ : ContentModel).graph
        (flatSettings.letting false) = .ok graph ∧
      graph.HasEntries .strict ∧ (graph.mapPolicies .loosened).HasEntries .passthrough ∧
      graph.Accepts "b" (bareEntry "b") ∧
      (graph.mapPolicies .loosened).Accepts "b" (bareEntry "b") ∧
      ¬ graph.Accepts "b" (notedEntry "b") ∧
      (graph.mapPolicies .loosened).Accepts "b" (notedEntry "b") := by
  obtain ⟨graph, h, hl⟩ : ∃ graph, (⟨[linking "a" 1 ["b"], bare "b"]⟩ : ContentModel).graph
      (flatSettings.letting false) = .ok graph ∧
      graph.schemas.lookup "b" = some (.object [("sys", Scope.discriminant "b"),
        ("fields", .object [] .strict .empty)] .strict .empty) := by
    with_unfolding_all exact ⟨_, rfl, rfl⟩
  have hl' : (graph.mapPolicies .loosened).schemas.lookup "b" =
      some (.object [("sys", Scope.discriminant "b"),
        ("fields", .object [] .passthrough .empty)] .passthrough .empty) := by
    rw [Graph.mapPolicies, Entries.lookup_map, hl]
    rfl
  obtain ⟨made, node, hm⟩ :=
    ContentModel.exists_mappedWith h (List.mem_cons_of_mem _ List.mem_cons_self)
  have ha : graph.Accepts "b" (bareEntry "b") := ⟨node, hm.found, accepts_bareEntry hm.mapped⟩
  obtain ⟨-, hgraph⟩ := letting_pass ⟨[linking "a" 1 ["b"], bare "b"]⟩ flatSettings
  obtain ⟨hs, hp, -, -, -, -, hv⟩ := hgraph graph h
  refine ⟨graph, h, hs, hp, ha, hv "b" _ ha, ?_, _, hl', accepts_notedEntry.2 (by decide)⟩
  rintro ⟨node, hnode, hv⟩
  obtain rfl := Option.some.inj (hl.symm.trans hnode)
  exact accepts_notedEntry.1 hv rfl

end ContentSchema
