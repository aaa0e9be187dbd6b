import ContentSchema.Generate
import ContentSchema.Proofs.Graph.Keyed
import ContentSchema.Proofs.Model.Written

/-! # Stored graphs

A graph that is stored and read back is the same graph, and so is the module made from it.
-/

namespace ContentSchema

open Json

namespace Graph

variable {graph : Graph} {settings : Settings}

theorem plain_toValue (h : graph.Keyed) : graph.toValue.Plain := by
  have hs := Node.plain_shapeMembers h.1 fun e he => Node.plain_toValue (h.2 e he)
  have hw : (Value.list (graph.warnings.map .str)).Plain := .list (by simp [Value.Plain.str])
  unfold toValue
  split
  · exact .object (by simp) (by simp [hs])
  · exact .object (by simp) (by simp [hs, hw])

theorem read_toValue (h : graph.Keyed) {room : Nat}
    (hd : (Tree.ofValue graph.toValue).depth ≤ room) :
    Graph.read room (Tree.ofValue graph.toValue) = .ok graph := by
  obtain ⟨hr, hm⟩ := Tree.depth_object_le_iff.1 hd
  have hs : Reader.map (room - 1) (Node.read .text (room - 2))
      (Tree.ofValue (.object (Node.shapeMembers graph.schemas))) = .ok graph.schemas :=
    Node.read_shapeMembers (hm _ List.mem_cons_self) h.1 fun e he hde =>
      Node.read_toValue (h.2 e he) hde
  obtain ⟨schemas, warnings⟩ := graph
  rw [toValue, Tree.ofValue, Graph.read, Record.read, if_neg (Nat.ne_of_gt hr), Tree.ofMembers,
    Record.readMembers_slot rfl (by simp) (Slot.set_needed hs rfl)]
  cases warnings with
  | nil => rfl
  | cons w rest =>
    have hw : Reader.list (room - 1) Reader.text
        (Tree.ofValue (.list ((w :: rest).map .str))) = .ok (w :: rest) :=
      Reader.list_ofValue (hm ("warnings", _) (by simp)) fun _ _ _ => rfl
    rw [List.isEmpty_cons, if_neg Bool.false_ne_true, Tree.ofMembers,
      Record.readMembers_slot rfl (by simp) (Slot.set_defaulted hw rfl)]
    rfl

theorem storedNode_toValue (settings : Settings) {e : String × Node} (h : e.2.Keyed) :
    storedNode settings (e.1, e.2.toValue) = pure e := by
  have hn : Node.ofValue e.2.toValue = .ok e.2 := Node.read_toValue h (Nat.le_refl _)
  simp only [storedNode, hn]

theorem filterMap_text? (warnings : List String) :
    (warnings.map Value.str).filterMap Value.text? = warnings := by
  rw [List.filterMap_map]
  exact List.filterMap_some

theorem ofStored_toValue (h : graph.Keyed) : ofStored settings graph.toValue = .ok graph := by
  have hn : (Node.shapeMembers graph.schemas).mapM (storedNode settings) = pure graph.schemas := by
    rw [Node.shapeMembers_eq_map]
    exact Reader.mapM_map_eq_pure fun e he => storedNode_toValue settings (h.2 e he)
  have hs : (graph.toValue.member? "schemas").getD graph.toValue =
      .object (Node.shapeMembers graph.schemas) := rfl
  simp only [ofStored, hs, hn, Report.outcome_pure, Except.map, Report.messages,
    Report.warnings_pure, List.map_nil, List.append_nil, Entries.ofList_eq_self h.1]
  obtain ⟨schemas, _ | ⟨w, rest⟩⟩ := graph
  · rfl
  · exact congrArg (fun warnings => Except.ok (Graph.mk schemas warnings))
      (filterMap_text? (w :: rest))

theorem ofText_written (h : graph.Keyed) (hd : (Tree.ofValue graph.toValue).depth ≤ maxDepth) :
    ofText graph.toValue.pretty = .ok graph ∧ ofText graph.toValue.compact = .ok graph := by
  have hp := plain_toValue h
  have hr : Document.read ⟨Tree.ofValue graph.toValue, false⟩ (Graph.read maxDepth) =
      .ok graph := by
    simp only [Document.read, read_toValue h hd]
    rfl
  constructor
  · rw [ofText, Document.ofText_pretty hp, hr]
  · rw [ofText, Document.ofText_compact hp, hr]

end Graph

section

variable {text : String} {model : ContentModel} {graph : Graph} {settings : Settings}

theorem generateStored_eq_ok_iff {stored : Generated} :
    generateStored text settings = .ok stored ↔
      ∃ model graph, readModel text = .ok model ∧ model.graph settings = .ok graph ∧
        graph.store = stored := by
  cases hm : readModel text with
  | error failure => simp [generateStored, hm, bind, Except.bind]
  | ok model =>
    cases hg : model.graph settings <;>
      simp [generateStored, hm, hg, bind, Except.bind, pure, Except.pure]

theorem generate_eq_print (hm : readModel text = .ok model)
    (hg : model.graph settings = .ok graph) : generate text settings = graph.print settings := by
  simp only [generate, hm, hg, bind, Except.bind]

theorem generate_of_graph_error {failure : Failure} (hm : readModel text = .ok model)
    (hg : model.graph settings = .error failure) : generate text settings = .error failure := by
  simp only [generate, hm, hg, bind, Except.bind]

theorem readModel_eq_ok_iff : readModel text = .ok model ↔ ContentModel.ofText text = .ok model := by
  rw [readModel]
  cases ContentModel.ofText text <;> simp [Except.mapError]

theorem readModel_eq_error {failure : Failure} (h : readModel text = .error failure) :
    ∃ fault, failure = .invalidModel fault := by
  rw [readModel] at h
  cases hm : ContentModel.ofText text with
  | error fault =>
    rw [hm] at h
    exact ⟨fault, (Except.error.inj h).symm⟩
  | ok model =>
    rw [hm] at h
    cases h

theorem readModel_compact
    (h : ContentModel.read maxDepth (Tree.ofValue model.toValue) = .ok model) :
    readModel model.toValue.compact = .ok model := by
  rw [readModel, ContentModel.ofText, Document.ofText_compact model.plain_toValue, Document.read, h]
  rfl

theorem renderStored_store (h : graph.Keyed) (hd : (Tree.ofValue graph.toValue).depth ≤ maxDepth) :
    renderStored graph.store.source settings = graph.print settings := by
  have hp := Graph.plain_toValue h
  have hv : (Document.ofText graph.store.source).value? = some graph.toValue := by
    rw [Graph.store, Document.ofText_pretty hp]
    exact Tree.value?_ofValue hp hd
  simp only [renderStored, hv, Graph.ofStored_toValue h]
  rfl

end

/-- A graph that is stored is read back as it was, and prints as it would have printed. So a module
made by way of a stored graph is the module made at once. -/
theorem stored_round_trip (settings : Settings) :
    (∀ graph : Graph, graph.Keyed → (Tree.ofValue graph.toValue).depth ≤ maxDepth →
      Graph.ofText graph.toValue.pretty = .ok graph ∧
      Graph.ofText graph.toValue.compact = .ok graph ∧
      renderStored graph.toValue.pretty settings = graph.print settings) ∧
    ∀ text stored, generateStored text settings = .ok stored →
      (Document.ofText stored.source).root.depth ≤ maxDepth →
      renderStored stored.source settings = generate text settings := by
  constructor
  · intro graph h hd
    obtain ⟨hp, hc⟩ := Graph.ofText_written h hd
    exact ⟨hp, hc, renderStored_store h hd⟩
  · intro text stored h hd
    obtain ⟨model, graph, hm, hg, rfl⟩ := generateStored_eq_ok_iff.1 h
    have hk := ContentModel.keyed_graph hg
    rw [Graph.store, Document.ofText_pretty (Graph.plain_toValue hk)] at hd
    rw [renderStored_store hk hd, generate_eq_print hm hg]

/-- A content type whose entries list entries of their own type, and of one that is missing. -/
def selfLinked : ContentModel :=
  ⟨[⟨"page", "", none, none, [⟨"next", "", ⟨"Array", none, []⟩,
    [⟨"Link", some "Entry", [⟨some (.many ["page", "gone"]), none⟩]⟩], false, false⟩]⟩]⟩

theorem stored_round_trip_selfLinked :
    ∃ graph stored, selfLinked.graph ⟨false, .warn, false, .standard⟩ = .ok graph ∧
      graph.Keyed ∧ (Tree.ofValue graph.toValue).depth ≤ maxDepth ∧
      Graph.ofText graph.toValue.pretty = .ok graph ∧
      generateStored selfLinked.toValue.compact ⟨false, .warn, false, .standard⟩ = .ok stored ∧
      (Document.ofText stored.source).root.depth ≤ maxDepth ∧
      renderStored stored.source ⟨false, .warn, false, .standard⟩ =
        generate selfLinked.toValue.compact ⟨false, .warn, false, .standard⟩ := by
  obtain ⟨graph, hg, hd⟩ : ∃ graph, selfLinked.graph ⟨false, .warn, false, .standard⟩ = .ok graph ∧
      (Tree.ofValue graph.toValue).depth ≤ maxDepth := ⟨_, rfl, by decide +kernel⟩
  have hk := ContentModel.keyed_graph hg
  have hs : generateStored selfLinked.toValue.compact ⟨false, .warn, false, .standard⟩ =
      .ok graph.store := generateStored_eq_ok_iff.2 ⟨_, _, readModel_compact rfl, hg, rfl⟩
  have hsd : (Document.ofText graph.store.source).root.depth ≤ maxDepth := by
    rwa [Graph.store, Document.ofText_pretty (Graph.plain_toValue hk)]
  have ht := stored_round_trip ⟨false, .warn, false, .standard⟩
  exact ⟨graph, graph.store, hg, hk, hd, (ht.1 graph hk hd).1, hs, hsd, ht.2 _ _ hs hsd⟩

end ContentSchema
