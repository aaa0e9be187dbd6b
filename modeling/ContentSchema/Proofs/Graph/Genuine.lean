import ContentSchema.Proofs.Graph.Closure
import ContentSchema.Proofs.Graph.LinkSets

/-! # Genuine nodes

In an assembled graph, a built-in is referred to by its own node, and the node of rich text is the
only one that is cast to a type.
-/

namespace ContentSchema

namespace Node

variable {node : Node}

/-- The node is that of a built-in, or neither refers to one nor is cast to a type. -/
def IsGenuine (node : Node) : Prop :=
  (∃ b ∈ Builtin.all, node.unlinked = b.node) ∨
    (node.tags.cast = none ∧ ∀ name, node.tags.reference ≠ some ⟨name, .builtin⟩)

def Genuine (node : Node) : Prop := ∀ n ∈ node.walk, n.IsGenuine

theorem genuine_iff :
    node.Genuine ↔ node.IsGenuine ∧ ∀ child ∈ node.children, child.Genuine :=
  forall_mem_walk_iff

theorem isGenuine_of_untagged (h : node.tags = .empty) : node.IsGenuine := by
  right
  simp [h, Tags.empty]

theorem isGenuine_withTags_links (links : Option LinkSet) :
    (node.withTags { node.tags with links := links }).IsGenuine ↔ node.IsGenuine := by
  simp [IsGenuine, unlinked]

theorem untagged_of_mem_builtin {b : Builtin} (h : b ∈ Builtin.all) :
    ∀ n ∈ b.node.children.flatMap walk, n.tags = .empty := by
  rcases Builtin.mem_all_iff.1 h with rfl | rfl | rfl | rfl <;> decide

theorem reference_of_unlinked {b : Builtin} (hb : b ∈ Builtin.all) (h : node.unlinked = b.node) :
    node.tags.reference = some ⟨b.name, .builtin⟩ := by
  have hr : b.node.tags.reference = some ⟨b.name, .builtin⟩ := by
    rcases Builtin.mem_all_iff.1 hb with rfl | rfl | rfl | rfl <;> rfl
  have ht : node.unlinked.tags.reference = node.tags.reference := by rw [unlinked, tags_withTags]
  rw [← ht, h, hr]

theorem IsGenuine.cast_eq_none (h : node.IsGenuine)
    (hn : ∀ name, node.tags.reference ≠ some ⟨name, .builtin⟩) : node.tags.cast = none := by
  rcases h with ⟨b, hb, hnode⟩ | ⟨hc, -⟩
  · exact absurd (reference_of_unlinked hb hnode) (hn b.name)
  · exact hc

theorem genuine_builtin {b : Builtin} (h : b ∈ Builtin.all) : b.node.Genuine := by
  rw [Genuine, walk_eq, List.forall_mem_cons]
  constructor
  · refine .inl ⟨b, h, ?_⟩
    rcases Builtin.mem_all_iff.1 h with rfl | rfl | rfl | rfl <;> rfl
  · intro n hn
    exact isGenuine_of_untagged (untagged_of_mem_builtin h n hn)

theorem genuine_mapClosed : MapClosed Genuine where
  basic h := by
    cases h with
    | plain p => exact genuine_iff.2 ⟨isGenuine_of_untagged rfl, by simp [plain, children]⟩
    | builtin h => exact genuine_builtin h
    | any => exact genuine_iff.2 ⟨isGenuine_of_untagged rfl, by simp [any, children]⟩
  reference id := by
    refine genuine_iff.2
      ⟨.inr ⟨rfl, ?_⟩, by simp [linkTarget, any, withReference, withTags, children]⟩
    intro name h
    cases h
  relinked links h := by
    obtain ⟨hn, hc⟩ := genuine_iff.1 h
    exact genuine_iff.2 ⟨(isGenuine_withTags_links links).2 hn, by simpa using hc⟩
  array h := genuine_iff.2 ⟨isGenuine_of_untagged rfl, by simpa [children] using h⟩
  optional h := genuine_iff.2 ⟨isGenuine_of_untagged rfl, by simpa [children] using h⟩
  union _ h := genuine_iff.2 ⟨isGenuine_of_untagged rfl, h⟩
  record policy h := by
    refine genuine_iff.2 ⟨isGenuine_of_untagged rfl, ?_⟩
    rw [record, children, List.forall_mem_map]
    intro e he
    exact h e (Entries.mem_of_mem_ofList he)

end Node

theorem ContentModel.genuine_graph {model : ContentModel} {settings : Settings} {graph : Graph}
    (h : model.graph settings = .ok graph) : ∀ e ∈ graph.schemas, e.2.Genuine :=
  graph_closed Node.genuine_mapClosed h

end ContentSchema
