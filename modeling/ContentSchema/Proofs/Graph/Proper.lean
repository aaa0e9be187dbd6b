import ContentSchema.Proofs.Graph.Closure
import ContentSchema.Proofs.Validator.Structure

/-! # Proper nodes

What printing relies on in assembled graphs: unions have at least two branches, built-ins that are
referred to exist, and what refers to a content type has no children.
-/

namespace ContentSchema

namespace Node

variable {node : Node}

def isBranched : Node → Bool
  | union branches _ => decide (2 ≤ branches.length)
  | _ => true

/-- All unions have at least two branches. -/
def Branched (node : Node) : Prop := ∀ n ∈ node.walk, n.isBranched = true

instance (node : Node) : Decidable node.Branched :=
  inferInstanceAs (Decidable (∀ n ∈ node.walk, n.isBranched = true))

theorem branched_iff :
    node.Branched ↔ node.isBranched = true ∧ ∀ child ∈ node.children, child.Branched :=
  forall_mem_walk_iff

theorem two_le_of_isBranched {branches : List Node} {tags : Tags}
    (h : (union branches tags).isBranched = true) : 2 ≤ branches.length :=
  of_decide_eq_true h

/-- Whether a node with these children may stand for what is referred to. -/
def mayStandFor (children : List Node) : Option NamedReference → Bool
  | some ⟨name, .builtin⟩ => (Builtin.lookup name).isSome
  | some ⟨_, .contentType⟩ => children.isEmpty
  | none => true

def isProper (node : Node) : Bool :=
  node.isBranched && mayStandFor node.children node.tags.reference

def Proper (node : Node) : Prop := ∀ n ∈ node.walk, n.isProper = true

instance (node : Node) : Decidable node.Proper :=
  inferInstanceAs (Decidable (∀ n ∈ node.walk, n.isProper = true))

theorem proper_iff :
    node.Proper ↔ node.isProper = true ∧ ∀ child ∈ node.children, child.Proper :=
  forall_mem_walk_iff

theorem isBranched_of_isProper (h : node.isProper = true) : node.isBranched = true :=
  (Bool.and_eq_true_iff.1 h).1

theorem Proper.branched (h : node.Proper) : node.Branched := fun n hn => isBranched_of_isProper (h n hn)

theorem lookup_isSome_of_isProper {name : String} (h : node.isProper = true)
    (hr : node.tags.reference = some ⟨name, .builtin⟩) : (Builtin.lookup name).isSome := by
  have hs := (Bool.and_eq_true_iff.1 h).2
  rwa [hr] at hs

theorem children_of_isProper {id : String} (h : node.isProper = true)
    (hr : node.tags.reference = some ⟨id, .contentType⟩) : node.children = [] := by
  have hs := (Bool.and_eq_true_iff.1 h).2
  rw [hr] at hs
  exact List.isEmpty_iff.1 hs

theorem isProper_withTags_links (links : Option LinkSet) :
    (node.withTags { node.tags with links := links }).isProper = node.isProper := by
  cases node <;> rfl

theorem proper_builtin {b : Builtin} (h : b ∈ Builtin.all) : b.node.Proper := by
  rcases Builtin.mem_all_iff.1 h with rfl | rfl | rfl | rfl <;> decide

theorem proper_withTags_empty (h : node.Proper) : (node.withTags .empty).Proper := by
  obtain ⟨hp, hc⟩ := proper_iff.1 h
  refine proper_iff.2 ⟨?_, by simpa using hc⟩
  have hb : (node.withTags .empty).isBranched = node.isBranched := by cases node <;> rfl
  rw [isProper, tags_withTags, hb, (Bool.and_eq_true_iff.1 hp).1]
  rfl

theorem proper_plain (p : Primitive) : (plain p).Proper :=
  proper_iff.2 ⟨rfl, by simp [plain, children]⟩

theorem proper_mapClosed : MapClosed Proper where
  basic h := by
    cases h with
    | plain p => exact proper_plain p
    | builtin h => exact proper_builtin h
    | any => decide
  reference id := proper_iff.2 ⟨rfl, by simp [linkTarget, any, withReference, withTags, children]⟩
  relinked links h := by
    obtain ⟨hp, hc⟩ := proper_iff.1 h
    exact proper_iff.2 ⟨(isProper_withTags_links links).trans hp, by simpa using hc⟩
  array h := proper_iff.2 ⟨rfl, by simpa [children] using h⟩
  optional h := proper_iff.2 ⟨rfl, by simpa [children] using h⟩
  union hl h := proper_iff.2 ⟨Bool.and_eq_true_iff.2 ⟨decide_eq_true hl, rfl⟩, h⟩
  record policy h := by
    refine proper_iff.2 ⟨rfl, ?_⟩
    rw [record, children, List.forall_mem_map]
    intro e he
    exact h e (Entries.mem_of_mem_ofList he)

end Node

theorem ContentModel.proper_graph {model : ContentModel} {settings : Settings} {graph : Graph}
    (h : model.graph settings = .ok graph) : ∀ e ∈ graph.schemas, e.2.Proper :=
  graph_closed Node.proper_mapClosed h

end ContentSchema
