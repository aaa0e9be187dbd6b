import ContentSchema.Proofs.Validator.Outermost
import Mathlib.Data.List.Basic

/-! # Degraded nodes

A node is degraded by letting everything pass where it refers to a content type without a schema. Of
its outermost references those that dangle are gone, and no others.
-/

namespace ContentSchema

def NamedReference.dangles (known : List String) (r : NamedReference) : Bool :=
  r.target == .contentType && !known.contains r.name

theorem NamedReference.dangles_iff {known : List String} {r : NamedReference} :
    r.dangles known = true ↔ r.target = .contentType ∧ r.name ∉ known := by
  simp [dangles]

namespace Node

def orAny (known : List String) (tags : Tags) (node : Node) : Node :=
  if tags.reference.any (·.dangles known) then any else node

mutual

def degraded (known : List String) : Node → Node
  | primitive p tags => orAny known tags (primitive p tags)
  | object shape policy tags => orAny known tags (object (degradedShape known shape) policy tags)
  | array element tags => orAny known tags (array (element.degraded known) tags)
  | optional inner tags => orAny known tags (optional (inner.degraded known) tags)
  | union branches tags => orAny known tags (union (degradedBranches known branches) tags)
  | unknown tags => orAny known tags (unknown tags)

def degradedShape (known : List String) : List (String × Node) → List (String × Node)
  | [] => []
  | (key, node) :: rest => (key, node.degraded known) :: degradedShape known rest

def degradedBranches (known : List String) : List Node → List Node
  | [] => []
  | node :: rest => node.degraded known :: degradedBranches known rest

end

def degradedChildren (known : List String) : Node → Node
  | object shape policy tags => object (degradedShape known shape) policy tags
  | array element tags => array (element.degraded known) tags
  | optional inner tags => optional (inner.degraded known) tags
  | union branches tags => union (degradedBranches known branches) tags
  | node => node

/-- The content types without a schema that the node refers to where nothing around it stands for
something else. -/
def dangling (known : List String) (node : Node) : List String :=
  ((node.outermost fun _ => true).filter (·.dangles known)).map (·.name)

variable {known : List String} {node : Node}

theorem degradedShape_eq_map (shape : List (String × Node)) :
    degradedShape known shape = shape.map fun e => (e.1, e.2.degraded known) := by
  induction shape with
  | nil => rfl
  | cons e rest ih => rw [degradedShape, ih, List.map_cons]

theorem degradedBranches_eq_map (branches : List Node) :
    degradedBranches known branches = branches.map (degraded known) := by
  induction branches with
  | nil => rfl
  | cons b rest ih => rw [degradedBranches, ih, List.map_cons]

theorem degraded_eq (node : Node) :
    node.degraded known = orAny known node.tags (node.degradedChildren known) := by
  cases node <;> rfl

theorem degraded_of_dangles {r : NamedReference} (hr : node.tags.reference = some r)
    (hd : r.dangles known = true) : node.degraded known = any := by
  rw [degraded_eq, orAny, hr, Option.any_some, if_pos hd]

theorem degraded_of_not_dangles (h : ∀ r, node.tags.reference = some r → r.dangles known = false) :
    node.degraded known = node.degradedChildren known := by
  rw [degraded_eq, orAny, if_neg]
  simpa [Option.any_eq_true] using h

@[simp] theorem tags_degradedChildren : (node.degradedChildren known).tags = node.tags := by
  cases node <;> rfl

theorem children_degradedChildren :
    (node.degradedChildren known).children = node.children.map (degraded known) := by
  cases node <;>
    simp [degradedChildren, children, degradedShape_eq_map, degradedBranches_eq_map,
      Function.comp_def]

theorem outermost_degraded (node : Node) :
    ((node.degraded known).outermost fun _ => true) =
      (node.outermost fun _ => true).filter (!·.dangles known) := by
  induction node using induct with
  | step node ih =>
    cases hr : node.tags.reference with
    | some r =>
      rw [outermost_of_ends hr rfl]
      cases hd : r.dangles known with
      | true =>
        rw [degraded_of_dangles hr hd, outermost_of_not_ends (by simp [any, tags, Tags.empty])]
        simp [any, children, hd]
      | false =>
        have hn : ∀ r', node.tags.reference = some r' → r'.dangles known = false := by
          rintro r' hr'
          rwa [← Option.some.inj (hr.symm.trans hr')]
        rw [degraded_of_not_dangles hn, outermost_of_ends (tags_degradedChildren ▸ hr) rfl]
        simp [hd]
    | none =>
      rw [degraded_of_not_dangles (by simp [hr]), outermost_of_not_ends (by simp [hr]),
        outermost_of_not_ends (by simp [hr]), children_degradedChildren, List.flatMap_map,
        List.filter_flatMap]
      exact List.flatMap_congr ih

end Node

end ContentSchema
