import ContentSchema.Validator.Basic

/-! # Equality of validators

Nodes are compared part by part, which decides whether they are equal.
-/

namespace ContentSchema.Node

mutual

def same : Node → Node → Bool
  | primitive p tags, primitive p' tags' => p == p' && tags == tags'
  | object shape policy tags, object shape' policy' tags' =>
    sameShape shape shape' && policy == policy' && tags == tags'
  | array element tags, array element' tags' => element.same element' && tags == tags'
  | optional inner tags, optional inner' tags' => inner.same inner' && tags == tags'
  | union branches tags, union branches' tags' => sameBranches branches branches' && tags == tags'
  | unknown tags, unknown tags' => tags == tags'
  | _, _ => false

def sameShape : List (String × Node) → List (String × Node) → Bool
  | [], [] => true
  | (key, node) :: rest, (key', node') :: rest' =>
    key == key' && node.same node' && sameShape rest rest'
  | _, _ => false

def sameBranches : List Node → List Node → Bool
  | [], [] => true
  | node :: rest, node' :: rest' => node.same node' && sameBranches rest rest'
  | _, _ => false

end

mutual

theorem same_iff : ∀ a b : Node, a.same b = true ↔ a = b
  | primitive .., b => by cases b <;> simp [same]
  | object shape .., b => by cases b <;> simp [same, sameShape_iff shape, and_assoc]
  | array element _, b => by cases b <;> simp [same, same_iff element]
  | optional inner _, b => by cases b <;> simp [same, same_iff inner]
  | union branches _, b => by cases b <;> simp [same, sameBranches_iff branches]
  | unknown _, b => by cases b <;> simp [same]

theorem sameShape_iff : ∀ a b : List (String × Node), sameShape a b = true ↔ a = b
  | [], b => by cases b <;> simp [sameShape]
  | (_, node) :: rest, b => by
    rcases b with _ | ⟨⟨_, _⟩, _⟩ <;> simp [sameShape, same_iff node, sameShape_iff rest]

theorem sameBranches_iff : ∀ a b : List Node, sameBranches a b = true ↔ a = b
  | [], b => by cases b <;> simp [sameBranches]
  | node :: rest, b => by
    cases b <;> simp [sameBranches, same_iff node, sameBranches_iff rest]

end

instance : DecidableEq Node := fun a b => decidable_of_iff _ (same_iff a b)

end ContentSchema.Node
