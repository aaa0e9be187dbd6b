import ContentSchema.Proofs.Validator.Structure

/-! # Outermost references

A walk that ends at some of the references of a node meets just those of them that lie inside no
other one.
-/

namespace ContentSchema.Node

def endOr (ends : NamedReference → Bool) (tags : Tags) (inner : List NamedReference) :
    List NamedReference :=
  match tags.reference.filter ends with
  | some r => [r]
  | none => inner

mutual

/-- The references at which a walk over the node ends, in order. -/
def outermost (ends : NamedReference → Bool) : Node → List NamedReference
  | primitive _ tags => endOr ends tags []
  | object shape _ tags => endOr ends tags (shapeOutermost ends shape)
  | array element tags => endOr ends tags (element.outermost ends)
  | optional inner tags => endOr ends tags (inner.outermost ends)
  | union branches tags => endOr ends tags (branchOutermost ends branches)
  | unknown tags => endOr ends tags []

def shapeOutermost (ends : NamedReference → Bool) : List (String × Node) → List NamedReference
  | [] => []
  | (_, node) :: rest => node.outermost ends ++ shapeOutermost ends rest

def branchOutermost (ends : NamedReference → Bool) : List Node → List NamedReference
  | [] => []
  | node :: rest => node.outermost ends ++ branchOutermost ends rest

end

/-- The content types that stand for parts of the node where it is inlined: what lies inside a
reference to one is left out for it. -/
def followed (node : Node) : List String :=
  (node.outermost (·.target == .contentType)).map (·.name)

variable {ends : NamedReference → Bool} {node : Node} {r : NamedReference}

theorem shapeOutermost_eq_flatMap (shape : List (String × Node)) :
    shapeOutermost ends shape = shape.flatMap (·.2.outermost ends) := by
  induction shape with
  | nil => rfl
  | cons e rest ih => rw [shapeOutermost, ih, List.flatMap_cons]

theorem branchOutermost_eq_flatMap (branches : List Node) :
    branchOutermost ends branches = branches.flatMap (outermost ends) := by
  induction branches with
  | nil => rfl
  | cons b rest ih => rw [branchOutermost, ih, List.flatMap_cons]

theorem outermost_eq (node : Node) :
    node.outermost ends = endOr ends node.tags (node.children.flatMap (outermost ends)) := by
  cases node with
  | object shape policy tags =>
    rw [outermost, shapeOutermost_eq_flatMap, children, List.flatMap_map]
    rfl
  | union branches tags =>
    rw [outermost, branchOutermost_eq_flatMap]
    rfl
  | array element tags => simp [outermost, children, Node.tags]
  | optional inner tags => simp [outermost, children, Node.tags]
  | _ => rfl

theorem outermost_of_ends (hr : node.tags.reference = some r) (he : ends r = true) :
    node.outermost ends = [r] := by
  rw [outermost_eq, endOr, hr, Option.filter_some_pos he]

theorem outermost_of_not_ends (h : ∀ r, node.tags.reference = some r → ends r = false) :
    node.outermost ends = node.children.flatMap (outermost ends) := by
  have hn : node.tags.reference.filter ends = none := by
    simpa [Option.filter_eq_none_iff] using h
  rw [outermost_eq, endOr, hn]

theorem mem_walk_of_mem_outermost (h : r ∈ node.outermost ends) :
    (∃ n ∈ node.walk, n.tags.reference = some r) ∧ ends r = true := by
  induction node using induct with
  | step node ih =>
    rw [walk_eq]
    by_cases hr : ∃ r', node.tags.reference = some r' ∧ ends r' = true
    · obtain ⟨r', hr, he⟩ := hr
      rw [outermost_of_ends hr he] at h
      obtain rfl := List.mem_singleton.1 h
      exact ⟨⟨node, List.mem_cons_self, hr⟩, he⟩
    · rw [outermost_of_not_ends fun r' hr' => Bool.eq_false_iff.2 fun he => hr ⟨r', hr', he⟩] at h
      obtain ⟨child, hc, h⟩ := List.mem_flatMap.1 h
      obtain ⟨⟨n, hn, href⟩, he⟩ := ih child hc h
      exact ⟨⟨n, List.mem_cons_of_mem _ (List.mem_flatMap.2 ⟨child, hc, hn⟩), href⟩, he⟩

theorem ends_of_mem_outermost (h : r ∈ node.outermost ends) : ends r = true :=
  (mem_walk_of_mem_outermost h).2

theorem mem_followed {id : String} :
    id ∈ node.followed ↔ ⟨id, .contentType⟩ ∈ node.outermost (·.target == .contentType) := by
  rw [followed, List.mem_map]
  constructor
  · rintro ⟨⟨name, target⟩, hr, rfl⟩
    obtain rfl : target = .contentType := beq_iff_eq.1 (ends_of_mem_outermost hr)
    exact hr
  · intro h
    exact ⟨_, h, rfl⟩

end ContentSchema.Node
