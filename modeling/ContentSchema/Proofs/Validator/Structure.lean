import ContentSchema.Validator.Link

/-! # The structure of validators

A node is made of its children and its tags. What refers to a content type is the node itself or one
of its children.
-/

namespace ContentSchema.Node

variable {node : Node} {id : String}

def children : Node → List Node
  | object shape _ _ => shape.map (·.2)
  | array element _ => [element]
  | optional inner _ => [inner]
  | union branches _ => branches
  | _ => []

@[simp] theorem children_withTags (tags : Tags) :
    (node.withTags tags).children = node.children := by
  cases node <;> rfl

@[simp] theorem tags_withTags (tags : Tags) : (node.withTags tags).tags = tags := by
  cases node <;> rfl

@[simp] theorem withTags_withTags (tags tags' : Tags) :
    (node.withTags tags).withTags tags' = node.withTags tags' := by
  cases node <;> rfl

@[simp] theorem withTags_tags : node.withTags node.tags = node := by
  cases node <;> rfl

theorem link_cons_cons (a b : String) (rest : List String)
    (copies : Option (List (String × Node))) :
    link (a :: b :: rest) copies =
      (union ((a :: b :: rest).map (linkTarget copies)) .empty).withLinks
        ⟨a :: b :: rest, false, false⟩ := rfl

/-- What passes from the children of each node to the node holds of all nodes. -/
theorem induct {P : Node → Prop} (step : ∀ node, (∀ child ∈ node.children, P child) → P node)
    (node : Node) : P node := by
  refine @Node.rec P (fun shape => ∀ e ∈ shape, P e.2) (fun branches => ∀ b ∈ branches, P b)
    (fun e => P e.2) ?primitive ?object ?array ?optional ?union ?unknown ?nil ?cons ?nilBranch
    ?consBranch ?entry node
  case primitive =>
    intro p tags
    exact step _ (by simp [children])
  case object =>
    intro shape policy tags ih
    exact step _ (List.forall_mem_map.2 ih)
  case array =>
    intro element tags ih
    exact step _ (by simpa [children] using ih)
  case optional =>
    intro inner tags ih
    exact step _ (by simpa [children] using ih)
  case union =>
    intro branches tags ih
    exact step _ ih
  case unknown =>
    intro tags
    exact step _ (by simp [children])
  case nil => simp
  case cons =>
    intro e rest he ih
    exact List.forall_mem_cons.2 ⟨he, ih⟩
  case nilBranch => simp
  case consBranch =>
    intro b rest hb ih
    exact List.forall_mem_cons.2 ⟨hb, ih⟩
  case entry =>
    intro _ _ h
    exact h

theorem walkShape_eq_flatMap (shape : List (String × Node)) :
    walkShape shape = shape.flatMap (·.2.walk) := by
  induction shape with
  | nil => rfl
  | cons e rest ih => rw [walkShape, ih, List.flatMap_cons]

theorem walkBranches_eq_flatMap (branches : List Node) :
    walkBranches branches = branches.flatMap walk := by
  induction branches with
  | nil => rfl
  | cons b rest ih => rw [walkBranches, ih, List.flatMap_cons]

theorem walk_eq (node : Node) : node.walk = node :: node.children.flatMap walk := by
  cases node with
  | primitive p tags => rfl
  | object shape policy tags =>
    rw [walk, walkShape_eq_flatMap, children, List.flatMap_map]
  | array element tags => rw [walk, children, List.flatMap_singleton]
  | optional inner tags => rw [walk, children, List.flatMap_singleton]
  | union branches tags => rw [walk, walkBranches_eq_flatMap, children]
  | unknown tags => rfl

theorem forall_mem_walk_iff {P : Node → Prop} :
    (∀ n ∈ node.walk, P n) ↔ P node ∧ ∀ child ∈ node.children, ∀ n ∈ child.walk, P n := by
  rw [walk_eq, List.forall_mem_cons]
  simp only [List.mem_flatMap]
  constructor
  · rintro ⟨h, hc⟩
    exact ⟨h, fun child hm n hn => hc n ⟨child, hm, hn⟩⟩
  · rintro ⟨h, hc⟩
    exact ⟨h, fun n ⟨child, hm, hn⟩ => hc child hm n hn⟩

theorem mem_contentTypeReferences_of_mem_walk {n : Node} (hn : n ∈ node.walk)
    (hr : n.tags.reference = some ⟨id, .contentType⟩) : id ∈ node.contentTypeReferences := by
  rw [contentTypeReferences, List.mem_eraseDups, List.mem_filterMap]
  refine ⟨n, hn, ?_⟩
  rw [hr]
  rfl

theorem mem_contentTypeReferences :
    id ∈ node.contentTypeReferences ↔
      node.tags.reference = some ⟨id, .contentType⟩ ∨
        ∃ child ∈ node.children, id ∈ child.contentTypeReferences := by
  have named (n : Node) : (n.tags.reference.bind fun r =>
      if r.target = .contentType then some r.name else none) = some id ↔
      n.tags.reference = some ⟨id, .contentType⟩ := by
    rcases n.tags.reference with _ | ⟨name, _ | _⟩ <;> simp
  simp only [contentTypeReferences, List.mem_eraseDups, List.mem_filterMap, named]
  rw [walk_eq]
  constructor
  · rintro ⟨n, hn, hr⟩
    rcases List.mem_cons.1 hn with rfl | hn
    · exact .inl hr
    · obtain ⟨child, hc, hn⟩ := List.mem_flatMap.1 hn
      exact .inr ⟨child, hc, n, hn, hr⟩
  · rintro (hr | ⟨child, hc, n, hn, hr⟩)
    · exact ⟨node, List.mem_cons_self, hr⟩
    · exact ⟨n, List.mem_cons_of_mem _ (List.mem_flatMap.2 ⟨child, hc, hn⟩), hr⟩

@[simp] theorem mem_contentTypeReferences_withTags_links {links : Option LinkSet} :
    id ∈ (node.withTags { node.tags with links := links }).contentTypeReferences ↔
      id ∈ node.contentTypeReferences := by
  rw [mem_contentTypeReferences, @mem_contentTypeReferences node]
  simp

@[simp] theorem mem_contentTypeReferences_withLinks {links : LinkSet} :
    id ∈ (node.withLinks links).contentTypeReferences ↔ id ∈ node.contentTypeReferences :=
  mem_contentTypeReferences_withTags_links

@[simp] theorem mem_contentTypeReferences_listed :
    id ∈ node.listed.contentTypeReferences ↔ id ∈ node.contentTypeReferences := by
  rw [mem_contentTypeReferences]
  simp only [listed, takeLinks, children, List.mem_singleton, exists_eq_left,
    mem_contentTypeReferences_withTags_links]
  simp [Node.tags, Tags.empty]

@[simp] theorem mem_contentTypeReferences_wrapped :
    id ∈ node.wrapped.contentTypeReferences ↔ id ∈ node.contentTypeReferences := by
  rw [mem_contentTypeReferences]
  simp only [wrapped, takeLinks, children, List.mem_singleton, exists_eq_left,
    mem_contentTypeReferences_withTags_links]
  simp [Node.tags, Tags.empty]

theorem mem_contentTypeReferences_record {entries : List (String × Node)} {policy : ObjectPolicy} :
    id ∈ (record entries policy).contentTypeReferences ↔
      ∃ e ∈ Entries.ofList entries, id ∈ e.2.contentTypeReferences := by
  rw [mem_contentTypeReferences]
  constructor
  · rintro (h | ⟨child, hc, hr⟩)
    · cases h
    · obtain ⟨e, he, rfl⟩ := List.mem_map.1 hc
      exact ⟨e, he, hr⟩
  · rintro ⟨e, he, hr⟩
    exact .inr ⟨e.2, List.mem_map_of_mem he, hr⟩

end ContentSchema.Node
