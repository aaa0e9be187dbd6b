import ContentSchema.Proofs.Entries
import ContentSchema.Proofs.Validator.Structure

/-! # Inlining

A node is inlined by putting a copy of its schema in the place of each content type that it refers
to. A copy takes over the links of what it stands for.
-/

namespace ContentSchema.Node

/-- What stands for a node with these tags: a copy of the schema that it refers to, or `body`. -/
def copied (schemas : List (String × Node)) (tags : Tags) (body : Node) : Node :=
  match tags.reference with
  | some ⟨id, .contentType⟩ =>
    let target := linkTarget (some schemas) id
    target.withTags { target.tags with links := tags.links }
  | _ => body

mutual

def inline (schemas : List (String × Node)) : Node → Node
  | primitive p tags => copied schemas tags (primitive p tags)
  | object shape policy tags =>
    copied schemas tags (object (inlineShape schemas shape) policy tags)
  | array element tags => copied schemas tags (array (element.inline schemas) tags)
  | optional inner tags => copied schemas tags (optional (inner.inline schemas) tags)
  | union branches tags => copied schemas tags (union (inlineBranches schemas branches) tags)
  | unknown tags => copied schemas tags (unknown tags)

def inlineShape (schemas : List (String × Node)) : List (String × Node) → List (String × Node)
  | [] => []
  | (key, node) :: rest => (key, node.inline schemas) :: inlineShape schemas rest

def inlineBranches (schemas : List (String × Node)) : List Node → List Node
  | [] => []
  | node :: rest => node.inline schemas :: inlineBranches schemas rest

end

variable {schemas schemas' : List (String × Node)} {node : Node}

theorem inlineShape_eq_map (shape : List (String × Node)) :
    inlineShape schemas shape = shape.map fun e => (e.1, e.2.inline schemas) := by
  induction shape with
  | nil => rfl
  | cons e rest ih => rw [inlineShape, ih, List.map_cons]

theorem inlineBranches_eq_map (branches : List Node) :
    inlineBranches schemas branches = branches.map (inline schemas) := by
  induction branches with
  | nil => rfl
  | cons b rest ih => rw [inlineBranches, ih, List.map_cons]

def inlineChildren (schemas : List (String × Node)) : Node → Node
  | object shape policy tags => object (inlineShape schemas shape) policy tags
  | array element tags => array (element.inline schemas) tags
  | optional inner tags => optional (inner.inline schemas) tags
  | union branches tags => union (inlineBranches schemas branches) tags
  | node => node

theorem inline_eq (node : Node) :
    node.inline schemas = copied schemas node.tags (node.inlineChildren schemas) := by
  cases node <;> rfl

@[simp] theorem tags_inlineChildren : (node.inlineChildren schemas).tags = node.tags := by
  cases node <;> rfl

theorem inlineChildren_withTags (tags : Tags) :
    (node.withTags tags).inlineChildren schemas = (node.inlineChildren schemas).withTags tags := by
  cases node <;> rfl

theorem children_inlineChildren :
    (node.inlineChildren schemas).children = node.children.map (inline schemas) := by
  cases node <;>
    simp [inlineChildren, children, inlineShape_eq_map, inlineBranches_eq_map, Function.comp_def]

theorem inlineChildren_congr
    (h : ∀ child ∈ node.children, child.inline schemas = child.inline schemas') :
    node.inlineChildren schemas = node.inlineChildren schemas' := by
  cases node with
  | primitive p tags => rfl
  | object shape policy tags =>
    simp only [inlineChildren, inlineShape_eq_map]
    congr 1
    exact List.map_congr_left fun e he => congrArg _ (h e.2 (List.mem_map_of_mem he))
  | array element tags => exact congrArg (array · tags) (h element List.mem_cons_self)
  | optional inner tags => exact congrArg (optional · tags) (h inner List.mem_cons_self)
  | union branches tags =>
    simp only [inlineChildren, inlineBranches_eq_map]
    exact congrArg (union · tags) (List.map_congr_left h)
  | unknown tags => rfl

theorem inline_of_reference {id : String} (h : node.tags.reference = some ⟨id, .contentType⟩) :
    node.inline schemas = (linkTarget (some schemas) id).withTags
      { (linkTarget (some schemas) id).tags with links := node.tags.links } := by
  rw [inline_eq, copied, h]

theorem inline_of_no_reference (h : ∀ id, node.tags.reference ≠ some ⟨id, .contentType⟩) :
    node.inline schemas = node.inlineChildren schemas := by
  rw [inline_eq, copied]
  split
  · next id hr => exact absurd hr (h id)
  · rfl

/-- Only the schemas that the node refers to make a difference. -/
theorem inline_congr
    (h : ∀ id ∈ node.contentTypeReferences, schemas.lookup id = schemas'.lookup id) :
    node.inline schemas = node.inline schemas' := by
  induction node using induct with
  | step node ih =>
    by_cases hr : ∃ id, node.tags.reference = some ⟨id, .contentType⟩
    · obtain ⟨id, hr⟩ := hr
      have ht : linkTarget (some schemas) id = linkTarget (some schemas') id := by
        simp only [linkTarget, h id (mem_contentTypeReferences.2 (.inl hr))]
      rw [inline_of_reference hr, inline_of_reference hr, ht]
    · rw [not_exists] at hr
      rw [inline_of_no_reference hr, inline_of_no_reference hr]
      apply inlineChildren_congr
      intro child hc
      apply ih child hc
      intro id hid
      exact h id (mem_contentTypeReferences.2 (.inr ⟨child, hc, hid⟩))

theorem inlineChildren_eq_self
    (h : ∀ child ∈ node.children, child.inline schemas = child) :
    node.inlineChildren schemas = node := by
  cases node with
  | primitive p tags => rfl
  | object shape policy tags =>
    simp only [inlineChildren, inlineShape_eq_map]
    congr 1
    refine (List.map_congr_left fun e he => ?_).trans (List.map_id _)
    exact congrArg (Prod.mk e.1) (h e.2 (List.mem_map_of_mem he))
  | array element tags => exact congrArg (array · tags) (h element List.mem_cons_self)
  | optional inner tags => exact congrArg (optional · tags) (h inner List.mem_cons_self)
  | union branches tags =>
    simp only [inlineChildren, inlineBranches_eq_map]
    exact congrArg (union · tags) ((List.map_congr_left h).trans (List.map_id _))
  | unknown tags => rfl

theorem inline_of_no_references (h : ∀ id, id ∉ node.contentTypeReferences) :
    node.inline schemas = node := by
  induction node using induct with
  | step node ih =>
    rw [inline_of_no_reference fun id hr => h id (mem_contentTypeReferences.2 (.inl hr))]
    apply inlineChildren_eq_self
    intro child hc
    apply ih child hc
    intro id hid
    exact h id (mem_contentTypeReferences.2 (.inr ⟨child, hc, hid⟩))

theorem contentTypeReferences_openLink : openLink.contentTypeReferences = [] := rfl

theorem not_mem_contentTypeReferences_inline
    (h : ∀ e ∈ schemas, ∀ id, id ∉ e.2.contentTypeReferences) (id : String) :
    id ∉ (node.inline schemas).contentTypeReferences := by
  induction node using induct with
  | step node ih =>
    by_cases hr : ∃ id, node.tags.reference = some ⟨id, .contentType⟩
    · obtain ⟨target, hr⟩ := hr
      rw [inline_of_reference hr, mem_contentTypeReferences_withTags_links, linkTarget]
      cases hl : schemas.lookup target with
      | none => simp [contentTypeReferences_openLink]
      | some n => exact h _ (Entries.mem_of_lookup hl) id
    · rw [not_exists] at hr
      rw [inline_of_no_reference hr, mem_contentTypeReferences, tags_inlineChildren,
        children_inlineChildren]
      rintro (hid | ⟨child, hm, hid⟩)
      · exact hr id hid
      · obtain ⟨c, hc, rfl⟩ := List.mem_map.1 hm
        exact ih c hc hid

@[simp] theorem links_inline : (node.inline schemas).tags.links = node.tags.links := by
  rw [inline_eq, copied]
  split <;> simp

theorem inline_withTags_links (links : Option LinkSet) :
    (node.withTags { node.tags with links := links }).inline schemas =
      (node.inline schemas).withTags { (node.inline schemas).tags with links := links } := by
  by_cases hr : ∃ id, node.tags.reference = some ⟨id, .contentType⟩
  · obtain ⟨id, hr⟩ := hr
    rw [inline_of_reference hr, inline_of_reference (by rwa [tags_withTags])]
    simp
  · rw [not_exists] at hr
    rw [inline_of_no_reference hr, inline_of_no_reference (by rwa [tags_withTags]),
      inlineChildren_withTags, tags_inlineChildren]

theorem inline_listed : node.listed.inline schemas = (node.inline schemas).listed := by
  simp only [listed, takeLinks, links_inline, ← inline_withTags_links]
  rw [inline_of_no_reference (by simp [Node.tags, Tags.empty]), inlineChildren]

theorem inline_wrapped : node.wrapped.inline schemas = (node.inline schemas).wrapped := by
  simp only [wrapped, takeLinks, links_inline, ← inline_withTags_links]
  rw [inline_of_no_reference (by simp [Node.tags, Tags.empty]), inlineChildren]

theorem inline_record (entries : List (String × Node)) (policy : ObjectPolicy) :
    (record entries policy).inline schemas =
      record (entries.map fun e => (e.1, e.2.inline schemas)) policy := by
  rw [record, inline_of_no_reference (by simp [Node.tags, Tags.empty]), inlineChildren,
    inlineShape_eq_map, Entries.map_ofList]
  rfl

theorem links_linkTarget {id : String} (h : ∀ e ∈ schemas, e.2.tags.links = none) :
    (linkTarget (some schemas) id).tags.links = none := by
  rw [linkTarget]
  cases hl : schemas.lookup id with
  | none => rfl
  | some target => exact h _ (Entries.mem_of_lookup hl)

theorem inline_linkTarget {id : String} (h : ∀ e ∈ schemas, e.2.tags.links = none) :
    (linkTarget none id).inline schemas = linkTarget (some schemas) id := by
  have hl : (linkTarget none id).tags.links = (linkTarget (some schemas) id).tags.links :=
    (links_linkTarget h).symm
  rw [inline_of_reference rfl, hl]
  exact withTags_tags

theorem inline_link (h : ∀ e ∈ schemas, e.2.tags.links = none) (targets : List String) :
    (link targets none).inline schemas = link targets (some schemas) := by
  unfold link
  split
  · exact inline_of_no_references (by simp [contentTypeReferences_openLink])
  · rw [withLinks, inline_withTags_links, inline_linkTarget h, withLinks]
  · rw [withLinks, inline_withTags_links,
      inline_of_no_reference (by simp [Node.tags, Tags.empty]), inlineChildren,
      inlineBranches_eq_map, List.map_map]
    simp only [Function.comp_def, inline_linkTarget h]
    rfl

end ContentSchema.Node
