import ContentSchema.Proofs.Graph.Genuine
import ContentSchema.Proofs.Source.Flat
import ContentSchema.Proofs.Source.Linked
import ContentSchema.Proofs.Source.Statements

/-! # Names in expressions

The names that occur in the expression of a schema are those of what the schema refers to: the
constant of a built-in at once, that of a content type put off until a value is checked, and flat,
nothing but the type that a built-in is cast to.
-/

namespace ContentSchema

open Source

namespace Node

variable {follow : Follow} {node : Node} {e : Expr} {u : Use}

theorem uses_of_body {b : Expr} (h : (node.body follow).outcome = .ok b) :
    ∃ es, List.Forall₂ (fun child e => (child.expr follow).outcome = .ok e) node.children es ∧
      b.uses = es.flatMap (·.uses) := by
  cases node with
  | primitive p tags =>
    obtain rfl := Except.ok.inj h
    exact ⟨[], .nil, rfl⟩
  | object shape policy tags =>
    rw [body, shapeExprs_eq_mapM] at h
    obtain ⟨members, hm, rfl⟩ := Report.outcome_map_eq_ok.1 h
    refine ⟨members.map (·.2), ?_, ?_⟩
    · rw [children, List.forall₂_map_left_iff, List.forall₂_map_right_iff]
      refine (Report.outcome_mapM_eq_ok.1 hm).imp fun entry member hexpr => ?_
      obtain ⟨e, he, rfl⟩ := Report.outcome_map_eq_ok.1 hexpr
      exact he
    · rw [Expr.uses, Expr.memberUses_eq_flatMap, List.flatMap_map]
  | array element tags =>
    obtain ⟨e, he, rfl⟩ := Report.outcome_map_eq_ok.1 h
    exact ⟨[e], .cons he .nil, by rw [List.flatMap_singleton, Expr.uses]⟩
  | optional inner tags =>
    obtain ⟨e, he, rfl⟩ := Report.outcome_map_eq_ok.1 h
    exact ⟨[e], .cons he .nil, by rw [List.flatMap_singleton, Expr.uses]⟩
  | union branches tags =>
    rw [body] at h
    split at h
    · cases h
    · rw [branchExprs_eq_mapM] at h
      obtain ⟨es, hm, rfl⟩ := Report.outcome_map_eq_ok.1 h
      exact ⟨es, Report.outcome_mapM_eq_ok.1 hm, by rw [Expr.uses, Expr.branchUses_eq_flatMap]⟩
  | unknown tags =>
    obtain rfl := Except.ok.inj h
    exact ⟨[], .nil, rfl⟩

theorem exists_child_of_mem_uses {b : Expr} (h : (node.body follow).outcome = .ok b)
    (hu : u ∈ b.uses) :
    ∃ child ∈ node.children, ∃ e, (child.expr follow).outcome = .ok e ∧ u ∈ e.uses := by
  obtain ⟨es, hes, huses⟩ := uses_of_body h
  rw [huses] at hu
  obtain ⟨e, he, hu⟩ := List.mem_flatMap.1 hu
  obtain ⟨child, hc, hexpr⟩ := Report.exists_of_mem_right hes he
  exact ⟨child, hc, e, hexpr, hu⟩

theorem expr_of_unlinked {node' : Node} (h : node.unlinked = node') :
    node.expr follow = node'.expr follow := by
  rw [← h, unlinked, expr_withTags_links]

theorem uses_of_untagged (ht : ∀ n ∈ node.walk, n.tags = .empty)
    (h : (node.expr follow).outcome = .ok e) : e.uses = [] := by
  rw [List.eq_nil_iff_forall_not_mem]
  intro u hu
  induction node using induct generalizing e with
  | step node ih =>
    obtain ⟨hn, hc⟩ := forall_mem_walk_iff.1 ht
    rw [expr_of_untagged hn] at h
    obtain ⟨child, hm, e, he, hu⟩ := exists_child_of_mem_uses h hu
    exact ih child hm (hc child hm) he hu

theorem uses_of_body_builtin {b : Builtin} (hb : b ∈ Builtin.all)
    (h : (b.node.body follow).outcome = .ok e) : e.uses = [] := by
  rw [← body_withTags .empty, ← expr_of_untagged (tags_withTags .empty)] at h
  refine uses_of_untagged ?_ h
  rw [walk_eq, List.forall_mem_cons, children_withTags]
  exact ⟨tags_withTags .empty, untagged_of_mem_builtin hb⟩

end Node

namespace Outline

/-- What a name that occurs in the expression of `node` stands for. -/
inductive Stands (o : Outline) (node : Node) : Use → Prop
  | builtin {name : String} (h : name ∈ node.builtinNames) :
    Stands o node (.value (o.constant .builtin name))
  | contentType {id : String} (h : id ∈ node.contentTypeReferences)
    (hk : id ∈ Entries.keys o.schemas) : Stands o node (.deferred (o.constant .contentType id))
  | cast {b : Builtin} {type : String} (hb : b ∈ Builtin.all) (h : b.name ∈ node.builtinNames)
    (ht : b.node.tags.cast = some type) : Stands o node (.type type)

variable {o : Outline} {node child : Node} {e : Expr} {u : Use}

theorem Stands.of_child (h : o.Stands child u) (hc : child ∈ node.children)
    (hb : ∀ name, node.tags.reference ≠ some ⟨name, .builtin⟩) : o.Stands node u := by
  have hnames {name : String} (hn : name ∈ child.builtinNames) : name ∈ node.builtinNames := by
    rw [Node.builtinNames_of_not_builtin hb]
    exact List.mem_flatMap.2 ⟨child, hc, hn⟩
  cases h with
  | builtin h => exact .builtin (hnames h)
  | contentType h hk => exact .contentType (Node.mem_contentTypeReferences.2 (.inr ⟨child, hc, h⟩)) hk
  | cast hb' h ht => exact .cast hb' (hnames h) ht

theorem builtinNames_of_reference {name : String}
    (h : node.tags.reference = some ⟨name, .builtin⟩) : node.builtinNames = [name] := by
  rw [Node.builtinNames_eq, Node.stopAtBuiltin, h]

/-- Linked, built-ins and content types are referred to by name. -/
theorem stands_of_expr_byName (hg : node.Genuine) (h : (node.expr o.byName).outcome = .ok e)
    (hu : u ∈ e.uses) : o.Stands node u := by
  induction node using Node.induct generalizing e with
  | step node ih =>
    obtain ⟨hn, hc⟩ := Node.genuine_iff.1 hg
    cases hr : node.tags.reference with
    | some r =>
      obtain ⟨name, _ | _⟩ := r
      · rw [Node.expr_of_followed hr rfl] at h
        split at h
        · obtain rfl := Except.ok.inj h
          obtain rfl := List.mem_singleton.1 hu
          exact .builtin (builtinNames_of_reference hr ▸ List.mem_singleton_self name)
        · cases h
      · rw [Node.expr_of_followed hr rfl] at h
        split at h
        · next hk =>
          obtain rfl := Except.ok.inj h
          obtain rfl := List.mem_singleton.1 hu
          exact .contentType (Node.mem_contentTypeReferences.2 (.inl hr))
            (Entries.lookup_isSome_iff.1 hk)
        · obtain rfl := Except.ok.inj h
          cases hu
    | none =>
      have hcast := hn.cast_eq_none (by simp [hr])
      rw [Node.expr_of_not_followed (by simp [hr]), hcast] at h
      obtain ⟨b, hbody, rfl⟩ := Report.outcome_map_eq_ok.1 h
      obtain ⟨child, hm, e, he, hu⟩ := Node.exists_child_of_mem_uses hbody hu
      exact (ih child hm (hc child hm) he hu).of_child hm (by simp [hr])

theorem exists_cast_of_mem_uses_builtin {b : Builtin} (hb : b ∈ Builtin.all)
    (h : (b.node.expr Node.bare).outcome = .ok e) (hu : u ∈ e.uses) :
    ∃ type, b.node.tags.cast = some type ∧ u = .type type := by
  rw [Node.expr_bare] at h
  obtain ⟨body, hbody, rfl⟩ := Report.outcome_map_eq_ok.1 h
  have hnone : body.uses = [] := Node.uses_of_body_builtin hb hbody
  cases ht : b.node.tags.cast with
  | none =>
    rw [ht, Node.withType, hnone] at hu
    cases hu
  | some type =>
    rw [ht, Node.withType, Expr.uses, hnone] at hu
    exact ⟨type, rfl, List.mem_singleton.1 hu⟩

/-- Flat, no name occurs but a type that a built-in is cast to. -/
theorem stands_of_expr_bare (hg : node.Genuine) (h : (node.expr Node.bare).outcome = .ok e)
    (hu : u ∈ e.uses) : o.Stands node u ∧ ∃ type, u = .type type := by
  induction node using Node.induct generalizing e with
  | step node ih =>
    obtain ⟨hn, hc⟩ := Node.genuine_iff.1 hg
    by_cases hr : ∃ name, node.tags.reference = some ⟨name, .builtin⟩
    · obtain ⟨b, hb, hnode⟩ := hn.resolve_right fun hno => hno.2 _ hr.choose_spec
      have hnames := builtinNames_of_reference (Node.reference_of_unlinked hb hnode)
      have hexpr : node.expr Node.bare = b.node.expr Node.bare := Node.expr_of_unlinked hnode
      obtain ⟨type, ht, rfl⟩ := exists_cast_of_mem_uses_builtin hb (hexpr ▸ h) hu
      exact ⟨.cast hb (hnames ▸ List.mem_singleton_self _) ht, type, rfl⟩
    · rw [not_exists] at hr
      rw [Node.expr_bare, hn.cast_eq_none hr] at h
      obtain ⟨b, hbody, rfl⟩ := Report.outcome_map_eq_ok.1 h
      obtain ⟨child, hm, e, he, hu⟩ := Node.exists_child_of_mem_uses hbody hu
      obtain ⟨hs, ht⟩ := ih child hm (hc child hm) he hu
      exact ⟨hs.of_child hm hr, ht⟩

theorem exists_byName (o : Outline) (r : NamedReference) : ∃ report, o.byName r = some report := by
  obtain ⟨name, _ | _⟩ := r
  · exact ⟨_, rfl⟩
  · exact ⟨_, rfl⟩

theorem stands_of_expr_map {shape : List (String × Node)} {policy : ObjectPolicy} {tags : Tags}
    {f : String × Node → String × Node} (hg : (Node.object shape policy tags).Genuine)
    (hf : ∀ entry ∈ shape, ∀ e, ((f entry).2.expr o.byName).outcome = .ok e → u ∈ e.uses →
      o.Stands entry.2 u)
    (h : ((Node.object (shape.map f) policy tags).expr o.byName).outcome = .ok e)
    (hu : u ∈ e.uses) : o.Stands (.object shape policy tags) u := by
  cases hr : tags.reference with
  | some r =>
    obtain ⟨report, hreport⟩ := o.exists_byName r
    have hexpr (shape : List (String × Node)) :
        (Node.object shape policy tags).expr o.byName = report :=
      Node.expr_of_followed hr hreport
    rw [hexpr, ← hexpr shape] at h
    exact stands_of_expr_byName hg h hu
  | none =>
    have hno : ∀ name, (Node.object shape policy tags).tags.reference ≠ some ⟨name, .builtin⟩ := by
      simp [Node.tags, hr]
    have hcast := (Node.genuine_iff.1 hg).1.cast_eq_none hno
    rw [Node.expr_of_not_followed (by simp [Node.tags, hr])] at h
    obtain ⟨b, hbody, rfl⟩ := Report.outcome_map_eq_ok.1 h
    have hcast' : (Node.object (shape.map f) policy tags).tags.cast = none := hcast
    rw [hcast'] at hu
    obtain ⟨child, hm, e, he, hu⟩ := Node.exists_child_of_mem_uses hbody hu
    rw [Node.children, List.map_map] at hm
    obtain ⟨entry, hentry, rfl⟩ := List.mem_map.1 hm
    exact (hf entry hentry e he hu).of_child (List.mem_map_of_mem hentry) hno

theorem stands_of_expr_placeholder (hg : node.Genuine)
    (h : (node.placeholder.expr o.byName).outcome = .ok e) (hu : u ∈ e.uses) :
    o.Stands node u := by
  unfold Node.placeholder at h
  split at h
  · obtain rfl := Except.ok.inj h
    cases hu
  · exact stands_of_expr_byName hg h hu

theorem stands_of_expr_withPlaceholders (hg : node.Genuine)
    (h : (node.withPlaceholders.expr o.byName).outcome = .ok e) (hu : u ∈ e.uses) :
    o.Stands node u := by
  cases node with
  | object shape policy tags =>
    refine stands_of_expr_map hg (fun entry hentry e he hu => ?_) h hu
    have hgenuine := (Node.genuine_iff.1 hg).2 entry.2 (List.mem_map_of_mem hentry)
    split at he
    · next fields policy tags =>
      refine stands_of_expr_map hgenuine (fun field hfield e he hu => ?_) he hu
      exact stands_of_expr_placeholder
        ((Node.genuine_iff.1 hgenuine).2 field.2 (List.mem_map_of_mem hfield)) he hu
    · exact stands_of_expr_byName hgenuine he hu
  | _ => exact stands_of_expr_byName hg h hu

end Outline

end ContentSchema
