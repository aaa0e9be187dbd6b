import ContentSchema.Proofs.Graph.Proper
import ContentSchema.Proofs.Validator.Inlining
import ContentSchema.Source.OfGraph

/-! # Expressions of nodes

The expression of a node is made from the expressions of its children, unless something stands for
its reference. It is there where those of its children are, if unions have at least two branches.
-/

namespace ContentSchema.Node

open Source

variable {follow follow' : Follow} {node : Node}

def bare : Follow := fun _ => none

theorem shapeExprs_eq_mapM (shape : List (String × Node)) :
    shapeExprs follow shape = shape.mapM fun e => (e.1, ·) <$> e.2.expr follow := by
  induction shape with
  | nil => simp [shapeExprs]
  | cons e rest ih => simp [shapeExprs, ih]

theorem branchExprs_eq_mapM (branches : List Node) :
    branchExprs follow branches = branches.mapM (expr follow) := by
  induction branches with
  | nil => simp [branchExprs]
  | cons b rest ih => simp [branchExprs, ih]

def body (follow : Follow) : Node → Report Expr
  | primitive p _ => return .primitive p
  | object shape policy _ => (.object · policy) <$> shapeExprs follow shape
  | array element _ => .array <$> element.expr follow
  | optional inner _ => .optional <$> inner.expr follow
  | union branches _ =>
    if branches.length < 2 then Report.fail (.malformedUnion branches.length)
    else .union <$> branchExprs follow branches
  | unknown _ => return .unknown

theorem expr_eq_tagged : node.expr follow = tagged follow node.tags fun _ => node.body follow := by
  cases node <;> rfl

theorem expr_of_followed {r : NamedReference} {report : Report Expr}
    (hr : node.tags.reference = some r) (hf : follow r = some report) :
    node.expr follow = report := by
  rw [expr_eq_tagged, tagged, hr, Option.bind_some, hf]

def withType (e : Expr) : Option String → Expr
  | some type => .cast e type
  | none => e

theorem expr_of_not_followed (h : ∀ r, node.tags.reference = some r → follow r = none) :
    node.expr follow = (withType · node.tags.cast) <$> node.body follow := by
  have hb : node.tags.reference.bind follow = none := by
    cases hr : node.tags.reference with
    | none => rfl
    | some r => exact h r hr
  rw [expr_eq_tagged, tagged, hb, ← bind_pure_comp]
  cases node.tags.cast <;> rfl

/-- Either something stands for the node's reference, or the node's own body is written out. -/
theorem expr_cases (follow : Follow) (node : Node) :
    (∃ r report, node.tags.reference = some r ∧ follow r = some report ∧
      node.expr follow = report) ∨
    node.expr follow = (withType · node.tags.cast) <$> node.body follow := by
  by_cases h : ∃ r report, node.tags.reference = some r ∧ follow r = some report
  · obtain ⟨r, report, hr, hf⟩ := h
    exact .inl ⟨r, report, hr, hf, expr_of_followed hr hf⟩
  · refine .inr (expr_of_not_followed fun r hr => ?_)
    rw [Option.eq_none_iff_forall_ne_some]
    intro report hf
    exact h ⟨r, report, hr, hf⟩

theorem expr_of_untagged (h : node.tags = .empty) : node.expr follow = node.body follow := by
  rw [expr_of_not_followed (by simp [h, Tags.empty]), h]
  exact id_map _

theorem expr_bare : node.expr bare = (withType · node.tags.cast) <$> node.body bare :=
  expr_of_not_followed fun _ _ => rfl

theorem body_withTags (tags : Tags) : (node.withTags tags).body follow = node.body follow := by
  cases node <;> rfl

theorem expr_withTags_links (links : Option LinkSet) :
    (node.withTags { node.tags with links := links }).expr follow = node.expr follow := by
  rw [expr_eq_tagged, expr_eq_tagged, body_withTags, tags_withTags]
  rfl

theorem body_inlineChildren {schemas : List (String × Node)}
    (h : ∀ child ∈ node.children, child.expr follow = (child.inline schemas).expr follow') :
    node.body follow = (node.inlineChildren schemas).body follow' := by
  cases node with
  | primitive p tags => rfl
  | object shape policy tags =>
    simp only [body, inlineChildren, shapeExprs_eq_mapM, inlineShape_eq_map, List.mapM_map]
    refine congrArg _ (Report.mapM_congr fun e he => ?_)
    exact congrArg (_ <$> ·) (h e.2 (List.mem_map_of_mem he))
  | array element tags => exact congrArg (Expr.array <$> ·) (h element List.mem_cons_self)
  | optional inner tags => exact congrArg (Expr.optional <$> ·) (h inner List.mem_cons_self)
  | union branches tags =>
    have hm : branches.mapM (expr follow) = branches.mapM (expr follow' ∘ inline schemas) :=
      Report.mapM_congr h
    simp only [body, inlineChildren, branchExprs_eq_mapM, inlineBranches_eq_map, List.mapM_map,
      List.length_map, hm]
  | unknown tags => rfl

/-- To inline the schemas first and then write the node out is to write out the schemas in place of
the references. -/
theorem expr_eq_expr_inline {schemas : List (String × Node)}
    (hb : ∀ name, follow ⟨name, .builtin⟩ = none)
    (hc : ∀ id ∈ node.contentTypeReferences,
      follow ⟨id, .contentType⟩ = some ((linkTarget (some schemas) id).expr bare)) :
    node.expr follow = (node.inline schemas).expr bare := by
  induction node using induct with
  | step node ih =>
    by_cases hr : ∃ id, node.tags.reference = some ⟨id, .contentType⟩
    · obtain ⟨id, hr⟩ := hr
      have hf := hc id (mem_contentTypeReferences.2 (.inl hr))
      rw [expr_of_followed hr hf, inline_of_reference hr, expr_withTags_links]
    · rw [not_exists] at hr
      have hn : ∀ r, node.tags.reference = some r → follow r = none := by
        rintro ⟨name, _ | _⟩ h
        · exact hb name
        · exact absurd h (hr name)
      have hc' : ∀ child ∈ node.children, child.expr follow = (child.inline schemas).expr bare :=
        fun child hm => ih child hm fun id hid =>
          hc id (mem_contentTypeReferences.2 (.inr ⟨child, hm, hid⟩))
      have hi : (node.inlineChildren schemas).expr bare =
          (withType · node.tags.cast) <$> (node.inlineChildren schemas).body bare := by
        rw [expr_bare, tags_inlineChildren]
      rw [inline_of_no_reference hr, expr_of_not_followed hn, hi, body_inlineChildren hc']

theorem expr_of_no_references (hb : ∀ name, follow ⟨name, .builtin⟩ = none)
    (hn : ∀ id, id ∉ node.contentTypeReferences) : node.expr follow = node.expr bare := by
  have h := @expr_eq_expr_inline follow node [] hb fun id hid => absurd hid (hn id)
  rwa [inline_of_no_references hn] at h

theorem exists_of_body_error (hb : node.isBranched = true) {e : Failure}
    (h : (node.body follow).outcome = .error e) :
    ∃ child ∈ node.children, (child.expr follow).outcome = .error e := by
  cases node with
  | primitive p tags => cases h
  | object shape policy tags =>
    rw [body, shapeExprs_eq_mapM, Report.outcome_map_eq_error] at h
    obtain ⟨entry, hm, he⟩ := Report.exists_of_mapM_error h
    exact ⟨entry.2, List.mem_map_of_mem hm, Report.outcome_map_eq_error.1 he⟩
  | array element tags => exact ⟨element, List.mem_cons_self, Report.outcome_map_eq_error.1 h⟩
  | optional inner tags => exact ⟨inner, List.mem_cons_self, Report.outcome_map_eq_error.1 h⟩
  | union branches tags =>
    rw [body, if_neg (Nat.not_lt.2 (two_le_of_isBranched hb)), branchExprs_eq_mapM,
      Report.outcome_map_eq_error] at h
    exact Report.exists_of_mapM_error h
  | unknown tags => cases h

theorem ok_of_body_ok {b : Expr} (h : (node.body follow).outcome = .ok b) :
    ∀ child ∈ node.children, ∃ e, (child.expr follow).outcome = .ok e := by
  cases node with
  | primitive p tags => simp [children]
  | object shape policy tags =>
    rw [body, shapeExprs_eq_mapM] at h
    obtain ⟨members, hm, -⟩ := Report.outcome_map_eq_ok.1 h
    rw [children, List.forall_mem_map]
    intro entry he
    obtain ⟨m, -, hme⟩ := Report.exists_mem_of_mapM hm he
    obtain ⟨e, he, -⟩ := Report.outcome_map_eq_ok.1 hme
    exact ⟨e, he⟩
  | array element tags =>
    obtain ⟨e, he, -⟩ := Report.outcome_map_eq_ok.1 h
    simpa [children] using ⟨e, he⟩
  | optional inner tags =>
    obtain ⟨e, he, -⟩ := Report.outcome_map_eq_ok.1 h
    simpa [children] using ⟨e, he⟩
  | union branches tags =>
    rw [body] at h
    split at h
    · cases h
    · rw [branchExprs_eq_mapM] at h
      obtain ⟨es, hm, -⟩ := Report.outcome_map_eq_ok.1 h
      intro child hc
      obtain ⟨e, -, he⟩ := Report.exists_mem_of_mapM hm hc
      exact ⟨e, he⟩
  | unknown tags => simp [children]

end ContentSchema.Node
