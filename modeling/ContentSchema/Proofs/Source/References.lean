import ContentSchema.Proofs.Source.Expr
import ContentSchema.Proofs.Validator.Outermost

/-! # References in expressions

Whether a node is written out, what is warned of on the way and which schemas are named is decided
at its outermost references alone, by what stands for each of them.
-/

namespace ContentSchema

open Source

/-- No declared schema is named in the expression. -/
inductive Source.Expr.SelfContained : Expr → Prop
  | primitive (p : Primitive) : SelfContained (.primitive p)
  | object {members : List (String × Expr)} {policy : ObjectPolicy}
    (h : ∀ m ∈ members, SelfContained m.2) : SelfContained (.object members policy)
  | array {element : Expr} (h : SelfContained element) : SelfContained (.array element)
  | optional {inner : Expr} (h : SelfContained inner) : SelfContained (.optional inner)
  | union {branches : List Expr} (h : ∀ b ∈ branches, SelfContained b) :
    SelfContained (.union branches)
  | unknown : SelfContained .unknown
  | cast {body : Expr} (type : String) (h : SelfContained body) : SelfContained (.cast body type)

namespace Node

variable {follow : Follow} {ends : NamedReference → Bool} {node : Node} {e : Expr}

theorem warnings_body_eq (h : (node.body follow).outcome = .ok e) :
    (node.body follow).warnings =
      node.children.flatMap fun child => (child.expr follow).warnings := by
  cases node with
  | primitive p tags => rfl
  | object shape policy tags =>
    rw [body, shapeExprs_eq_mapM] at h ⊢
    obtain ⟨members, hm, -⟩ := Report.outcome_map_eq_ok.1 h
    simp only [Report.warnings_map, Report.warnings_mapM hm, children, List.flatMap_map]
  | array element tags => simp [body, children]
  | optional inner tags => simp [body, children]
  | union branches tags =>
    rw [body] at h ⊢
    split at h
    · cases h
    · next hn =>
      rw [branchExprs_eq_mapM] at h ⊢
      obtain ⟨es, hm, -⟩ := Report.outcome_map_eq_ok.1 h
      rw [if_neg hn, Report.warnings_map, Report.warnings_mapM hm, children]
  | unknown tags => rfl

theorem selfContained_body {b : Expr}
    (hc : ∀ child ∈ node.children, ∀ e, (child.expr follow).outcome = .ok e → e.SelfContained)
    (h : (node.body follow).outcome = .ok b) : b.SelfContained := by
  cases node with
  | primitive p tags =>
    obtain rfl := Except.ok.inj h
    exact .primitive p
  | object shape policy tags =>
    rw [body, shapeExprs_eq_mapM] at h
    obtain ⟨members, hm, rfl⟩ := Report.outcome_map_eq_ok.1 h
    refine .object fun member hmember => ?_
    obtain ⟨entry, hentry, hexpr⟩ := Report.exists_of_mem_mapM hm hmember
    obtain ⟨e, he, rfl⟩ := Report.outcome_map_eq_ok.1 hexpr
    exact hc entry.2 (List.mem_map_of_mem hentry) e he
  | array element tags =>
    obtain ⟨e, he, rfl⟩ := Report.outcome_map_eq_ok.1 h
    exact .array (hc element List.mem_cons_self e he)
  | optional inner tags =>
    obtain ⟨e, he, rfl⟩ := Report.outcome_map_eq_ok.1 h
    exact .optional (hc inner List.mem_cons_self e he)
  | union branches tags =>
    rw [body] at h
    split at h
    · cases h
    · rw [branchExprs_eq_mapM] at h
      obtain ⟨es, hm, rfl⟩ := Report.outcome_map_eq_ok.1 h
      refine .union fun e he => ?_
      obtain ⟨branch, hb, hexpr⟩ := Report.exists_of_mem_mapM hm he
      exact hc branch hb e hexpr
  | unknown tags =>
    obtain rfl := Except.ok.inj h
    exact .unknown

section

variable (hends : ∀ r, (follow r).isSome = ends r)
include hends

/-- Either the walk ends at the node, and what stands for its reference is written, or the node's
own body is, and the walk goes on to its children. -/
theorem outermost_cases (node : Node) :
    (∃ r report, follow r = some report ∧ node.expr follow = report ∧ node.outermost ends = [r]) ∨
      node.expr follow = (withType · node.tags.cast) <$> node.body follow ∧
        node.outermost ends = node.children.flatMap (outermost ends) := by
  by_cases h : ∃ r report, node.tags.reference = some r ∧ follow r = some report
  · obtain ⟨r, report, hr, hf⟩ := h
    have he : ends r = true := by rw [← hends, hf, Option.isSome_some]
    exact .inl ⟨r, report, hf, expr_of_followed hr hf, outermost_of_ends hr he⟩
  · have hn : ∀ r, node.tags.reference = some r → follow r = none := fun r hr =>
      Option.eq_none_iff_forall_ne_some.2 fun report hf => h ⟨r, report, hr, hf⟩
    refine .inr ⟨expr_of_not_followed hn, outermost_of_not_ends fun r hr => ?_⟩
    rw [← hends, hn r hr, Option.isSome_none]

theorem exists_outermost_of_expr_error (hb : node.Branched) {failure : Failure}
    (h : (node.expr follow).outcome = .error failure) :
    ∃ r ∈ node.outermost ends, ∃ report, follow r = some report ∧
      report.outcome = .error failure := by
  induction node using induct with
  | step node ih =>
    obtain ⟨hn, hc⟩ := branched_iff.1 hb
    rcases outermost_cases hends node with ⟨r, report, hf, he, hr⟩ | ⟨he, hr⟩
    · exact ⟨r, hr ▸ List.mem_singleton_self r, report, hf, he ▸ h⟩
    · rw [he, Report.outcome_map_eq_error] at h
      obtain ⟨child, hm, h⟩ := exists_of_body_error hn h
      obtain ⟨r, hmem, hreport⟩ := ih child hm (hc child hm) h
      exact ⟨r, hr ▸ List.mem_flatMap.2 ⟨child, hm, hmem⟩, hreport⟩

theorem exists_expr_of_mem_outermost (h : (node.expr follow).outcome = .ok e) {r : NamedReference}
    (hr : r ∈ node.outermost ends) :
    ∃ report e', follow r = some report ∧ report.outcome = .ok e' := by
  induction node using induct generalizing e with
  | step node ih =>
    rcases outermost_cases hends node with ⟨r', report, hf, he, hr'⟩ | ⟨he, hr'⟩
    · rw [hr', List.mem_singleton] at hr
      exact ⟨report, e, hr ▸ hf, he ▸ h⟩
    · rw [hr'] at hr
      obtain ⟨child, hm, hr⟩ := List.mem_flatMap.1 hr
      rw [he] at h
      obtain ⟨b, hb, -⟩ := Report.outcome_map_eq_ok.1 h
      obtain ⟨e', he'⟩ := ok_of_body_ok hb child hm
      exact ih child hm he' hr

/-- A node warns of what stands for its outermost references, in order. -/
theorem warnings_expr_eq (h : (node.expr follow).outcome = .ok e) :
    (node.expr follow).warnings =
      (node.outermost ends).flatMap fun r => (follow r).elim [] (·.warnings) := by
  induction node using induct generalizing e with
  | step node ih =>
    rcases outermost_cases hends node with ⟨r, report, hf, he, hr⟩ | ⟨he, hr⟩
    · rw [he, hr, List.flatMap_singleton, hf, Option.elim_some]
    · rw [he] at h
      obtain ⟨b, hb, -⟩ := Report.outcome_map_eq_ok.1 h
      rw [he, hr, Report.warnings_map, warnings_body_eq hb, List.flatMap_assoc]
      refine List.flatMap_congr fun child hm => ?_
      obtain ⟨e', he'⟩ := ok_of_body_ok hb child hm
      exact ih child hm he'

theorem selfContained_expr
    (hr : ∀ r ∈ node.outermost ends, ∀ report e, follow r = some report → report.outcome = .ok e →
      e.SelfContained)
    (h : (node.expr follow).outcome = .ok e) : e.SelfContained := by
  induction node using induct generalizing e with
  | step node ih =>
    rcases outermost_cases hends node with ⟨r, report, hf, he, hm⟩ | ⟨he, hm⟩
    · exact hr r (hm ▸ List.mem_singleton_self r) report e hf (he ▸ h)
    · rw [he] at h
      obtain ⟨b, hb, rfl⟩ := Report.outcome_map_eq_ok.1 h
      have hbody : b.SelfContained := by
        refine selfContained_body (fun child hc e he => ?_) hb
        refine ih child hc (fun r hmem => ?_) he
        exact hr r (hm ▸ List.mem_flatMap.2 ⟨child, hc, hmem⟩)
      cases node.tags.cast with
      | none => exact hbody
      | some type => exact .cast type hbody

end

theorem exists_expr_bare (hb : node.Branched) : ∃ e, (node.expr bare).outcome = .ok e := by
  cases h : (node.expr bare).outcome with
  | ok e => exact ⟨e, rfl⟩
  | error failure =>
    obtain ⟨r, -, report, hf, -⟩ := exists_outermost_of_expr_error (fun _ => rfl) hb h
    cases hf

end Node

end ContentSchema
