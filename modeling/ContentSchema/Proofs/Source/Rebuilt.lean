import ContentSchema.Proofs.Graph.LinkSets
import ContentSchema.Proofs.Source.Linked

/-! # Fields rebuilt from their links

A linked field is declared from its links alone. Up to where the lookup of the targets is put off,
that is the expression of its node, unless the field holds a list of lists.
-/

namespace ContentSchema

open Source

namespace Source

namespace Expr

/-- One declared schema, or a choice between several, each looked up by itself. -/
def choice : List String → Expr
  | [name] => deferred [name]
  | names => union (names.map fun name => deferred [name])

/-- A choice that is looked up at once becomes a choice between lookups. -/
def spread : Expr → Expr
  | deferred names => choice names
  | array element => array element.spread
  | optional inner => optional inner.spread
  | e => e

theorem choice_of_ne_one {names : List String} (h : names.length ≠ 1) :
    choice names = union (names.map fun name => deferred [name]) := by
  unfold choice
  split
  · exact absurd rfl h
  · rfl

theorem array_ne_choice (e : Expr) (names : List String) : array e ≠ choice names := by
  unfold choice
  split <;> rintro ⟨⟩

end Expr

namespace LinkField

def nested (f : LinkField) (depth : Nat) : Expr :=
  layered .array .optional depth f.optional (.choice f.constants)

theorem nested_eq_nested_iff {f : LinkField} {m n : Nat} : f.nested m = f.nested n ↔ m = n := by
  apply layered_eq_layered_iff
  · rintro a b ⟨⟩
    rfl
  · rintro a b ⟨⟩
    rfl
  · exact (Expr.array_ne_choice · f.constants)

theorem spread_expr (f : LinkField) : f.expr.spread = f.nested (if f.list then 1 else 0) := by
  obtain ⟨key, types, constants, list, optional⟩ := f
  cases list <;> cases optional <;> rfl

end LinkField

end Source

namespace Outline

variable {o : Outline}

theorem expr_linkTarget {target : String} (h : target ∈ Entries.keys o.schemas) :
    (Node.linkTarget none target).expr o.byName =
      pure (.deferred [o.constant .contentType target]) := by
  have hf : o.byName ⟨target, .contentType⟩ =
      some (pure (.deferred [o.constant .contentType target])) := by
    rw [byName, if_pos (Entries.lookup_isSome_iff.2 h)]
  exact Node.expr_of_followed rfl hf

theorem expr_choice {targets : List String} (hn : targets ≠ [])
    (h : ∀ target ∈ targets, target ∈ Entries.keys o.schemas) :
    (Node.choice targets).expr o.byName =
      pure (.choice (targets.map (o.constant .contentType))) := by
  by_cases hl : targets.length = 1
  · obtain ⟨target, rfl⟩ := List.length_eq_one_iff.1 hl
    exact expr_linkTarget (h target List.mem_cons_self)
  · have hm : (targets.map (Node.linkTarget none)).mapM (Node.expr o.byName) =
        pure (targets.map fun target => Expr.deferred [o.constant .contentType target]) := by
      rw [List.mapM_map, ← List.mapM_pure]
      exact Report.mapM_congr fun target ht => expr_linkTarget (h target ht)
    have hp := List.length_pos_iff.2 hn
    rw [Node.choice_of_ne_one hl, Expr.choice_of_ne_one (by simpa using hl),
      Node.expr_of_untagged rfl, Node.body, if_neg (by rw [List.length_map]; omega),
      Node.branchExprs_eq_mapM, hm, List.map_map]
    rfl

theorem expr_nested {links : LinkSet} (hn : links.targets ≠ [])
    (h : ∀ target ∈ links.targets, target ∈ Entries.keys o.schemas) (key : String) (depth : Nat) :
    (links.nested depth).expr o.byName = pure ((o.linked key links).nested depth) := by
  have hl : ((Node.array · .empty)^[depth] (.choice links.targets)).expr o.byName =
      pure (Expr.array^[depth] (.choice (o.linked key links).constants)) := by
    induction depth with
    | zero => exact expr_choice hn h
    | succ n ih =>
      rw [Function.iterate_succ_apply', Function.iterate_succ_apply', Node.expr_of_untagged rfl,
        Node.body, ih]
      rfl
  have ho : (o.linked key links).optional = links.optional := rfl
  rw [LinkSet.nested, LinkField.nested, layered, layered, ho]
  split
  · rw [Node.expr_of_untagged rfl, Node.body, hl]
    rfl
  · exact hl

end Outline

/-- The links of a field describe its node, and so what is rebuilt from them is what is written out
for the node, unless the field holds a list of lists. Then all lists but one are lost. -/
theorem links_rebuilt {scope : Scope} {f : Field} {node : Node} {links : LinkSet}
    (hs : scope.settings.flat = false) (ho : (scope.mapField f).outcome = .ok node)
    (hl : node.tags.links = some links) :
    node.IsLink scope.known f.listDepth links ∧ links.optional = !f.required ∧
      (node.unlinked = links.node ↔ ¬ f.isNested) ∧
      ∀ o : Outline, (∀ id ∈ scope.known, id ∈ Entries.keys o.schemas) → ∀ key,
        ∃ link, (o.linkField key links).outcome = .ok link ∧
          (node.expr o.byName).outcome = .ok (link.nested f.listDepth) ∧
          (link.expr.spread = link.nested f.listDepth ↔ ¬ f.isNested) := by
  obtain ⟨h, hopt⟩ := Scope.isLink_mapField hs ho hl
  have hd := Scope.listDepth_le_one_iff ho hl
  refine ⟨h, hopt, h.unlinked_eq_iff.trans hd, ?_⟩
  intro o hk key
  refine ⟨_, Outline.outcome_linkField h.ne_nil key, ?_, ?_⟩
  · rw [← Node.expr_withTags_links none]
    change (node.unlinked.expr o.byName).outcome = _
    rw [h.node, Outline.expr_nested h.ne_nil (fun target ht => hk target (h.known target ht)) key]
    rfl
  · have hdepth : (if (o.linked key links).list then 1 else 0) = links.depth := rfl
    rw [LinkField.spread_expr, LinkField.nested_eq_nested_iff, hdepth, h.depth_eq_iff, hd]

theorem links_rebuilt_linking :
    ∃ f node links, (linking "a" 1 ["b", "a", "c"]).field? "next" = some f ∧
      (Scope.mapField ⟨linkedSettings, ["a", "b"], [], "a"⟩ f).outcome = .ok node ∧
      node.tags.links = some links ∧ node.IsLink ["a", "b"] 1 links ∧ node.unlinked = links.node ∧
      ∃ link, (Outline.linkField ⟨linkedSettings, .empty, [("a", .any), ("b", .any)]⟩ "next"
          links).outcome = .ok link ∧
        (node.expr (Outline.byName
          ⟨linkedSettings, .empty, [("a", .any), ("b", .any)]⟩)).outcome =
            .ok link.expr.spread := by
  obtain ⟨f, node, links, hf, hd, hi, ho, hl⟩ : ∃ f node links,
      (linking "a" 1 ["b", "a", "c"]).field? "next" = some f ∧ f.listDepth = 1 ∧
      f.isNested = false ∧
      (Scope.mapField ⟨linkedSettings, ["a", "b"], [], "a"⟩ f).outcome = .ok node ∧
      node.tags.links = some links := ⟨_, _, _, rfl, rfl, rfl, rfl, rfl⟩
  have hn : ¬ f.isNested := by simp [hi]
  obtain ⟨h, -, hnode, hr⟩ := links_rebuilt rfl ho hl
  obtain ⟨link, hlink, he, hs⟩ := hr ⟨linkedSettings, .empty, [("a", .any), ("b", .any)]⟩
    (by decide) "next"
  refine ⟨f, node, links, hf, ho, hl, hd ▸ h, hnode.2 hn, link, hlink, ?_⟩
  rw [he, hs.2 hn]

/-- A list of lists of links is tagged as one list, and one list is what is declared for it. -/
theorem nested_links_not_rebuilt :
    ∃ f node links link, (linking "a" 2 ["b"]).field? "next" = some f ∧
      (Scope.mapField ⟨linkedSettings, ["a", "b"], [], "a"⟩ f).outcome = .ok node ∧
      node.tags.links = some links ∧ links = ⟨["b"], true, false⟩ ∧
      node.unlinked = .array (.array (.linkTarget none "b") .empty) .empty ∧
      node.unlinked ≠ links.node ∧
      (Outline.linkField ⟨linkedSettings, .empty, [("a", .any), ("b", .any)]⟩ "next"
        links).outcome = .ok link ∧
      link.typeMember = "next: B[]" ∧
      link.schemaMember = "    next: z.array(z.lazy(() => bSchema))," ∧
      ∃ e, (node.expr (Outline.byName
          ⟨linkedSettings, .empty, [("a", .any), ("b", .any)]⟩)).outcome = .ok e ∧
        e.render 2 = "z.array(z.array(z.lazy(() => bSchema)))" := by
  refine ⟨_, _, _, _, rfl, rfl, rfl, rfl, rfl, ?_, rfl, by decide, by decide, _, rfl, by decide⟩
  rintro ⟨⟩

end ContentSchema
