import ContentSchema.Proofs.Graph.Coverage
import ContentSchema.Proofs.Source.References

/-! # Inlining while printing

A linked graph that is printed flat has its references followed until none is left. This succeeds
unless references go in a circle, and comes to the same as a graph that was inlined before.
-/

namespace ContentSchema

open Source

theorem Node.mem_followed_of_proper {node : Node} (hp : node.Proper) {id : String} :
    id ∈ node.followed ↔ id ∈ node.contentTypeReferences := by
  rw [mem_followed]
  induction node using induct with
  | step node ih =>
    obtain ⟨hn, hc⟩ := proper_iff.1 hp
    rw [mem_contentTypeReferences]
    by_cases hr : ∃ name, node.tags.reference = some ⟨name, .contentType⟩
    · obtain ⟨name, hr⟩ := hr
      rw [outermost_of_ends hr rfl, children_of_isProper hn hr, hr]
      simp [eq_comm]
    · have hends : ∀ r, node.tags.reference = some r → (r.target == Target.contentType) = false := by
        rintro ⟨name, _ | _⟩ href
        · rfl
        · exact absurd ⟨name, href⟩ hr
      rw [outermost_of_not_ends hends, List.mem_flatMap]
      constructor
      · rintro ⟨child, hm, hid⟩
        exact .inr ⟨child, hm, (ih child hm (hc child hm)).1 hid⟩
      · rintro (href | ⟨child, hm, hid⟩)
        · exact absurd ⟨id, href⟩ hr
        · exact ⟨child, hm, (ih child hm (hc child hm)).2 hid⟩

namespace Graph

/-- Where the schema of `a` is inlined, it takes in what stands for `b`. -/
def Follows (graph : Graph) (a b : String) : Prop :=
  ∃ node, graph.schemas.lookup a = some node ∧ b ∈ node.followed

theorem follows_iff_refers {graph : Graph} (hp : ∀ e ∈ graph.schemas, e.2.Proper) {a b : String} :
    graph.Follows a b ↔ graph.Refers a b := by
  constructor
  · rintro ⟨node, hn, hb⟩
    exact ⟨node, hn, (Node.mem_followed_of_proper (hp _ (Entries.mem_of_lookup hn))).1 hb⟩
  · rintro ⟨node, hn, hb⟩
    exact ⟨node, hn, (Node.mem_followed_of_proper (hp _ (Entries.mem_of_lookup hn))).2 hb⟩

end Graph

namespace Outline

variable {o : Outline} {graph : Graph} {around : List String} {left : List (String × Node)}
  {name id : String} {node : Node} {e : Expr}

theorem inlined_builtin : o.inlined around left ⟨name, .builtin⟩ = none := by
  rw [inlined]

theorem inlined_of_some (h : left.lookup name = some node) :
    o.inlined around left ⟨name, .contentType⟩ =
      some (node.expr (o.inlined (around ++ [name]) (Entries.remove name left))) := by
  rw [inlined]
  split
  · next n hn => rw [Option.some.inj (hn.symm.trans h)]
  · next hn => cases hn.symm.trans h

theorem inlined_of_none (h : left.lookup name = none) :
    o.inlined around left ⟨name, .contentType⟩ =
      some (if (o.schemas.lookup name).isSome then Report.fail (.inliningCycle name around)
        else dangling name) := by
  rw [inlined]
  split
  · next n hn => cases hn.symm.trans h
  · rfl

theorem isSome_inlined (r : NamedReference) :
    (o.inlined around left r).isSome = (r.target == .contentType) := by
  obtain ⟨name, _ | _⟩ := r
  · rw [inlined_builtin]
    rfl
  · rw [inlined]
    rfl

/-- What passes from each schema that is left to the schemas around it holds of all. -/
theorem inlining_induct {P : List String → List (String × Node) → Prop}
    (step : ∀ around left, (∀ id target, left.lookup id = some target →
      P (around ++ [id]) (Entries.remove id left)) → P around left)
    (around : List String) (left : List (String × Node)) : P around left := by
  induction hn : left.length using Nat.strong_induction_on generalizing around left with
  | _ n ih =>
    refine step around left fun id target hm => ih _ ?_ _ _ rfl
    exact hn ▸ Entries.length_remove_lt hm

theorem exists_of_expr_inlined_error (hp : node.Branched) (hl : ∀ e ∈ left, e.2.Branched)
    {failure : Failure} (h : (node.expr (o.inlined around left)).outcome = .error failure) :
    ∃ name around, failure = .inliningCycle name around := by
  induction around, left using inlining_induct generalizing node with
  | step around left ih =>
    obtain ⟨⟨name, target⟩, hr, report, hf, h⟩ :=
      Node.exists_outermost_of_expr_error isSome_inlined hp h
    obtain rfl : target = .contentType := beq_iff_eq.1 (Node.ends_of_mem_outermost hr)
    cases hm : left.lookup name with
    | some node =>
      rw [inlined_of_some hm] at hf
      obtain rfl := Option.some.inj hf
      refine ih name node hm (hl _ (Entries.mem_of_lookup hm)) (fun e he => ?_) h
      exact hl e (List.mem_of_mem_filter he)
    | none =>
      rw [inlined_of_none hm] at hf
      obtain rfl := Option.some.inj hf
      split at h
      · exact ⟨name, around, (Except.error.inj h).symm⟩
      · cases h

/-- The schemas that are left are those of the graph that are not being written. -/
def Leaves (graph : Graph) (around : List String) (left : List (String × Node)) : Prop :=
  ∀ id, left.lookup id = if id ∈ around then none else graph.schemas.lookup id

theorem leaves_start (graph : Graph) (id : String) :
    Leaves graph [id] (Entries.remove id graph.schemas) := by
  intro id'
  simp only [Entries.lookup_remove, List.mem_singleton]

theorem Leaves.step (h : Leaves graph around left) (id : String) :
    Leaves graph (around ++ [id]) (Entries.remove id left) := by
  intro id'
  rw [Entries.lookup_remove, h id']
  by_cases hid : id' = id
  · simp [hid]
  · simp [hid]

/-- A schema that is left is written inside the others. One that is being written closes a circle,
and an id without a schema is left open. -/
theorem inlined_cases (hs : o.schemas = graph.schemas) (hl : Leaves graph around left)
    (id : String) :
    (∃ target, left.lookup id = some target ∧ graph.schemas.lookup id = some target ∧
      id ∉ around ∧ o.inlined around left ⟨id, .contentType⟩ =
        some (target.expr (o.inlined (around ++ [id]) (Entries.remove id left)))) ∨
    (left.lookup id = none ∧ id ∈ around ∧ o.inlined around left ⟨id, .contentType⟩ =
        some (Report.fail (.inliningCycle id around))) ∨
    left.lookup id = none ∧ graph.schemas.lookup id = none ∧
      o.inlined around left ⟨id, .contentType⟩ = some (dangling id) := by
  have hid := hl id
  cases hm : left.lookup id with
  | some target =>
    rw [hm] at hid
    split at hid
    · cases hid
    · next hn => exact .inl ⟨target, rfl, hid.symm, hn, inlined_of_some hm⟩
  | none =>
    rw [inlined_of_none hm, hs]
    cases hg : graph.schemas.lookup id with
    | none => exact .inr (.inr ⟨rfl, rfl, rfl⟩)
    | some target =>
      rw [hm, hg] at hid
      split at hid
      · next ha => exact .inr (.inl ⟨rfl, ha, rfl⟩)
      · cases hid

theorem exists_inlined_of_followed (h : (node.expr (o.inlined around left)).outcome = .ok e)
    (hid : id ∈ node.followed) :
    ∃ report e', o.inlined around left ⟨id, .contentType⟩ = some report ∧
      report.outcome = .ok e' :=
  Node.exists_expr_of_mem_outermost isSome_inlined h (Node.mem_followed.1 hid)

theorem not_mem_of_expr_ok (hs : o.schemas = graph.schemas) (hl : Leaves graph around left)
    (h : (node.expr (o.inlined around left)).outcome = .ok e) {a b : String}
    (ha : a ∈ node.followed) (hr : Relation.ReflTransGen graph.Follows a b)
    (hb : (graph.schemas.lookup b).isSome) : b ∉ around := by
  induction around, left using inlining_induct generalizing node e a with
  | step around left ih =>
    obtain ⟨report, e', hf, he⟩ := exists_inlined_of_followed h ha
    rcases inlined_cases hs hl a with ⟨target, hm, ht, hn, hi⟩ | ⟨-, -, hi⟩ | ⟨-, ht, -⟩
    · obtain rfl := Option.some.inj (hi.symm.trans hf)
      rcases Relation.ReflTransGen.cases_head hr with rfl | ⟨c, ⟨node', hn', hc⟩, hcb⟩
      · exact hn
      · obtain rfl := Option.some.inj (hn'.symm.trans ht)
        exact fun hmem => ih a _ hm (hl.step a) he hc hcb (List.mem_append_left _ hmem)
    · obtain rfl := Option.some.inj (hi.symm.trans hf)
      cases he
    · rcases Relation.ReflTransGen.cases_head hr with rfl | ⟨c, ⟨node', hn', -⟩, -⟩
      · rw [ht] at hb
        cases hb
      · cases hn'.symm.trans ht

/-- A schema that leads back to itself is not written out. -/
theorem not_expr_ok_of_circle (hs : o.schemas = graph.schemas)
    (hn : graph.schemas.lookup id = some node) (hc : Relation.TransGen graph.Follows id id) :
    (node.expr (o.inlined [id] (Entries.remove id graph.schemas))).outcome ≠ .ok e := by
  intro h
  obtain ⟨c, ⟨node', hn', href⟩, hr⟩ := Relation.TransGen.head'_iff.1 hc
  obtain rfl := Option.some.inj (hn'.symm.trans hn)
  exact not_mem_of_expr_ok hs (leaves_start graph id) h href hr (by simp [hn])
    (List.mem_singleton_self id)

end Outline

end ContentSchema
