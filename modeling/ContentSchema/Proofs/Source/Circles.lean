import ContentSchema.Proofs.Source.Flat
import ContentSchema.Proofs.Source.Statements

/-! # Circles of references

A graph is printed flat by putting schemas in the place of the references to them, which ends unless
a schema comes to stand inside itself. The way to there is reported, and what is written otherwise
names no schema.
-/

namespace ContentSchema

open Source

namespace Outline

variable {o : Outline} {graph : Graph} {around : List String} {left : List (String × Node)}
  {node : Node} {id : String} {e : Expr}

/-- The way to a schema that stands inside itself leads from each schema to one that it follows. -/
theorem chain_of_expr_error (hs : o.schemas = graph.schemas)
    (hg : ∀ e ∈ graph.schemas, e.2.Branched) (hl : Leaves graph around left)
    (hlast : around.getLast? = some id) (hn : graph.schemas.lookup id = some node)
    (hc : around.IsChain graph.Follows) {failure : Failure}
    (h : (node.expr (o.inlined around left)).outcome = .error failure) :
    ∃ later name, failure = .inliningCycle name (around ++ later) ∧ name ∈ around ++ later ∧
      (around ++ later ++ [name]).IsChain graph.Follows := by
  induction around, left using inlining_induct generalizing id node with
  | step around left ih =>
    obtain ⟨⟨name, target⟩, hr, report, hf, h⟩ := Node.exists_outermost_of_expr_error
      isSome_inlined (hg _ (Entries.mem_of_lookup hn)) h
    obtain rfl : target = .contentType := beq_iff_eq.1 (Node.ends_of_mem_outermost hr)
    have hchain : (around ++ [name]).IsChain graph.Follows := by
      refine List.isChain_append.2 ⟨hc, List.isChain_singleton name, ?_⟩
      intro a ha b hb
      rw [hlast, Option.mem_some_iff] at ha
      rw [List.head?_cons, Option.mem_some_iff] at hb
      exact ha ▸ hb ▸ ⟨node, hn, Node.mem_followed.2 hr⟩
    -- only where `name` has a schema and is not on the way yet does the way go on
    rcases inlined_cases hs hl name with ⟨target, hm, ht, -, hi⟩ | ⟨-, ha, hi⟩ | ⟨-, -, hi⟩
    · obtain rfl := Option.some.inj (hi.symm.trans hf)
      obtain ⟨later, last, rfl, hmem, hclosed⟩ :=
        ih name target hm (hl.step name) (by simp) ht hchain h
      have happend : around ++ [name] ++ later = around ++ name :: later := by simp
      rw [happend] at hmem hclosed ⊢
      exact ⟨name :: later, last, rfl, hmem, hclosed⟩
    · obtain rfl := Option.some.inj (hi.symm.trans hf)
      obtain rfl := Except.error.inj h
      exact ⟨[], name, by rw [List.append_nil], by rwa [List.append_nil], by rwa [List.append_nil]⟩
    · obtain rfl := Option.some.inj (hi.symm.trans hf)
      cases h

theorem selfContained_inlined (hs : o.schemas = graph.schemas) (hl : Leaves graph around left)
    (h : (node.expr (o.inlined around left)).outcome = .ok e) : e.SelfContained := by
  induction around, left using inlining_induct generalizing node e with
  | step around left ih =>
    refine Node.selfContained_expr isSome_inlined ?_ h
    rintro ⟨name, target⟩ hr report e' hf he
    obtain rfl : target = .contentType := beq_iff_eq.1 (Node.ends_of_mem_outermost hr)
    rcases inlined_cases hs hl name with ⟨target, hm, -, -, hi⟩ | ⟨-, -, hi⟩ | ⟨-, -, hi⟩
    · obtain rfl := Option.some.inj (hi.symm.trans hf)
      exact ih name target hm (hl.step name) he
    · obtain rfl := Option.some.inj (hi.symm.trans hf)
      cases he
    · obtain rfl := Option.some.inj (hi.symm.trans hf)
      obtain rfl := Except.ok.inj he
      exact .unknown

/-- The ids without a schema that are met where each schema in `left` stands in the place of the
references to it. -/
def missing (schemas left : List (String × Node)) (node : Node) : List String :=
  node.followed.flatMap fun id =>
    match _ : left.lookup id with
    | some target => missing schemas (Entries.remove id left) target
    | none => if (schemas.lookup id).isSome then [] else [id]
termination_by left.length
decreasing_by exact Entries.length_remove_lt ‹_›

def missingAt (schemas left : List (String × Node)) (id : String) : List String :=
  match left.lookup id with
  | some target => missing schemas (Entries.remove id left) target
  | none => if (schemas.lookup id).isSome then [] else [id]

theorem missing_eq (schemas left : List (String × Node)) (node : Node) :
    missing schemas left node = node.followed.flatMap (missingAt schemas left) := by
  rw [missing]
  refine List.flatMap_congr fun id _ => ?_
  rw [missingAt]
  split <;> simp [*]

theorem warnings_inlined (hs : o.schemas = graph.schemas) (hl : Leaves graph around left)
    (h : (node.expr (o.inlined around left)).outcome = .ok e) :
    (node.expr (o.inlined around left)).warnings =
      (missing graph.schemas left node).map .danglingReference := by
  induction around, left using inlining_induct generalizing node e with
  | step around left ih =>
    rw [Node.warnings_expr_eq isSome_inlined h, missing_eq, List.map_flatMap, Node.followed,
      List.flatMap_map]
    refine List.flatMap_congr ?_
    rintro ⟨name, target⟩ hr
    obtain rfl : target = .contentType := beq_iff_eq.1 (Node.ends_of_mem_outermost hr)
    obtain ⟨report, e', hf, he⟩ := exists_inlined_of_followed h (Node.mem_followed.2 hr)
    rw [hf, Option.elim_some, missingAt]
    rcases inlined_cases hs hl name with ⟨target, hm, -, -, hi⟩ | ⟨-, -, hi⟩ | ⟨hm, ht, hi⟩
    · obtain rfl := Option.some.inj (hi.symm.trans hf)
      rw [ih name target hm (hl.step name) he, hm]
    · obtain rfl := Option.some.inj (hi.symm.trans hf)
      cases he
    · obtain rfl := Option.some.inj (hi.symm.trans hf)
      rw [hm, ht]
      rfl

theorem missing_congr {left' : List (String × Node)}
    (hsub : ∀ id target, left.lookup id = some target → graph.schemas.lookup id = some target)
    (h : ∀ a ∈ node.followed, ∀ b, Relation.ReflTransGen graph.Follows a b →
      left.lookup b = left'.lookup b) :
    missing graph.schemas left node = missing graph.schemas left' node := by
  induction ([] : List String), left using inlining_induct generalizing node left' with
  | step _ left ih =>
    rw [missing_eq, missing_eq]
    refine List.flatMap_congr fun a ha => ?_
    rw [missingAt, missingAt, ← h a ha a .refl]
    cases hm : left.lookup a with
    | none => rfl
    | some target =>
      refine ih a target hm (fun id target ht => ?_) fun c hc b hb => ?_
      · rw [Entries.lookup_remove] at ht
        split at ht
        · cases ht
        · exact hsub id target ht
      · rw [Entries.lookup_remove, Entries.lookup_remove,
          h a ha b (.head ⟨target, hsub a target hm, hc⟩ hb)]

end Outline

namespace Graph

variable {graph : Graph} {settings : Settings}

def missing (graph : Graph) (node : Node) : List String :=
  Outline.missing graph.schemas graph.schemas node

section

variable (hc : ∀ id, ¬ Relation.TransGen graph.Follows id id)
include hc

/-- Without circles, what is met inside a schema does not depend on the schemas around it. -/
theorem missing_of_lookup {id : String} {node : Node} (hn : graph.schemas.lookup id = some node) :
    Outline.missing graph.schemas (Entries.remove id graph.schemas) node = graph.missing node := by
  refine Outline.missing_congr (fun id' target ht => ?_) fun a ha b hb => ?_
  · rw [Entries.lookup_remove] at ht
    split at ht
    · cases ht
    · exact ht
  · rw [Entries.lookup_remove, if_neg]
    rintro rfl
    exact hc b (.head' ⟨node, hn, ha⟩ hb)

theorem missing_eq (node : Node) :
    graph.missing node = node.followed.flatMap fun id =>
      match graph.schemas.lookup id with
      | some target => graph.missing target
      | none => [id] := by
  rw [missing, Outline.missing_eq]
  refine List.flatMap_congr fun id _ => ?_
  rw [Outline.missingAt]
  cases hn : graph.schemas.lookup id with
  | some target => exact missing_of_lookup hc hn
  | none => rfl

end

theorem exists_chain_of_flat_print_error (hf : settings.flat = true)
    (hk : (Entries.keys graph.schemas).Nodup) (hu : ∀ e ∈ graph.schemas, e.2.Branched)
    (hb : ∀ name ∈ graph.builtinNames, (Builtin.lookup name).isSome) {failure : Failure}
    (h : graph.print settings = .error failure) :
    ∃ first later name, failure = .inliningCycle name (first :: later) ∧
      first ∈ Entries.keys graph.schemas ∧ name ∈ first :: later ∧
      (first :: later ++ [name]).IsChain graph.Follows := by
  obtain ⟨found, hfound⟩ := exists_builtins hb
  rw [print_eq_error_iff, toModule_of_builtins hf hfound, Report.outcome_map_eq_error] at h
  obtain ⟨⟨id, node⟩, hm, he⟩ := Report.exists_of_mapM_error h
  rw [Outline.contentType_of_flat hf, Report.outcome_map_eq_error] at he
  obtain ⟨later, name, rfl, hn, hc⟩ := Outline.chain_of_expr_error (schemas_outline settings) hu
    (Outline.leaves_start graph id) rfl ((Entries.mem_iff_lookup hk).1 hm)
    (List.isChain_singleton id) he
  exact ⟨id, later, name, rfl, List.mem_map_of_mem hm, hn, hc⟩

theorem flatDeclarations_of_print (hf : settings.flat = true) {generated : Generated}
    (h : graph.print settings = .ok generated) :
    ∃ m, (graph.toModule settings).outcome = .ok m ∧ generated.source = m.render ∧
      m.builtins = [] ∧ (graph.flatDeclarations settings).outcome = .ok m.contentTypes ∧
      generated.warnings =
        graph.warnings ++ (graph.flatDeclarations settings).warnings.map (·.message) := by
  obtain ⟨m, hm, rfl⟩ := print_eq_ok_iff.1 h
  obtain ⟨found, hfound, -, hbuiltins, hd⟩ := toModule_eq_ok hm
  rw [if_pos hf] at hbuiltins
  refine ⟨m, hm, rfl, hbuiltins, hd, ?_⟩
  rw [Report.messages, toModule_of_builtins hf hfound, Report.warnings_map]

theorem not_circle_of_flatDeclarations (hf : settings.flat = true) {declarations : List Declaration}
    (hd : (graph.flatDeclarations settings).outcome = .ok declarations) (id : String) :
    ¬ Relation.TransGen graph.Follows id id := by
  intro hc
  obtain ⟨b, ⟨node, hn, -⟩, -⟩ := Relation.TransGen.head'_iff.1 hc
  obtain ⟨d, -, he⟩ := Report.exists_mem_of_mapM hd (Entries.mem_of_lookup hn)
  rw [Outline.contentType_of_flat hf] at he
  obtain ⟨e, he, -⟩ := Report.outcome_map_eq_ok.1 he
  exact Outline.not_expr_ok_of_circle rfl hn hc he

theorem forall₂_of_flatDeclarations (hf : settings.flat = true) {declarations : List Declaration}
    (hd : (graph.flatDeclarations settings).outcome = .ok declarations) :
    List.Forall₂ (fun entry declaration => ∃ body : Expr, body.SelfContained ∧
      (graph.flatExpr settings entry.1 entry.2).outcome = .ok body ∧
      declaration = .schema ((graph.outline settings).constant .contentType entry.1)
        ((graph.outline settings).type .contentType entry.1) body none)
      graph.schemas declarations := by
  refine (Report.outcome_mapM_eq_ok.1 hd).imp fun entry declaration h => ?_
  rw [Outline.contentType_of_flat hf] at h
  obtain ⟨body, he, rfl⟩ := Report.outcome_map_eq_ok.1 h
  exact ⟨body, Outline.selfContained_inlined (schemas_outline settings)
    (Outline.leaves_start graph entry.1) he, he, rfl⟩

theorem warnings_flatDeclarations (hf : settings.flat = true)
    (hk : (Entries.keys graph.schemas).Nodup) {declarations : List Declaration}
    (hd : (graph.flatDeclarations settings).outcome = .ok declarations) :
    (graph.flatDeclarations settings).warnings =
      (graph.schemas.flatMap fun entry => graph.missing entry.2).map .danglingReference := by
  rw [flatDeclarations, Report.warnings_mapM hd, List.map_flatMap]
  refine List.flatMap_congr fun entry hm => ?_
  obtain ⟨d, -, he⟩ := Report.exists_mem_of_mapM hd hm
  rw [Outline.contentType_of_flat hf] at he ⊢
  obtain ⟨e, he, -⟩ := Report.outcome_map_eq_ok.1 he
  rw [Report.warnings_map, ← missing_of_lookup (not_circle_of_flatDeclarations hf hd)
    ((Entries.mem_iff_lookup hk).1 hm)]
  exact Outline.warnings_inlined rfl (Outline.leaves_start graph entry.1) he

end Graph

/-- A graph is printed flat just where no schema comes to stand inside itself. A failure shows the
way to one that does. Otherwise all that is written stands in place, and there is a warning for each
time that an id without a schema is met. -/
theorem flat_print_refuses_circles {graph : Graph} {settings : Settings}
    (hf : settings.flat = true) (hk : (Entries.keys graph.schemas).Nodup)
    (hu : ∀ e ∈ graph.schemas, e.2.Branched)
    (hb : ∀ name ∈ graph.builtinNames, (Builtin.lookup name).isSome) :
    ((∃ name around, graph.print settings = .error (.inliningCycle name around)) ↔
      ∃ id, Relation.TransGen graph.Follows id id) ∧
    (∀ failure, graph.print settings = .error failure →
      ∃ first later name, failure = .inliningCycle name (first :: later) ∧
        first ∈ Entries.keys graph.schemas ∧ name ∈ first :: later ∧
        (first :: later ++ [name]).IsChain graph.Follows) ∧
    ((¬ ∃ id, Relation.TransGen graph.Follows id id) →
      ∃ generated m, graph.print settings = .ok generated ∧
        (graph.toModule settings).outcome = .ok m ∧
        generated.source =
          Module.paragraphs (m.preamble :: m.statements.map (·.render)) ++ "\n" ∧
        m.builtins = [] ∧
        List.Forall₂ (fun entry declaration => ∃ body : Expr, body.SelfContained ∧
          (graph.flatExpr settings entry.1 entry.2).outcome = .ok body ∧
          declaration = .schema ((graph.outline settings).constant .contentType entry.1)
            ((graph.outline settings).type .contentType entry.1) body none)
          graph.schemas m.contentTypes ∧
        (∀ node, graph.missing node = node.followed.flatMap fun id =>
          match graph.schemas.lookup id with
          | some target => graph.missing target
          | none => [id]) ∧
        generated.warnings = graph.warnings ++
          (graph.schemas.flatMap fun entry => graph.missing entry.2).map fun id =>
            (Warning.danglingReference id).message) := by
  have hchain := @Graph.exists_chain_of_flat_print_error graph settings hf hk hu hb
  refine ⟨⟨?_, ?_⟩, fun _ => hchain, ?_⟩
  · rintro ⟨name, around, h⟩
    obtain ⟨first, later, name', -, -, hm, hc⟩ := hchain h
    exact ⟨name', transGen_of_mem_isChain hm hc⟩
  · rintro ⟨id, hid⟩
    cases h : graph.print settings with
    | ok generated =>
      obtain ⟨m, -, -, -, hd, -⟩ := Graph.flatDeclarations_of_print hf h
      exact absurd hid (Graph.not_circle_of_flatDeclarations hf hd id)
    | error failure =>
      obtain ⟨first, later, name, rfl, -⟩ := hchain h
      exact ⟨name, first :: later, rfl⟩
  · intro hc
    cases h : graph.print settings with
    | ok generated =>
      obtain ⟨m, hm, hs, hbuiltins, hd, hw⟩ := Graph.flatDeclarations_of_print hf h
      refine ⟨generated, m, rfl, hm, hs.trans m.render_eq_paragraphs, hbuiltins,
        Graph.forall₂_of_flatDeclarations hf hd, Graph.missing_eq fun id hid => hc ⟨id, hid⟩, ?_⟩
      rw [hw, Graph.warnings_flatDeclarations hf hk hd, List.map_map]
      rfl
    | error failure =>
      obtain ⟨first, later, name, -, -, hm, hchain⟩ := hchain h
      exact absurd ⟨name, transGen_of_mem_isChain hm hchain⟩ hc

/-- Schemas that have a reference to each of the ids beside them. -/
def referring (schemas : List (String × List String)) : Graph :=
  ⟨schemas.map fun (id, ids) =>
    (id, .record (ids.map fun id => (id, Node.any.withReference id .contentType)) .strip), []⟩

theorem Graph.not_circle_of_lt {graph : Graph}
    (h : ∀ e ∈ graph.schemas, ∀ id ∈ e.2.followed, e.1 < id) :
    ¬ ∃ id, Relation.TransGen graph.Follows id id := by
  have hlt : ∀ a b, graph.Follows a b → a < b := by
    rintro a b ⟨node, hn, hb⟩
    exact h _ (Entries.mem_of_lookup hn) b hb
  have way : ∀ a b, Relation.TransGen graph.Follows a b → a < b := by
    intro a b hab
    induction hab with
    | single hb => exact hlt _ _ hb
    | tail _ hc ih => exact String.lt_trans ih (hlt _ _ hc)
  rintro ⟨id, hid⟩
  exact String.lt_irrefl id (way id id hid)

/-- An id without a schema is met on both ways through a diamond. Two schemas that refer to each
other are not printed. -/
theorem flat_print_refuses_circles_diamond :
    (∃ generated, (referring [("a", ["b", "c"]), ("b", ["d"]), ("c", ["d"]),
        ("d", ["ghost"])]).print flatSettings = .ok generated ∧
      generated.warnings = List.replicate 5
        "reference to unknown content type 'ghost'; emitting z.unknown()") ∧
    ∃ name around, (referring [("a", ["b"]), ("b", ["a"])]).print flatSettings =
      .error (.inliningCycle name around) := by
  constructor
  · obtain ⟨graph, hg⟩ : ∃ graph, graph = referring [("a", ["b", "c"]), ("b", ["d"]),
        ("c", ["d"]), ("d", ["ghost"])] := ⟨_, rfl⟩
    have hmissing : (graph.schemas.flatMap fun entry => graph.missing entry.2) =
        List.replicate 5 "ghost" := by
      rw [hg]
      decide +kernel
    rw [← hg]
    obtain ⟨generated, m, hp, -, -, -, -, -, hw⟩ := (@flat_print_refuses_circles graph flatSettings
      rfl (by rw [hg]; decide) (by rw [hg]; decide) (by rw [hg]; decide)).2.2
      (Graph.not_circle_of_lt (by rw [hg]; decide))
    refine ⟨generated, hp, ?_⟩
    rw [hw, hmissing, hg]
    rfl
  · obtain ⟨circle, -⟩ := @flat_print_refuses_circles (referring [("a", ["b"]), ("b", ["a"])])
      flatSettings rfl (by decide) (by decide) (by decide)
    exact circle.2 ⟨"a", .head (b := "b") ⟨_, rfl, by decide⟩ (.single ⟨_, rfl, by decide⟩)⟩

end ContentSchema
