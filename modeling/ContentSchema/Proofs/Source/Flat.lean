import ContentSchema.Generate
import ContentSchema.Proofs.Source.Inlined

/-! # Flat modules

Whether a model is inlined while its graph is assembled or while its linked graph is printed, the
schemas come out the same.
-/

namespace ContentSchema

open Source

namespace Outline

/-- Along the order, following the references of a schema comes to writing out its inlined form. -/
theorem expr_inlined_eq {o : Outline} {known : List String} {types : List ContentType}
    {linked flat : List (String × Node)} (ho : ContentType.Ordered known types)
    (h : ∀ ct ∈ types, ∃ node, linked.lookup ct.id = some node ∧
      flat.lookup ct.id = some (node.inline flat) ∧
      ∀ id ∈ node.contentTypeReferences, id ∈ ct.dependencies ∧ id ∈ known)
    {ct : ContentType} (hct : ct ∈ types) {around : List String} {left : List (String × Node)}
    (hl : ∀ id ∈ types.map (·.id), id ≠ ct.id → left.lookup id = linked.lookup id) {node : Node}
    (hn : linked.lookup ct.id = some node) :
    node.expr (o.inlined around left) = (node.inline flat).expr Node.bare := by
  induction ho generalizing ct around left node with
  | nil => cases hct
  | @snoc before last _ hi hd ih =>
    rw [List.forall_mem_append] at h
    rw [List.map_append, List.forall_mem_append] at hl
    rcases List.mem_append.1 hct with hct | hct
    · exact ih h.1 hct hl.1 hn
    · obtain rfl := List.mem_singleton.1 hct
      obtain ⟨n, hn', -, hr⟩ := h.2 ct hct
      obtain rfl := Option.some.inj (hn'.symm.trans hn)
      apply Node.expr_eq_expr_inline (fun _ => inlined_builtin)
      intro id hid
      have hb := hd id (hr id hid).1 (hr id hid).2
      obtain ⟨target, ht, rfl⟩ := List.mem_map.1 hb
      obtain ⟨m, hm, hf, -⟩ := h.1 target ht
      have hne {id : String} (hid : id ∈ before.map (·.id)) : id ≠ ct.id := fun he => hi (he ▸ hid)
      rw [inlined_of_some ((hl.1 _ hb (hne hb)).trans hm), Node.linkTarget, hf, Option.getD_some]
      refine congrArg some (ih h.1 ht (fun id hid hid' => ?_) hm)
      rw [Entries.lookup_remove, if_neg hid', hl.1 id hid (hne hid)]

theorem contentType_of_flat {o : Outline} (hf : o.settings.flat = true) (id : String)
    (node : Node) :
    o.contentType id node =
      (Declaration.schema (o.constant .contentType id) (o.type .contentType id) · none) <$>
        node.expr (o.inlined [id] (Entries.remove id o.schemas)) := by
  simp [contentType, follow, hf]

end Outline

namespace Node

theorem shapeBuiltins_eq_flatMap (shape : List (String × Node)) :
    shapeBuiltins shape = shape.flatMap (·.2.builtinNames) := by
  induction shape with
  | nil => rfl
  | cons e rest ih => rw [shapeBuiltins, ih, List.flatMap_cons]

theorem branchBuiltins_eq_flatMap (branches : List Node) :
    branchBuiltins branches = branches.flatMap builtinNames := by
  induction branches with
  | nil => rfl
  | cons b rest ih => rw [branchBuiltins, ih, List.flatMap_cons]

theorem builtinNames_eq (node : Node) :
    node.builtinNames = stopAtBuiltin node.tags (node.children.flatMap builtinNames) := by
  cases node with
  | object shape policy tags =>
    rw [builtinNames, shapeBuiltins_eq_flatMap, children, List.flatMap_map]
    rfl
  | union branches tags =>
    rw [builtinNames, branchBuiltins_eq_flatMap]
    rfl
  | array element tags => simp [builtinNames, children, Node.tags]
  | optional inner tags => simp [builtinNames, children, Node.tags]
  | _ => rfl

theorem builtinNames_of_not_builtin {node : Node}
    (h : ∀ name, node.tags.reference ≠ some ⟨name, .builtin⟩) :
    node.builtinNames = node.children.flatMap builtinNames := by
  rw [builtinNames_eq, stopAtBuiltin]
  split
  · next name hr => exact absurd hr (h name)
  · rfl

theorem lookup_isSome_of_mem_builtinNames {node : Node} (h : node.Proper) {name : String}
    (hn : name ∈ node.builtinNames) : (Builtin.lookup name).isSome := by
  induction node using induct with
  | step node ih =>
    obtain ⟨hp, hc⟩ := proper_iff.1 h
    rw [builtinNames_eq, stopAtBuiltin] at hn
    split at hn
    · next name' hr =>
      obtain rfl := List.mem_singleton.1 hn
      exact lookup_isSome_of_isProper hp hr
    · obtain ⟨child, hm, hn⟩ := List.mem_flatMap.1 hn
      exact ih child hm (hc child hm) hn

end Node

namespace Graph

variable {graph : Graph} {settings : Settings}

theorem builtins_cons (name : String) (rest : List String) :
    builtins (name :: rest) =
      match Builtin.lookup name with
      | some b => (builtins rest).map (b :: ·)
      | none => .error (.missingBuiltin name) := by
  simp only [builtins, List.mapM_cons]
  cases Builtin.lookup name with
  | none => rfl
  | some b => rfl

theorem builtins_eq_ok_iff {names : List String} {found : List Builtin} :
    builtins names = .ok found ↔ names.map Builtin.lookup = found.map some := by
  induction names generalizing found with
  | nil => cases found <;> simp [builtins, pure, Except.pure]
  | cons name rest ih =>
    rw [builtins_cons, List.map_cons, eq_comm (b := found.map some), List.map_eq_cons_iff]
    simp only [← ih, eq_comm]
    cases Builtin.lookup name with
    | none => simp
    | some b => cases builtins rest <;> simp [Except.map, eq_comm]

theorem mem_all_of_builtins {names : List String} {found : List Builtin}
    (h : builtins names = .ok found) : ∀ b ∈ found, b ∈ Builtin.all := by
  intro b hb
  have hm := List.mem_map_of_mem (f := some) hb
  rw [← builtins_eq_ok_iff.1 h] at hm
  obtain ⟨name, -, hl⟩ := List.mem_map.1 hm
  exact List.mem_of_find?_eq_some hl

theorem names_of_builtins {names : List String} {found : List Builtin}
    (h : builtins names = .ok found) : found.map (·.name) = names := by
  rw [builtins_eq_ok_iff] at h
  induction found generalizing names with
  | nil => simpa using h.symm
  | cons b later ih =>
    cases names with
    | nil => simp at h
    | cons name rest =>
      obtain ⟨hb, hl⟩ := List.cons.inj h
      have hname := List.find?_some hb
      rw [List.map_cons, ih hl, beq_iff_eq.1 hname]

theorem exists_builtins {names : List String} (h : ∀ name ∈ names, (Builtin.lookup name).isSome) :
    ∃ found, builtins names = .ok found := by
  induction names with
  | nil => exact ⟨[], rfl⟩
  | cons name rest ih =>
    rw [List.forall_mem_cons] at h
    obtain ⟨b, hb⟩ := Option.isSome_iff_exists.1 h.1
    obtain ⟨found, hf⟩ := ih h.2
    rw [builtins_eq_ok_iff] at hf
    exact ⟨b :: found, builtins_eq_ok_iff.2 (by rw [List.map_cons, List.map_cons, hb, hf])⟩

theorem mem_builtinNames {name : String} :
    name ∈ graph.builtinNames ↔ ∃ e ∈ graph.schemas, name ∈ e.2.builtinNames := by
  rw [builtinNames, List.mem_eraseDups, Node.shapeBuiltins_eq_flatMap, List.mem_flatMap]

theorem exists_builtins_of_proper (hp : ∀ e ∈ graph.schemas, e.2.Proper) :
    ∃ found, builtins graph.builtinNames = .ok found := by
  apply exists_builtins
  intro name hn
  obtain ⟨e, he, hn⟩ := mem_builtinNames.1 hn
  exact Node.lookup_isSome_of_mem_builtinNames (hp e he) hn

def outline (graph : Graph) (settings : Settings) : Outline :=
  ⟨settings, graph.nameTable settings.naming, graph.schemas⟩

theorem schemas_outline (settings : Settings) :
    (graph.outline settings).schemas = graph.schemas := rfl

def flatExpr (graph : Graph) (settings : Settings) (id : String) (node : Node) : Report Expr :=
  node.expr ((graph.outline settings).inlined [id] (Entries.remove id graph.schemas))

/-- What a module is put together from. -/
theorem toModule_eq_ok {m : Module} (h : (graph.toModule settings).outcome = .ok m) :
    ∃ found, builtins graph.builtinNames = .ok found ∧
      m.imports = (zodImport :: found.filterMap (·.typeImport)).eraseDups ∧
      (if settings.flat then m.builtins = []
        else (found.mapM (graph.outline settings).builtin).outcome = .ok m.builtins) ∧
      (graph.schemas.mapM fun e => (graph.outline settings).contentType e.1 e.2).outcome =
        .ok m.contentTypes := by
  unfold toModule at h
  split at h
  · cases h
  · next found hb =>
    cases hf : settings.flat with
    | true =>
      simp only [hf, if_true, pure_bind] at h
      obtain ⟨contentTypes, hc, h⟩ := Report.outcome_bind_eq_ok.1 h
      obtain rfl := Except.ok.inj h
      exact ⟨found, hb, rfl, rfl, hc⟩
    | false =>
      simp only [hf, Bool.false_eq_true, if_false] at h
      obtain ⟨declared, hd, h⟩ := Report.outcome_bind_eq_ok.1 h
      obtain ⟨contentTypes, hc, h⟩ := Report.outcome_bind_eq_ok.1 h
      obtain rfl := Except.ok.inj h
      exact ⟨found, hb, rfl, hd, hc⟩

def flatDeclarations (graph : Graph) (settings : Settings) : Report (List Declaration) :=
  graph.schemas.mapM fun e => (graph.outline settings).contentType e.1 e.2

theorem toModule_of_builtins (hf : settings.flat = true) {found : List Builtin}
    (hb : builtins graph.builtinNames = .ok found) :
    graph.toModule settings =
      (⟨(zodImport :: found.filterMap (·.typeImport)).eraseDups, [], ·⟩) <$>
        graph.flatDeclarations settings := by
  simp only [toModule, hb, hf, if_true, pure_bind, bind_pure_comp]
  rfl

theorem toModule_of_flat (hf : settings.flat = true) (hp : ∀ e ∈ graph.schemas, e.2.Proper) :
    ∃ imports, graph.toModule settings =
      (fun declarations => ⟨imports, [], declarations⟩) <$> graph.flatDeclarations settings := by
  obtain ⟨found, hb⟩ := exists_builtins_of_proper hp
  exact ⟨_, toModule_of_builtins hf hb⟩

theorem print_eq_ok_iff {printed : Generated} :
    graph.print settings = .ok printed ↔
      ∃ m, (graph.toModule settings).outcome = .ok m ∧
        (⟨m.render, graph.warnings ++ (graph.toModule settings).messages⟩ : Generated) =
          printed := by
  rw [print]
  cases h : (graph.toModule settings).outcome <;> simp [Except.map]

theorem print_eq_error_iff {e : Failure} :
    graph.print settings = .error e ↔ (graph.toModule settings).outcome = .error e := by
  rw [print]
  cases h : (graph.toModule settings).outcome <;> simp [Except.map]

/-- The module of the graph declares the schema of `id` to be this text. -/
def Declares (graph : Graph) (settings : Settings) (id text : String) : Prop :=
  ∃ m declaration, (graph.toModule settings).outcome = .ok m ∧
    (id, declaration) ∈ (Entries.keys graph.schemas).zip m.contentTypes ∧
    declaration.render =
      "export const " ++ (graph.outline settings).constant .contentType id ++ " = " ++ text ++
        ";\n\n" ++ "export type " ++ (graph.outline settings).type .contentType id ++ " = " ++
        Declaration.inferred ((graph.outline settings).constant .contentType id) ++ ";"

variable {id : String} {node : Node} {e : Expr}

theorem render_schema (constant type : String) (body : Expr) :
    (Declaration.schema constant type body none).render =
      "export const " ++ constant ++ " = " ++ body.render 0 ++ ";\n\n" ++
        "export type " ++ type ++ " = " ++ Declaration.inferred constant ++ ";" := by
  have h : (Declaration.schema constant type body none).render =
      "export const " ++ constant ++ " = " ++ body.render 0 ++ "" ++ ";\n\n" ++
        "export type " ++ type ++ " = " ++ Declaration.inferred constant ++ ";" := rfl
  rw [h, String.append_empty]

theorem declares_of_expr (hf : settings.flat = true) (hp : ∀ e ∈ graph.schemas, e.2.Proper)
    {m : Module} (hm : (graph.toModule settings).outcome = .ok m) (hn : (id, node) ∈ graph.schemas)
    (he : (graph.flatExpr settings id node).outcome = .ok e) :
    graph.Declares settings id (e.render 0) := by
  obtain ⟨imports, ht⟩ := toModule_of_flat hf hp
  obtain ⟨declarations, hd, rfl⟩ := Report.outcome_map_eq_ok.1 (ht ▸ hm)
  obtain ⟨d, hz, hd'⟩ := Report.exists_mem_zip_of_mapM hd hn
  rw [Outline.contentType_of_flat hf] at hd'
  obtain ⟨e', he', rfl⟩ := Report.outcome_map_eq_ok.1 hd'
  obtain rfl : e' = e := Except.ok.inj (he'.symm.trans he)
  refine ⟨_, _, hm, ?_, render_schema _ _ e'⟩
  rw [Entries.keys, List.zip_map_left]
  exact List.mem_map.2 ⟨_, hz, rfl⟩

theorem exists_flatExpr_of_toModule (hf : settings.flat = true)
    (hp : ∀ e ∈ graph.schemas, e.2.Proper) {m : Module}
    (hm : (graph.toModule settings).outcome = .ok m) (hn : (id, node) ∈ graph.schemas) :
    ∃ e, (graph.flatExpr settings id node).outcome = .ok e := by
  obtain ⟨imports, ht⟩ := toModule_of_flat hf hp
  obtain ⟨declarations, hd, -⟩ := Report.outcome_map_eq_ok.1 (ht ▸ hm)
  obtain ⟨d, -, hd'⟩ := Report.exists_mem_of_mapM hd hn
  rw [Outline.contentType_of_flat hf] at hd'
  obtain ⟨e, he, -⟩ := Report.outcome_map_eq_ok.1 hd'
  exact ⟨e, he⟩

/-- Only a circle keeps a proper graph from being printed flat. -/
theorem exists_of_flat_print_error (hf : settings.flat = true)
    (hp : ∀ e ∈ graph.schemas, e.2.Proper) {failure : Failure}
    (h : graph.print settings = .error failure) :
    ∃ name around, failure = .inliningCycle name around := by
  obtain ⟨imports, ht⟩ := toModule_of_flat hf hp
  rw [print_eq_error_iff, ht, Report.outcome_map_eq_error] at h
  obtain ⟨entry, hm, he⟩ := Report.exists_of_mapM_error h
  rw [Outline.contentType_of_flat hf, Report.outcome_map_eq_error] at he
  exact Outline.exists_of_expr_inlined_error (hp entry hm).branched
    (fun e he => (hp e (List.mem_of_mem_filter he)).branched) he

theorem exists_toModule_of_flat (hf : settings.flat = true)
    (hp : ∀ e ∈ graph.schemas, e.2.Proper)
    (h : ∀ entry ∈ graph.schemas, ∃ e, (graph.flatExpr settings entry.1 entry.2).outcome = .ok e) :
    ∃ m, (graph.toModule settings).outcome = .ok m := by
  obtain ⟨imports, ht⟩ := toModule_of_flat hf hp
  obtain ⟨declarations, hd⟩ : ∃ ds, (graph.flatDeclarations settings).outcome = .ok ds := by
    apply Report.exists_outcome_mapM
    intro entry hm
    obtain ⟨e, he⟩ := h entry hm
    rw [Outline.contentType_of_flat hf]
    exact ⟨_, Report.outcome_map_eq_ok.2 ⟨e, he, rfl⟩⟩
  rw [ht]
  exact ⟨_, Report.outcome_map_eq_ok.2 ⟨declarations, hd, rfl⟩⟩

end Graph

end ContentSchema
