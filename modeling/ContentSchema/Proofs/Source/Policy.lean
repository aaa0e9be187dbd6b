import ContentSchema.Proofs.Graph.Policy
import ContentSchema.Proofs.Source.Silent

/-! # Runs under different policies

The module of a graph does not depend on the policy for unknown kinds. So runs that differ in the
policy alone give the same source wherever they give one.
-/

namespace ContentSchema

open Source

variable {settings : Settings}

namespace Outline

variable {o o' : Outline}

theorem inlined_congr (h : o.schemas = o'.schemas) (around : List String)
    (left : List (String × Node)) : o.inlined around left = o'.inlined around left := by
  induction hn : left.length using Nat.strong_induction_on generalizing around left with
  | _ n ih =>
    funext ⟨name, target⟩
    cases target with
    | builtin => rw [inlined_builtin, inlined_builtin]
    | contentType =>
      cases hl : left.lookup name with
      | none => rw [inlined_of_none hl, inlined_of_none hl, h]
      | some node =>
        rw [inlined_of_some hl, inlined_of_some hl,
          ih _ (hn ▸ Entries.length_remove_lt hl) _ _ rfl]

theorem contentType_under (names : NameTable) (schemas : List (String × Node))
    (policy : UnknownPolicy) :
    Outline.contentType ⟨settings.under policy, names, schemas⟩ =
      Outline.contentType ⟨settings, names, schemas⟩ := by
  funext id node
  have hf : follow ⟨settings.under policy, names, schemas⟩ id =
      follow ⟨settings, names, schemas⟩ id := by
    simp only [follow, @inlined_congr ⟨settings.under policy, names, schemas⟩
      ⟨settings, names, schemas⟩ rfl]
    rfl
  simp only [contentType, hf]
  rfl

end Outline

theorem Graph.toModule_under (graph : Graph) (policy : UnknownPolicy) :
    graph.toModule (settings.under policy) = graph.toModule settings := by
  simp only [toModule, Outline.contentType_under]
  rfl

namespace ContentModel

variable {model : ContentModel} {schemas : List (String × Node)} {warnings : List Warning}

/-- An id that is used twice, or, flat, content types that link in a circle. -/
inductive Disordered : Failure → Prop
  | repeated (id : String) : Disordered (.repeatedId id)
  | circle (first : String) (later : List String) : Disordered (.dependencyCycle first later)

/-- Either a model is in no order under any policy, or a run that warns makes its schemas. -/
theorem schemas_cases (model : ContentModel) (settings : Settings) :
    (∃ failure, Disordered failure ∧
      ∀ policy, model.schemas (settings.under policy) = Report.fail failure) ∨
    ∃ warnings schemas, model.schemas (settings.under .warn) = ⟨warnings, .ok schemas⟩ := by
  have all {failure : Failure} (h : model.schemas (settings.under .warn) = Report.fail failure)
      (policy : UnknownPolicy) : model.schemas (settings.under policy) = Report.fail failure := by
    rw [schemas_under, h]
    exact Report.under_eq_self (by simp [Report.fail]) policy
  cases hr : repeatedId? [] model.ids with
  | some id => exact .inl ⟨_, .repeated id, all (by simp only [schemas, hr])⟩
  | none =>
    cases hs : model.sequence (settings.under .warn) with
    | error failure =>
      obtain ⟨-, circle, -, rfl⟩ := sequence_eq_error hs
      refine .inl ⟨_, .circle circle.first.id (circle.later.map (·.id)), all ?_⟩
      simp only [schemas, hr, hs]
    | ok types =>
      have hm : model.schemas (settings.under .warn) =
          types.foldlM (model.addSchema (settings.under .warn)) [] := by
        simp only [schemas, hr, hs]
      right
      cases ho : (model.schemas (settings.under .warn)).outcome with
      | ok made => exact ⟨_, made, congrArg (Report.mk _) ho⟩
      | error failure =>
        rw [hm] at ho
        obtain ⟨ct, -, made, ha⟩ := Report.exists_of_foldlM_error ho
        rw [addSchema, Report.outcome_bind_eq_error] at ha
        rcases ha with ha | ⟨node, -, ha⟩
        · -- only the policy that lets no unknown kind pass refuses a content type
          obtain ⟨hu, -⟩ := Scope.refused_of_mapContentType ha
          cases hu
        · cases ha

theorem graph_of_schemas (h : model.schemas settings = ⟨warnings, .ok schemas⟩) :
    model.graph settings = .ok ⟨schemas, warnings.map (·.message)⟩ := by
  rw [ContentModel.graph, h]
  rfl

theorem graph_error_of_schemas {failure : Failure}
    (h : (model.schemas settings).outcome = .error failure) :
    model.graph settings = .error failure := by
  rw [ContentModel.graph, h]
  rfl

end ContentModel

section

variable {text : String} {model : ContentModel} {schemas : List (String × Node)}
  {warnings : List Warning}

/-- The text is that of a model with these schemas, of which this source is generated, and all that
is warned of on the way is this. -/
def Yields (text : String) (settings : Settings) (schemas : List (String × Node)) (source : String)
    (warnings : List Warning) : Prop :=
  ∃ model, readModel text = .ok model ∧ model.schemas settings = ⟨warnings, .ok schemas⟩ ∧
    generate text settings = .ok ⟨source, warnings.map (·.message)⟩

theorem exists_module_of_schemas (h : model.schemas settings = ⟨warnings, .ok schemas⟩) :
    ∃ m, (Graph.toModule ⟨schemas, []⟩ settings).outcome = .ok m := by
  obtain ⟨m, hm, -⟩ := ContentModel.exists_print_graph (ContentModel.graph_of_schemas h)
  exact ⟨m, hm⟩

theorem yields_of_schemas {policy : UnknownPolicy} {m : Module} (hm : readModel text = .ok model)
    (h : model.schemas (settings.under policy) = ⟨warnings, .ok schemas⟩)
    (hs : (Graph.toModule ⟨schemas, []⟩ settings).outcome = .ok m) :
    Yields text (settings.under policy) schemas m.render warnings := by
  have hg := ContentModel.graph_of_schemas h
  obtain ⟨m', hm', hp⟩ := ContentModel.exists_print_graph hg
  rw [Graph.toModule_under] at hm'
  obtain rfl : m' = m := Except.ok.inj (hm'.symm.trans hs)
  exact ⟨model, hm, h, (generate_eq_print hm hg).trans hp⟩

end

/-- The policies for unknown kinds differ in nothing but these kinds. A text that is no model, and a
model in no order, fail alike under all of them. Otherwise the runs that warn of unknown kinds and
that pass over them give the same, but for those warnings; and the run that does not let such kinds
pass gives the same as well if there is none, and fails at the first one if there is one. -/
theorem policies_compared (text : String) (settings : Settings) :
    (∃ failure, ((∃ fault, failure = .invalidModel fault) ∨ ContentModel.Disordered failure) ∧
      ∀ policy, generate text (settings.under policy) = .error failure) ∨
    ∃ schemas source warnings,
      Yields text (settings.under .warn) schemas source warnings ∧
      Yields text (settings.under .ignore) schemas source
        (warnings.filter (!·.isUnsupported)) ∧
      ((∀ w ∈ warnings, ¬ w.isUnsupported) ∧
          Yields text (settings.under .fail) schemas source warnings ∨
        ∃ before contentType field kind after,
          warnings = before ++ .unsupportedKind contentType field kind :: after ∧
          (∀ w ∈ before, ¬ w.isUnsupported) ∧
          generate text (settings.under .fail) =
            .error (.unsupportedKind contentType field kind)) := by
  cases hm : readModel text with
  | error failure =>
    refine .inl ⟨failure, .inl (readModel_eq_error hm), fun policy => ?_⟩
    simp only [generate, hm, bind, Except.bind]
  | ok model =>
    rcases model.schemas_cases settings with ⟨failure, hd, hf⟩ | ⟨warnings, schemas, hw⟩
    · refine .inl ⟨failure, .inr hd, fun policy => ?_⟩
      exact generate_of_graph_error hm (ContentModel.graph_error_of_schemas (by rw [hf]; rfl))
    · have hunder (policy : UnknownPolicy) : model.schemas (settings.under policy) =
          Report.under policy ⟨warnings, .ok schemas⟩ := hw ▸ model.schemas_under settings policy
      obtain ⟨m, hs⟩ := exists_module_of_schemas hw
      rw [Graph.toModule_under] at hs
      refine .inr ⟨schemas, m.render, warnings, yields_of_schemas hm hw hs,
        yields_of_schemas hm (hunder .ignore) hs, ?_⟩
      rcases Report.exists_first_unsupported warnings with
        h | ⟨before, contentType, field, kind, after, hfirst, hb⟩
      · refine .inl ⟨h, yields_of_schemas hm ?_ hs⟩
        rw [hunder, Report.under_eq_self h]
      · refine .inr ⟨before, contentType, field, kind, after, hfirst, hb, ?_⟩
        refine generate_of_graph_error hm (ContentModel.graph_error_of_schemas ?_)
        rw [hunder, Report.under_fail_of_first hfirst hb]

end ContentSchema
