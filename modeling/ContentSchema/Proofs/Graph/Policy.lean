import ContentSchema.Graph.Assembly
import ContentSchema.Proofs.Graph.Mapping
import Mathlib.Data.List.TakeWhile

/-! # The policy for unknown kinds

The policy has a say in nothing but what becomes of a kind without a validator. So a run that passes
over such kinds, or fails at the first of them, is the run that warns of them with its report cut
down.
-/

namespace ContentSchema

namespace Warning

/-- The failure that stands in place of the warning where unknown kinds are not let pass. -/
def refusal? : Warning → Option Failure
  | unsupportedKind contentType field kind => some (.unsupportedKind contentType field kind)
  | _ => none

def isUnsupported (warning : Warning) : Bool := warning.refusal?.isSome

end Warning

namespace Report

variable {α β : Type} {policy : UnknownPolicy} {report : Report α}

/-- What the policy makes of a report that warns of unknown kinds. -/
def under (policy : UnknownPolicy) (report : Report α) : Report α :=
  match policy with
  | .warn => report
  | .ignore => ⟨report.warnings.filter (!·.isUnsupported), report.outcome⟩
  | .fail =>
    ⟨report.warnings.takeWhile (!·.isUnsupported),
      match report.warnings.findSome? Warning.refusal? with
      | some failure => .error failure
      | none => report.outcome⟩

theorem exists_first_unsupported (warnings : List Warning) :
    (∀ w ∈ warnings, ¬ w.isUnsupported) ∨
      ∃ before contentType field kind after,
        warnings = before ++ .unsupportedKind contentType field kind :: after ∧
          ∀ w ∈ before, ¬ w.isUnsupported := by
  cases h : warnings.find? Warning.isUnsupported with
  | none => exact .inl (List.find?_eq_none.1 h)
  | some warning =>
    obtain ⟨hw, before, after, rfl, hb⟩ := List.find?_eq_some_iff_append.1 h
    obtain ⟨failure, hf⟩ := Option.isSome_iff_exists.1 hw
    cases warning with
    | unsupportedKind contentType field kind =>
      exact .inr ⟨before, contentType, field, kind, after, rfl, by simpa using hb⟩
    | _ => cases hf

theorem refusal?_eq_none {warnings : List Warning} (h : ∀ w ∈ warnings, ¬ w.isUnsupported) :
    warnings.findSome? Warning.refusal? = none := by
  rw [List.findSome?_eq_none_iff]
  intro w hw
  simpa [Warning.isUnsupported] using h w hw

theorem takeWhile_eq_self {warnings : List Warning} (h : ∀ w ∈ warnings, ¬ w.isUnsupported) :
    warnings.takeWhile (!·.isUnsupported) = warnings :=
  List.takeWhile_eq_self_iff.2 (by simpa using h)

theorem under_eq_self (h : ∀ w ∈ report.warnings, ¬ w.isUnsupported) (policy : UnknownPolicy) :
    report.under policy = report := by
  cases policy with
  | warn => rfl
  | ignore => rw [under, List.filter_eq_self.2 (by simpa using h)]
  | fail => rw [under, takeWhile_eq_self h, refusal?_eq_none h]

/-- Where unknown kinds are not let pass, a report ends right before the first warning of one. -/
theorem under_fail_of_first {before after : List Warning} {contentType field kind : String}
    (hw : report.warnings = before ++ .unsupportedKind contentType field kind :: after)
    (hb : ∀ w ∈ before, ¬ w.isUnsupported) :
    report.under .fail = ⟨before, .error (.unsupportedKind contentType field kind)⟩ := by
  have ht : report.warnings.takeWhile (!·.isUnsupported) = before := by
    rw [hw, List.takeWhile_append_of_pos (by simpa using hb)]
    simp [Warning.isUnsupported, Warning.refusal?]
  rw [under, ht, hw, List.findSome?_append, refusal?_eq_none hb]
  rfl

@[simp] theorem under_pure (a : α) : (pure a : Report α).under policy = pure a :=
  under_eq_self (by simp) policy

theorem exists_warnings_bind (first : Report α) (next : α → Report β) :
    ∃ later, (first >>= next).warnings = first.warnings ++ later := by
  cases h : first.outcome with
  | error e => exact ⟨[], by simp [bind, andThen, h]⟩
  | ok a => exact ⟨(next a).warnings, warnings_bind_of_ok h⟩

theorem under_fail_bind (first : Report α) (next : α → Report β) :
    (first >>= next).under .fail = first.under .fail >>= fun a => (next a).under .fail := by
  rcases exists_first_unsupported first.warnings with
    h | ⟨before, contentType, field, kind, after, hw, hb⟩
  · have ht (later : List Warning) : (first.warnings ++ later).takeWhile (!·.isUnsupported) =
        first.warnings ++ later.takeWhile (!·.isUnsupported) :=
      List.takeWhile_append_of_pos (by simpa using h)
    rw [under_eq_self h]
    obtain ⟨warnings, e | a⟩ := first
    · exact @under_eq_self β ⟨warnings, .error e⟩ h .fail
    · simp only [under, bind, andThen, List.findSome?_append, refusal?_eq_none h, Option.none_or, ht]
  · -- the first such warning of the first step is the first one of both steps
    obtain ⟨later, hl⟩ := exists_warnings_bind first next
    rw [hw, List.append_assoc, List.cons_append] at hl
    rw [under_fail_of_first hw hb, under_fail_of_first hl hb]
    rfl

theorem under_bind (first : Report α) (next : α → Report β) :
    (first >>= next).under policy = first.under policy >>= fun a => (next a).under policy := by
  cases policy with
  | warn => rfl
  | ignore => obtain ⟨warnings, _ | a⟩ := first <;> simp [under, bind, andThen]
  | fail => exact under_fail_bind first next

theorem under_map (f : α → β) (report : Report α) :
    (f <$> report).under policy = f <$> report.under policy := by
  simp only [← bind_pure_comp, under_bind, under_pure]

theorem under_mapM (f : α → Report β) (as : List α) :
    (as.mapM f).under policy = as.mapM fun a => (f a).under policy := by
  induction as with
  | nil => simp
  | cons a rest ih => simp only [List.mapM_cons, under_bind, under_pure, ih]

theorem under_foldlM (f : β → α → Report β) (as : List α) (start : β) :
    (as.foldlM f start).under policy = as.foldlM (fun b a => (f b a).under policy) start := by
  induction as generalizing start with
  | nil => simp
  | cons a rest ih => simp only [List.foldlM_cons, under_bind, ih]

end Report

def Settings.under (settings : Settings) (policy : UnknownPolicy) : Settings :=
  { settings with unknown := policy }

namespace Scope

def under (scope : Scope) (policy : UnknownPolicy) : Scope :=
  { scope with settings := scope.settings.under policy }

variable {scope : Scope} {field : String} {d : Descriptor} {items : List Descriptor}
  (policy : UnknownPolicy)

theorem unsupported_under (field kind : String) :
    (scope.under policy).unsupported field kind =
      ((scope.under .warn).unsupported field kind).under policy := by
  cases policy <;> rfl

theorem entryLink_under (field : String) (targets : List String) :
    (scope.under policy).entryLink field targets =
      ((scope.under .warn).entryLink field targets).under policy := by
  rw [Report.under_eq_self]
  · rfl
  · rw [entryLink_eq, List.forall_mem_map]
    intro target _
    exact Bool.false_ne_true

theorem mapSingle_under :
    (scope.under policy).mapSingle field d items =
      ((scope.under .warn).mapSingle field d items).under policy := by
  unfold mapSingle
  split
  case h_9 =>
    split
    · exact (Report.under_pure _).symm
    · exact entryLink_under policy field _
    · exact unsupported_under policy field _
    · exact unsupported_under policy field _
  case h_10 => exact unsupported_under policy field _
  all_goals exact (Report.under_pure _).symm

theorem mapKind_under :
    (scope.under policy).mapKind field d items =
      ((scope.under .warn).mapKind field d items).under policy := by
  induction items generalizing field d with
  | nil => exact mapSingle_under policy
  | cons item inner ih =>
    by_cases hd : d.kind = "Array"
    · rw [mapKind_array hd, mapKind_array hd, Report.under_map]
      split
      · rw [entryLink_under policy]
      · rw [ih]
    · rw [mapKind_of_ne hd, mapKind_of_ne hd, mapSingle_under policy]

theorem mapEntry_under (field : Field) :
    (scope.under policy).mapEntry field = ((scope.under .warn).mapEntry field).under policy := by
  simp only [mapEntry_eq, mapField_eq, mapKind_under policy, Report.under_map]

theorem mapContentType_under (ct : ContentType) :
    (scope.under policy).mapContentType ct =
      ((scope.under .warn).mapContentType ct).under policy := by
  have he : (scope.under policy).mapEntry =
      fun field => ((scope.under .warn).mapEntry field).under policy := funext (mapEntry_under policy)
  rw [mapContentType_eq, mapContentType_eq, Report.under_map, Report.under_mapM, he]
  rfl

end Scope

namespace ContentModel

variable {model : ContentModel} {settings : Settings} {policy : UnknownPolicy}

theorem addSchema_under (schemas : List (String × Node)) (ct : ContentType) :
    model.addSchema (settings.under policy) schemas ct =
      (model.addSchema (settings.under .warn) schemas ct).under policy := by
  have h : (⟨settings.under policy, model.ids, schemas, ct.id⟩ : Scope).mapContentType ct =
      ((⟨settings.under .warn, model.ids, schemas, ct.id⟩ : Scope).mapContentType ct).under policy :=
    @Scope.mapContentType_under ⟨settings, model.ids, schemas, ct.id⟩ policy ct
  simp only [addSchema, h, bind_pure_comp, Report.under_map]

/-- A run under any policy is what the policy makes of the run that warns. -/
theorem schemas_under (model : ContentModel) (settings : Settings) (policy : UnknownPolicy) :
    model.schemas (settings.under policy) =
      (model.schemas (settings.under .warn)).under policy := by
  have ha : model.addSchema (settings.under policy) =
      fun schemas ct => (model.addSchema (settings.under .warn) schemas ct).under policy := by
    funext schemas ct
    exact addSchema_under schemas ct
  have hs : model.sequence (settings.under policy) = model.sequence (settings.under .warn) := rfl
  unfold schemas
  rw [hs]
  split
  · exact (Report.under_eq_self (by simp [Report.fail]) policy).symm
  · split
    · exact (Report.under_eq_self (by simp [Report.fail]) policy).symm
    · rw [Report.under_foldlM, ha]

example :
    let field (id : String) (d : Descriptor) (items : List Descriptor) : Field :=
      ⟨id, "", d, items, true, false⟩
    let link : Descriptor := ⟨"Link", some "Entry", [⟨some (.one "gone"), none⟩]⟩
    let model : ContentModel := ⟨[⟨"page", "", none, none, [field "next" link [],
      field "tags" ⟨"Array", none, []⟩ [⟨"Color", none, []⟩], field "body" link []]⟩]⟩
    model.schemas (Options.empty.resolve.under .fail) =
      ⟨[.unknownTarget "page" "next" "gone"],
        .error (.unsupportedKind "page" "tagsItem" "Color")⟩ := rfl

end ContentModel

end ContentSchema
