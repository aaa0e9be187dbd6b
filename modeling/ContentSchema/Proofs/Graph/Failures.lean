import ContentSchema.Proofs.Graph.Inlining

/-! # Failures of assembly

A model has a graph unless an id is used twice, a field has a kind that the settings do not let
pass, or, flat, content types link in a circle.
-/

namespace ContentSchema

namespace Scope

variable {scope : Scope} {field : String} {d : Descriptor} {items : List Descriptor}
  {failure : Failure}

def Refused (scope : Scope) (failure : Failure) : Prop :=
  scope.settings.unknown = .fail ∧
    ∃ field kind, failure = .unsupportedKind scope.contentType field kind

theorem refused_of_unsupported {kind : String}
    (h : (scope.unsupported field kind).outcome = .error failure) : scope.Refused failure := by
  unfold unsupported at h
  split at h
  · next hu => exact ⟨hu, field, kind, (Except.error.inj h).symm⟩
  · cases h
  · cases h

theorem refused_of_mapSingle (h : (scope.mapSingle field d items).outcome = .error failure) :
    scope.Refused failure := by
  unfold mapSingle at h
  split at h
  case h_9 =>
    split at h
    · cases h
    · cases h
    · exact refused_of_unsupported h
    · exact refused_of_unsupported h
  case h_10 => exact refused_of_unsupported h
  all_goals cases h

theorem refused_of_mapKind (h : (scope.mapKind field d items).outcome = .error failure) :
    scope.Refused failure := by
  induction items generalizing field d with
  | nil => exact refused_of_mapSingle h
  | cons item inner ih =>
    by_cases hk : d.kind = "Array"
    · rw [mapKind_array hk, Report.outcome_map_eq_error] at h
      split at h
      · rw [entryLink_eq] at h
        cases h
      · exact ih h
    · exact refused_of_mapSingle (mapKind_of_ne hk ▸ h)

theorem refused_of_mapContentType {ct : ContentType}
    (h : (scope.mapContentType ct).outcome = .error failure) : scope.Refused failure := by
  rw [mapContentType_eq, Report.outcome_map_eq_error] at h
  obtain ⟨f, -, hf⟩ := Report.exists_of_mapM_error h
  rw [mapEntry_eq, Report.outcome_map_eq_error, mapField_eq, Report.outcome_map_eq_error] at hf
  exact refused_of_mapKind hf

end Scope

namespace ContentModel

variable {model : ContentModel} {settings : Settings} {failure : Failure}

/-- Why a model has no graph. -/
inductive Refused (model : ContentModel) (settings : Settings) : Failure → Prop
  | repeated {id : String} (h : 2 ≤ model.ids.count id) : Refused model settings (.repeatedId id)
  | circle {circle : Circle ContentType} (hf : settings.flat = true)
      (h : ContentType.order model.contentTypes = .error circle) :
      Refused model settings (.dependencyCycle circle.first.id (circle.later.map (·.id)))
  | unsupported {ct : ContentType} (hct : ct ∈ model.contentTypes) (field kind : String)
      (hu : settings.unknown = .fail) : Refused model settings (.unsupportedKind ct.id field kind)

theorem repeatedId?_eq_some {seen ids : List String} {id : String}
    (h : repeatedId? seen ids = some id) : id ∈ ids ∧ (id ∈ seen ∨ 2 ≤ ids.count id) := by
  induction ids generalizing seen with
  | nil => cases h
  | cons first rest ih =>
    rw [repeatedId?] at h
    split at h
    · next hs =>
      obtain rfl := Option.some.inj h
      exact ⟨List.mem_cons_self, .inl (by simpa using hs)⟩
    · obtain ⟨hm, hs⟩ := ih h
      have hpos := List.count_pos_iff.2 hm
      refine ⟨List.mem_cons_of_mem first hm, ?_⟩
      rw [List.mem_cons] at hs
      rcases hs with (rfl | hs) | hs
      · right
        rw [List.count_cons_self]
        omega
      · exact .inl hs
      · right
        rw [List.count_cons]
        omega

theorem sequence_eq_error (h : model.sequence settings = .error failure) :
    settings.flat = true ∧ ∃ circle, ContentType.order model.contentTypes = .error circle ∧
      failure = .dependencyCycle circle.first.id (circle.later.map (·.id)) := by
  unfold sequence at h
  split at h
  · next hf =>
    split at h
    · cases h
    · next circle hc => exact ⟨hf, circle, hc, (Except.error.inj h).symm⟩
  · cases h

theorem refused_of_graph_error (h : model.graph settings = .error failure) :
    model.Refused settings failure := by
  have hs : (model.schemas settings).outcome = .error failure := by
    rw [ContentModel.graph] at h
    cases hm : (model.schemas settings).outcome with
    | ok schemas => simp [hm, Except.map] at h
    | error e => simpa [hm, Except.map] using h
  unfold schemas at hs
  split at hs
  · next id hr =>
    obtain rfl := Except.error.inj hs
    exact .repeated ((repeatedId?_eq_some hr).2.resolve_left (by simp))
  · next hr =>
    split at hs
    · next e he =>
      obtain rfl := Except.error.inj hs
      obtain ⟨hf, circle, hc, rfl⟩ := sequence_eq_error he
      exact .circle hf hc
    · next types ht =>
      have hn : model.ids.Nodup := (repeatedId?_eq_none_iff.1 hr).1
      obtain ⟨ct, hct, made, hm⟩ := Report.exists_of_foldlM_error hs
      rw [addSchema, Report.outcome_bind_eq_error] at hm
      rcases hm with hm | ⟨node, -, hp⟩
      · obtain ⟨hu, field, kind, rfl⟩ := Scope.refused_of_mapContentType hm
        exact .unsupported ((perm_of_sequence hn ht).mem_iff.1 hct) field kind hu
      · cases hp

end ContentModel

end ContentSchema
