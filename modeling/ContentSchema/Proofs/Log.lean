import ContentSchema.Log
import ContentSchema.Proofs.Report

/-! # What is logged

Where a text is generated, the log is given its warnings, but for those that a stored graph comes
with.
-/

namespace ContentSchema

open Json

variable {text : String} {settings : Settings} {generated : Generated}

theorem ContentModel.messages_schemas {model : ContentModel} {graph : Graph}
    (h : model.graph settings = .ok graph) : (model.schemas settings).messages = graph.warnings := by
  obtain ⟨schemas, -, rfl⟩ := map_eq_ok.1 h
  rfl

theorem Graph.warnings_print {graph : Graph} (h : graph.print settings = .ok generated) :
    generated.warnings = graph.warnings ++ (graph.toModule settings).messages := by
  obtain ⟨m, -, rfl⟩ := map_eq_ok.1 h
  rfl

theorem generateStoredLog_eq (h : generateStored text settings = .ok generated) :
    generateStoredLog text settings = generated.warnings := by
  obtain ⟨model, hm, h⟩ := bind_eq_ok.1 h
  obtain ⟨graph, hg, h⟩ := bind_eq_ok.1 h
  obtain rfl := Except.ok.inj h
  rw [generateStoredLog, hm]
  exact ContentModel.messages_schemas hg

theorem generateLog_eq (h : generate text settings = .ok generated) :
    generateLog text settings = generated.warnings := by
  obtain ⟨model, hm, h⟩ := bind_eq_ok.1 h
  obtain ⟨graph, hg, h⟩ := bind_eq_ok.1 h
  rw [generateLog, hm, logAfter, hg, logAfter, ContentModel.messages_schemas hg,
    Graph.warnings_print h]

def storedWarnings (document : Value) : List String :=
  match document.member? "warnings" with
  | some (.list warnings) => warnings.filterMap Value.text?
  | _ => []

/-- The line says what the warning says, or all of it but what is done about an entry. -/
def Reports (warning line : String) : Prop :=
  warning = line ∨ warning = line ++ "; emitting z.unknown()"

theorem Warning.reports (w : Warning) : Reports w.message w.logged := by
  cases w with
  | notANode id fault => exact .inr rfl
  | _ => exact .inl rfl

theorem Graph.ofStored_eq_ok {document : Value} {graph : Graph}
    (h : ofStored settings document = .ok graph) :
    ∃ met : List Warning, storedLog settings document = met.map (·.logged) ∧
      graph.warnings = storedWarnings document ++ met.map (·.message) := by
  revert h
  unfold ofStored storedLog
  cases (document.member? "schemas").getD document with
  | object entries =>
    intro h
    obtain ⟨nodes, -, rfl⟩ := map_eq_ok.1 h
    exact ⟨_, rfl, rfl⟩
  | _ =>
    intro h
    cases h

/-- What is logged while a stored graph is printed are the warnings that it does not come with. -/
theorem exists_warnings_of_renderStored (h : renderStored text settings = .ok generated) :
    ∃ document met, (Document.ofText text).value? = some document ∧
      generated.warnings = storedWarnings document ++ met ∧
      List.Forall₂ Reports met (renderStoredLog text settings) := by
  unfold renderStored at h
  split at h
  · cases h
  · next document hd =>
    obtain ⟨graph, hg, hp⟩ := bind_eq_ok.1 h
    obtain ⟨met, hl, hw⟩ := Graph.ofStored_eq_ok hg
    refine ⟨document, met.map (·.message) ++ (graph.toModule settings).messages, hd, ?_, ?_⟩
    · rw [Graph.warnings_print hp, hw, List.append_assoc]
    · rw [renderStoredLog, hd]
      simp only [hl, hg, logAfter]
      refine List.rel_append ?_ ?_
      · rw [List.forall₂_map_left_iff, List.forall₂_map_right_iff, List.forall₂_same]
        exact fun w _ => w.reports
      · rw [List.forall₂_same]
        exact fun w _ => .inl rfl

end ContentSchema
