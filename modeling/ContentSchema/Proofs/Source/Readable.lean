import ContentSchema.Proofs.Graph.Levels
import ContentSchema.Proofs.Graph.Stored
import ContentSchema.Proofs.Source.Tagged

/-! # Stored graphs that can be read

What reads a document stops at a depth that what writes it does not know of. A stored graph is read
back just where it does not nest deeper, which is for the model to decide: by lists in lists, and
where links are copied, by chains of links.
-/

namespace ContentSchema

open Json

section

variable {model : ContentModel} {graph : Graph} {settings later : Settings}

theorem exists_of_print_error (h : model.graph settings = .ok graph) {failure : Failure}
    (he : graph.print later = .error failure) :
    ∃ name around, failure = .inliningCycle name around := by
  cases hf : later.flat with
  | true => exact Graph.exists_of_flat_print_error hf (ContentModel.proper_graph h) he
  | false =>
    obtain ⟨m, hm⟩ := ContentModel.exists_toModule_linked h hf
    rw [Graph.print_eq_error_iff, hm] at he
    cases he

theorem renderStored_of_levels_le (hk : graph.Keyed) (hd : graph.levels ≤ maxDepth) :
    renderStored graph.store.source later = graph.print later :=
  renderStored_store hk hd

theorem renderStored_of_lt_levels (hk : graph.Keyed) (hd : maxDepth < graph.levels) :
    renderStored graph.store.source later = .error (.invalidDocument .grammar) := by
  have hp := Graph.plain_toValue hk
  have hv : (Document.ofText graph.store.source).value? = none := by
    rw [Graph.store, Document.ofText_pretty hp]
    exact Tree.value?_of_lt_depth hp hd
  simp only [renderStored, hv]
  rfl

end

/-- A graph that is stored is read back and printed, whatever the settings are then, just where its
document nests no deeper than what reads it allows. It does not where there are few lists in lists
and, flat, only short chains of links; it does where a field has many lists in lists or, flat, a
chain of copies is long. -/
theorem stored_read_back {text : String} {settings : Settings} {stored : Generated}
    (h : generateStored text settings = .ok stored) :
    ∃ model graph, readModel text = .ok model ∧ model.graph settings = .ok graph ∧
      (graph.levels ≤ maxDepth → ∀ later,
        renderStored stored.source later = graph.print later ∧
        ∀ failure, renderStored stored.source later = .error failure →
          ∃ name around, failure = .inliningCycle name around) ∧
      (maxDepth < graph.levels → ∀ later,
        renderStored stored.source later = .error (.invalidDocument .grammar)) ∧
      (∀ n r, (∀ ct ∈ model.contentTypes, ∀ key f, ct.field? key = some f → f.listDepth ≤ n) →
        (settings.flat = true → ∀ ct ∈ model.contentTypes, ¬ Chain model.Leads (r + 1) ct) →
        graph.levels ≤ n + 18 + if settings.flat then r * (n + 7) else 0) ∧
      (∀ ct ∈ model.contentTypes, ∀ key f, ct.field? key = some f →
        f.listDepth + 7 ≤ graph.levels) ∧
      (settings.flat = true → ∀ ct ∈ model.contentTypes, ∀ k, Chain model.Copies k ct →
        4 * k + 12 ≤ graph.levels) := by
  obtain ⟨model, graph, hm, hg, rfl⟩ := generateStored_eq_ok_iff.1 h
  have hk := ContentModel.keyed_graph hg
  refine ⟨model, graph, hm, hg, ?_, ?_, ?_, ?_, ?_⟩
  · intro hd later
    have hr : renderStored graph.store.source later = graph.print later :=
      renderStored_of_levels_le hk hd
    refine ⟨hr, fun failure he => ?_⟩
    rw [hr] at he
    exact exists_of_print_error hg he
  · intro hd later
    exact renderStored_of_lt_levels hk hd
  · intro n r hn hr
    exact ContentModel.levels_graph_le hg hn hr
  · intro ct hct key f hf
    exact ContentModel.listDepth_le_levels_graph hg hct hf
  · intro hf ct hct k hc
    obtain ⟨produced, node, hmapped⟩ := ContentModel.exists_mappedWith hg hct
    have hdeep := ContentModel.levels_of_chain hf hg hct hc hmapped.found
    have hle := Graph.levels_schema_le hmapped.found
    omega

/-- A content type whose entries hold symbols in so many lists and one more. -/
def stacked (lists : Nat) : ContentModel :=
  let list : Descriptor := ⟨"Array", none, []⟩
  ⟨[⟨"page", "", none, none, [⟨"tags", "", list,
    List.replicate lists list ++ [⟨"Symbol", none, []⟩], true, false⟩]⟩]⟩

theorem stored_read_back_stacked :
    ∃ stored printed, generateStored (stacked 1).toValue.compact linkedSettings = .ok stored ∧
      renderStored stored.source linkedSettings = .ok printed := by
  obtain ⟨graph, hg⟩ : ∃ graph, (stacked 1).graph linkedSettings = .ok graph := ⟨_, rfl⟩
  have hm : readModel (stacked 1).toValue.compact = .ok (stacked 1) := readModel_compact rfl
  have hs : generateStored (stacked 1).toValue.compact linkedSettings = .ok graph.store :=
    generateStored_eq_ok_iff.2 ⟨_, _, hm, hg, rfl⟩
  obtain ⟨model, graph', hm', hg', hread, -, hbound, -⟩ := stored_read_back hs
  obtain rfl := Except.ok.inj (hm'.symm.trans hm)
  have hd : graph'.levels ≤ 2 + 18 := by
    refine hbound 2 0 ?_ (fun hf => nomatch hf)
    intro ct hct key f hf
    obtain rfl := List.mem_singleton.1 hct
    obtain rfl := List.mem_singleton.1 (ContentType.mem_fields_of_field? hf)
    decide
  obtain ⟨hr, hfail⟩ := hread (Nat.le_trans hd (by decide)) linkedSettings
  obtain ⟨m, hm⟩ : ∃ m, (graph'.toModule linkedSettings).outcome = .ok m :=
    ContentModel.exists_toModule_linked hg' rfl
  exact ⟨graph.store, _, hs, hr.trans (Graph.print_eq_ok_iff.2 ⟨m, hm, rfl⟩)⟩

set_option maxRecDepth 4096 in
/-- Lists in lists that are read from an export are written in a form that is not read back. -/
theorem deep_lists_not_read_back :
    ∃ stored, generateStored (stacked 120).toValue.compact linkedSettings = .ok stored ∧
      renderStored stored.source linkedSettings = .error (.invalidDocument .grammar) := by
  obtain ⟨graph, hg⟩ : ∃ graph, (stacked 120).graph linkedSettings = .ok graph := ⟨_, rfl⟩
  have hm : readModel (stacked 120).toValue.compact = .ok (stacked 120) := readModel_compact rfl
  refine ⟨graph.store, generateStored_eq_ok_iff.2 ⟨_, _, hm, hg, rfl⟩, ?_⟩
  apply renderStored_of_lt_levels (ContentModel.keyed_graph hg)
  have hf : ((stacked 120).contentTypes.head (by simp [stacked])).field? "tags" = some _ := rfl
  exact ContentModel.listDepth_le_levels_graph hg (List.head_mem _) hf

end ContentSchema
