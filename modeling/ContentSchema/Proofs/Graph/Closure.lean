import ContentSchema.Proofs.Graph.Assembly
import ContentSchema.Proofs.Graph.Mapping

/-! # What holds of all mapped nodes

What holds of basic nodes and references, and is kept by all that puts nodes together, holds of
every schema of an assembled graph, whether the schemas refer to each other or hold copies.
-/

namespace ContentSchema

namespace Node

structure MapClosed (P : Node → Prop) : Prop where
  basic {node : Node} (h : node.Basic) : P node
  reference (id : String) : P (linkTarget none id)
  relinked {node : Node} (links : Option LinkSet) (h : P node) :
    P (node.withTags { node.tags with links := links })
  array {element : Node} (h : P element) : P (array element .empty)
  optional {inner : Node} (h : P inner) : P (optional inner .empty)
  union {branches : List Node} (hl : 2 ≤ branches.length) (h : ∀ b ∈ branches, P b) :
    P (union branches .empty)
  record {entries : List (String × Node)} (policy : ObjectPolicy) (h : ∀ e ∈ entries, P e.2) :
    P (record entries policy)

namespace MapClosed

variable {P : Node → Prop} {node : Node} {copies : Option (List (String × Node))}

theorem listed (hP : MapClosed P) (h : P node) : P node.listed :=
  hP.relinked _ (hP.array (hP.relinked none h))

theorem wrapped (hP : MapClosed P) (h : P node) : P node.wrapped :=
  hP.relinked _ (hP.optional (hP.relinked none h))

theorem literal (hP : MapClosed P) (value : String) : P (literal value) := hP.basic (.plain _)

theorem openLink (hP : MapClosed P) : P openLink := by
  refine hP.record _ (List.forall_mem_singleton.2 (hP.record _ ?_))
  have hs : P (plain .string) := hP.basic (.plain _)
  simp [hP.literal, hs]

theorem linkTarget (hP : MapClosed P) (h : ∀ schemas ∈ copies, ∀ e ∈ schemas, P e.2)
    (target : String) : P (linkTarget copies target) := by
  cases copies with
  | none => exact hP.reference target
  | some schemas =>
    rw [Node.linkTarget]
    cases hl : schemas.lookup target with
    | none => exact hP.openLink
    | some node => exact h schemas rfl _ (Entries.mem_of_lookup hl)

theorem link (hP : MapClosed P) (h : ∀ schemas ∈ copies, ∀ e ∈ schemas, P e.2)
    (targets : List String) : P (link targets copies) := by
  have ht := hP.linkTarget h
  match targets with
  | [] => exact hP.openLink
  | [target] => exact hP.relinked _ (ht target)
  | a :: b :: rest =>
    refine hP.relinked _ (hP.union (by simp) ?_)
    rw [List.forall_mem_map]
    intro target _
    exact ht target

end MapClosed

end Node

open Node (MapClosed)

variable {P : Node → Prop}

namespace Scope

variable {scope : Scope} {node : Node}

theorem mapField_closed (hP : MapClosed P) (hs : ∀ e ∈ scope.produced, P e.2) {field : Field}
    (h : (scope.mapField field).outcome = .ok node) : P node := by
  have hc : ∀ schemas ∈ scope.copies, ∀ e ∈ schemas, P e.2 := by
    intro schemas hm
    unfold copies at hm
    split at hm
    · obtain rfl := Option.some.inj hm
      exact hs
    · cases hm
  obtain ⟨inner, hi, rfl⟩ := Report.outcome_map_eq_ok.1 (mapField_eq field ▸ h)
  have hk : P inner := mapKind_induct (fun _ => hP.basic) (fun targets _ => hP.link hc targets)
    (fun _ => hP.listed) hi
  split
  · exact hk
  · exact hP.wrapped hk

theorem discriminant_closed (hP : MapClosed P) (id : String) : P (discriminant id) := by
  have within {key : String} {node : Node} (h : P node) : P (.record [(key, node)] .strip) :=
    hP.record _ (List.forall_mem_singleton.2 h)
  exact within (within (within (hP.literal id)))

theorem mapContentType_closed (hP : MapClosed P) (hs : ∀ e ∈ scope.produced, P e.2)
    {ct : ContentType} (h : (scope.mapContentType ct).outcome = .ok node) : P node := by
  obtain ⟨entries, he, rfl⟩ := Report.outcome_map_eq_ok.1 (mapContentType_eq ct ▸ h)
  have hk : ∀ e ∈ entries, P e.2 := by
    intro e hm
    obtain ⟨field, -, hf⟩ := Report.exists_of_mem_mapM he hm
    obtain ⟨-, hn⟩ := mapEntry_eq_ok_iff.1 hf
    exact mapField_closed hP hs hn
  have hr : P (.record entries scope.settings.objectPolicy) := hP.record _ hk
  exact hP.record _ (by simp [discriminant_closed hP, hr])

end Scope

namespace ContentModel

variable {model : ContentModel} {settings : Settings} {graph : Graph}

theorem nodup_keys_graph (h : model.graph settings = .ok graph) :
    (Entries.keys graph.schemas).Nodup := by
  obtain ⟨-, types, -, hs, -⟩ := graph_eq_ok_iff.1 h
  refine Report.outcome_foldlM_induct (P := fun schemas => (Entries.keys schemas).Nodup) (by simp)
    (fun ct _ schemas next hn ha => ?_) hs
  obtain ⟨node, -, ho⟩ := Report.outcome_bind_eq_ok.1 ha
  obtain rfl := Except.ok.inj ho
  exact Entries.nodup_keys_put hn

theorem graph_closed (hP : MapClosed P) (h : model.graph settings = .ok graph) :
    ∀ e ∈ graph.schemas, P e.2 := by
  refine graph_induct (P := fun e => P e.2) h fun ct _ schemas node hall hn => ?_
  exact Scope.mapContentType_closed hP (by exact hall) hn

end ContentModel

end ContentSchema
