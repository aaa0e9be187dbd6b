import ContentSchema.Proofs.Graph.Inlining

/-! # Links of mapped fields

Linked, the node of a field that links to known content types is tagged with these, with the list
and with the leave to be absent. The targets that are not known are reported.
-/

namespace ContentSchema

namespace Node

theorem links_listed (node : Node) :
    node.listed.tags.links = node.tags.links.map ({ · with list := true }) := rfl

theorem links_wrapped (node : Node) :
    node.wrapped.tags.links = node.tags.links.map ({ · with optional := true }) := rfl

theorem links_of_basic {node : Node} (h : node.Basic) : node.tags.links = none := by
  cases h with
  | plain p => rfl
  | builtin h =>
    rcases Builtin.mem_all_iff.1 h with rfl | rfl | rfl | rfl <;> rfl
  | any => rfl

def linkSet? (targets : List String) (list optional : Bool) : Option LinkSet :=
  if targets.isEmpty then none else some ⟨targets, list, optional⟩

theorem map_list_linkSet? (targets : List String) (list optional : Bool) :
    (linkSet? targets list optional).map ({ · with list := true }) =
      linkSet? targets true optional := by
  unfold linkSet?
  split <;> rfl

theorem map_optional_linkSet? (targets : List String) (list optional : Bool) :
    (linkSet? targets list optional).map ({ · with optional := true }) =
      linkSet? targets list true := by
  unfold linkSet?
  split <;> rfl

theorem links_link (targets : List String) :
    (link targets none).tags.links = linkSet? targets false false := by
  match targets with
  | [] => rfl
  | [_] => rfl
  | _ :: _ :: _ => rfl

end Node

namespace Field

def knownTargets (f : Field) (known : List String) : List String :=
  f.linkTargets.filter (· ∈ known)

end Field

namespace Scope

variable {scope : Scope} {field : String} {d : Descriptor} {items : List Descriptor} {node : Node}
  {f : Field}

/-- An entry link is mapped to its known targets, as a list if it is one. -/
theorem mapKind_of_isEntryLink (h : d.isEntryLink items) :
    scope.mapKind field d items =
      (fun node : Node => if d.kind = "Array" then node.listed else node) <$>
        scope.entryLink field (d.linkTargets items) := by
  by_cases hk : d.kind = "Array"
  · cases items with
    | nil => simp [Descriptor.isEntryLink, Descriptor.linksTo, hk] at h
    | cons item inner => simp only [mapKind_array hk, h, if_true, hk]
  · rw [mapKind_of_ne hk, mapSingle_of_linksTo (Descriptor.linksTo_of_isEntryLink h hk)]
    simp only [hk, if_false, id_map']

theorem links_mapKind_of_not_isEntryLink (h : ¬ d.isEntryLink items)
    (hn : ¬ (d.kind == "Array" && items.head?.any (·.kind == "Array")))
    (ho : (scope.mapKind field d items).outcome = .ok node) : node.tags.links = none := by
  have hd : ¬ d.linksTo "Entry" := fun hd => h (by simp [Descriptor.isEntryLink, hd])
  by_cases hk : d.kind = "Array"
  · cases items with
    | nil => exact Node.links_of_basic (basic_of_mapSingle hd ho)
    | cons item inner =>
      have hi : item.kind ≠ "Array" := fun hi => hn (by simp [hk, hi])
      have hl : ¬ item.linksTo "Entry" := fun hl => h (by simp [Descriptor.isEntryLink, hk, hl])
      rw [mapKind_array hk, if_neg h, mapKind_of_ne hi] at ho
      obtain ⟨element, he, rfl⟩ := Report.outcome_map_eq_ok.1 ho
      rw [Node.links_listed, Node.links_of_basic (basic_of_mapSingle hl he), Option.map_none]
  · exact Node.links_of_basic (basic_of_mapSingle hd (mapKind_of_ne hk ▸ ho))

theorem links_mapKind_of_isEntryLink (hf : scope.settings.flat = false) (h : d.isEntryLink items)
    (ho : (scope.mapKind field d items).outcome = .ok node) :
    node.tags.links =
      Node.linkSet? ((d.linkTargets items).filter (· ∈ scope.known)) (d.kind == "Array") false := by
  rw [mapKind_of_isEntryLink h, entryLink_eq, copies_linked hf, Report.outcome_map] at ho
  have hn : node =
      if d.kind = "Array" then
        (Node.link ((d.linkTargets items).filter (· ∈ scope.known)) none).listed
      else Node.link ((d.linkTargets items).filter (· ∈ scope.known)) none :=
    (Except.ok.inj ho).symm
  rw [hn]
  by_cases hk : d.kind = "Array"
  · rw [if_pos hk, Node.links_listed, Node.links_link, Node.map_list_linkSet?, beq_iff_eq.2 hk]
  · rw [if_neg hk, Node.links_link, beq_eq_false_iff_ne.2 hk]

theorem links_of_isEntryLink (hf : scope.settings.flat = false) (h : f.isEntryLink)
    (ho : (scope.mapField f).outcome = .ok node) :
    node.tags.links = Node.linkSet? (f.knownTargets scope.known) (f.holds.kind == "Array")
      (!f.required) := by
  obtain ⟨inner, hi, rfl⟩ := Report.outcome_map_eq_ok.1 (mapField_eq f ▸ ho)
  have hl : inner.tags.links =
      Node.linkSet? (f.knownTargets scope.known) (f.holds.kind == "Array") false :=
    links_mapKind_of_isEntryLink hf h hi
  cases hr : f.required with
  | true => exact hl
  | false =>
    rw [if_neg Bool.false_ne_true, Node.links_wrapped, hl, Node.map_optional_linkSet?]
    rfl

theorem links_of_not_isEntryLink (h : ¬ f.isEntryLink) (hn : ¬ f.isNested)
    (ho : (scope.mapField f).outcome = .ok node) : node.tags.links = none := by
  obtain ⟨inner, hi, rfl⟩ := Report.outcome_map_eq_ok.1 (mapField_eq f ▸ ho)
  have hl : inner.tags.links = none := links_mapKind_of_not_isEntryLink h hn hi
  split
  · exact hl
  · rw [Node.links_wrapped, hl, Option.map_none]

theorem mem_warnings_mapField {target : String} (ht : target ∈ f.linkTargets)
    (hk : target ∉ scope.known) :
    .unknownTarget scope.contentType f.id target ∈ (scope.mapField f).warnings := by
  have h : f.isEntryLink := by
    by_contra h
    rw [Field.linkTargets, Descriptor.linkTargets_of_not_isEntryLink h] at ht
    cases ht
  rw [mapField_eq, Report.warnings_map, mapKind_of_isEntryLink h, Report.warnings_map, entryLink_eq]
  exact List.mem_map_of_mem (List.mem_filter.2 ⟨ht, decide_eq_true hk⟩)

theorem mem_warnings_mapContentType {ct : ContentType} {target : String}
    (h : (scope.mapContentType ct).outcome = .ok node) (hf : f ∈ ct.fields)
    (ht : target ∈ f.linkTargets) (hk : target ∉ scope.known) :
    .unknownTarget scope.contentType f.id target ∈ (scope.mapContentType ct).warnings := by
  rw [mapContentType_eq] at h ⊢
  obtain ⟨entries, he, -⟩ := Report.outcome_map_eq_ok.1 h
  rw [Report.warnings_map]
  refine Report.mem_warnings_mapM he hf ?_
  rw [mapEntry_eq, Report.warnings_map]
  exact mem_warnings_mapField ht hk

end Scope

theorem ContentModel.mem_warnings_linked_graph {model : ContentModel} {settings : Settings}
    {graph : Graph} {ct : ContentType} {f : Field} {target : String}
    (hs : settings.flat = false) (h : model.graph settings = .ok graph)
    (hct : ct ∈ model.contentTypes) (hf : f ∈ ct.fields) (ht : target ∈ f.linkTargets)
    (hk : target ∉ model.ids) :
    (Warning.unknownTarget ct.id f.id target).message ∈ graph.warnings := by
  obtain ⟨hn, types, hseq, -, hw⟩ := graph_eq_ok_iff.1 h
  obtain rfl := Except.ok.inj ((sequence_of_linked hs).symm.trans hseq)
  obtain ⟨node, hnode, -⟩ := lookup_linked_graph hs h hct
  have hm : .unknownTarget ct.id f.id target ∈ (model.linked settings ct).warnings :=
    Scope.mem_warnings_mapContentType hnode hf ht hk
  rw [← hw, foldlM_addSchema_of_linked hs hn (by simp), Report.messages, Report.warnings_map]
  refine List.mem_map_of_mem (Report.mem_warnings_mapM (linked_graph hs h) hct ?_)
  rwa [Report.warnings_map]

end ContentSchema
