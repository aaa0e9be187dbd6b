import ContentSchema.Proofs.Entries
import ContentSchema.Proofs.Graph.Mapping
import ContentSchema.Proofs.Model.Links
import ContentSchema.Proofs.Validator.Structure

/-! # References of mapped content types

Linked, the node of a content type refers to the known content types that its fields lead to, at any
depth of lists, and to no others.
-/

namespace ContentSchema

namespace Node

theorem contentTypeReferences_of_basic {node : Node} (h : node.Basic) :
    node.contentTypeReferences = [] := by
  cases h with
  | plain p => rfl
  | builtin h =>
    rcases Builtin.mem_all_iff.1 h with rfl | rfl | rfl | rfl <;> rfl
  | any => rfl

theorem mem_contentTypeReferences_linkTarget {id target : String} :
    id ∈ (linkTarget none target).contentTypeReferences ↔ id = target := by
  rw [mem_contentTypeReferences]
  simp [linkTarget, any, withReference, withTags, tags, children, eq_comm]

theorem mem_contentTypeReferences_link {id : String} {targets : List String} :
    id ∈ (link targets none).contentTypeReferences ↔ id ∈ targets := by
  unfold link
  split
  · exact Iff.rfl
  · simp [mem_contentTypeReferences_linkTarget]
  · rw [mem_contentTypeReferences_withLinks, mem_contentTypeReferences]
    simp [tags, Tags.empty, children, mem_contentTypeReferences_linkTarget]

end Node

namespace Scope

variable {scope : Scope} {field id : String} {d : Descriptor} {items : List Descriptor}
  {node : Node}

theorem copies_linked (h : scope.settings.flat = false) : scope.copies = none := by
  simp [copies, h]

theorem copies_flat (h : scope.settings.flat = true) : scope.copies = some scope.produced := by
  simp [copies, h]

theorem mem_references_entryLink (h : scope.settings.flat = false) {targets : List String}
    (ho : (scope.entryLink field targets).outcome = .ok node) :
    id ∈ node.contentTypeReferences ↔ id ∈ targets ∧ id ∈ scope.known := by
  rw [entryLink_eq, copies_linked h] at ho
  obtain rfl := Except.ok.inj ho
  rw [Node.mem_contentTypeReferences_link, List.mem_filter, decide_eq_true_iff]

theorem mem_references_mapSingle (h : scope.settings.flat = false)
    (hd : d.isEntryLink items → d.linksTo "Entry")
    (ho : (scope.mapSingle field d items).outcome = .ok node) :
    id ∈ node.contentTypeReferences ↔ id ∈ d.linkTargets items ∧ id ∈ scope.known := by
  by_cases hl : d.linksTo "Entry"
  · exact mem_references_entryLink h (mapSingle_of_linksTo hl ▸ ho)
  · rw [Node.contentTypeReferences_of_basic (basic_of_mapSingle hl ho),
      Descriptor.linkTargets_of_not_isEntryLink (mt hd hl)]
    simp

theorem mem_references_mapKind (h : scope.settings.flat = false)
    (ho : (scope.mapKind field d items).outcome = .ok node) :
    id ∈ node.contentTypeReferences ↔ id ∈ d.reached items ∧ id ∈ scope.known := by
  induction items generalizing field d node with
  | nil =>
    exact mem_references_mapSingle h (by simp [Descriptor.isEntryLink]) ho
  | cons item inner ih =>
    by_cases hk : d.kind = "Array"
    · rw [mapKind_array hk] at ho
      obtain ⟨element, he, rfl⟩ := Report.outcome_map_eq_ok.1 ho
      rw [Node.mem_contentTypeReferences_listed]
      by_cases hl : d.isEntryLink (item :: inner)
      · rw [if_pos hl] at he
        rw [Descriptor.reached_of_isEntryLink hl]
        exact mem_references_entryLink h he
      · rw [if_neg hl] at he
        rw [Descriptor.reached, if_pos ⟨hk, hl⟩]
        exact ih he
    · rw [mapKind_of_ne hk] at ho
      rw [Descriptor.reached_of_ne hk]
      exact mem_references_mapSingle h (Descriptor.linksTo_of_isEntryLink · hk) ho

theorem mem_references_mapField (h : scope.settings.flat = false) {f : Field}
    (ho : (scope.mapField f).outcome = .ok node) :
    id ∈ node.contentTypeReferences ↔ id ∈ f.reached ∧ id ∈ scope.known := by
  obtain ⟨inner, hi, rfl⟩ := Report.outcome_map_eq_ok.1 (mapField_eq f ▸ ho)
  split
  · exact mem_references_mapKind h hi
  · rw [Node.mem_contentTypeReferences_wrapped]
    exact mem_references_mapKind h hi

theorem lookup_entries {fields : List Field} {entries : List (String × Node)} {key : String}
    (h : List.Forall₂ (fun f e => (scope.mapEntry f).outcome = .ok e) fields entries) :
    entries.lookup key = some node ↔
      ∃ f, fields.find? (·.id == key) = some f ∧ (scope.mapField f).outcome = .ok node := by
  induction h with
  | nil => simp
  | @cons f e fields entries he _ ih =>
    obtain ⟨hk, hn⟩ := mapEntry_eq_ok_iff.1 he
    rw [Entries.lookup_cons, List.find?_cons]
    by_cases hkey : key = e.1
    · have hb : (f.id == key) = true := by simp [hkey, hk]
      rw [if_pos hkey, hb]
      constructor
      · rintro hs
        obtain rfl := Option.some.inj hs
        exact ⟨f, rfl, hn⟩
      · rintro ⟨g, hg, hn'⟩
        obtain rfl := Option.some.inj hg
        exact congrArg some (Except.ok.inj (hn.symm.trans hn'))
    · have hb : (f.id == key) = false := beq_eq_false_iff_ne.2 fun h => hkey (h.symm.trans hk.symm)
      rw [if_neg hkey, hb]
      exact ih

theorem lookup_ofList_entries {ct : ContentType} {entries : List (String × Node)} {key : String}
    (h : (ct.fields.mapM scope.mapEntry).outcome = .ok entries) :
    (Entries.ofList entries).lookup key = some node ↔
      ∃ f, ct.field? key = some f ∧ (scope.mapField f).outcome = .ok node := by
  rw [Entries.lookup_ofList, ContentType.field?]
  exact lookup_entries (List.rel_reverse (Report.outcome_mapM_eq_ok.1 h))

theorem exists_mem_entries {ct : ContentType} {entries : List (String × Node)} {key : String}
    {f : Field} (h : (ct.fields.mapM scope.mapEntry).outcome = .ok entries)
    (hf : ct.field? key = some f) :
    ∃ node, (scope.mapField f).outcome = .ok node ∧ (key, node) ∈ Entries.ofList entries := by
  obtain ⟨e, -, he⟩ := Report.exists_mem_of_mapM h (ContentType.mem_fields_of_field? hf)
  obtain ⟨-, hn⟩ := mapEntry_eq_ok_iff.1 he
  exact ⟨e.2, hn, Entries.mem_of_lookup ((lookup_ofList_entries h).2 ⟨f, hf, hn⟩)⟩

theorem mem_references_fields (h : scope.settings.flat = false) {ct : ContentType}
    {entries : List (String × Node)} (he : (ct.fields.mapM scope.mapEntry).outcome = .ok entries) :
    id ∈ (Node.record entries scope.settings.objectPolicy).contentTypeReferences ↔
      ct.Reaches scope.known id := by
  rw [Node.mem_contentTypeReferences_record]
  constructor
  · rintro ⟨e, hm, hid⟩
    have hl := (Entries.mem_iff_lookup (Entries.nodup_keys_ofList _)).1 hm
    obtain ⟨f, hf, hn⟩ := (lookup_ofList_entries he).1 hl
    obtain ⟨ht, hk⟩ := (mem_references_mapField h hn).1 hid
    exact ⟨hk, e.1, f, hf, ht⟩
  · rintro ⟨hk, key, f, hf, ht⟩
    obtain ⟨node, hn, hm⟩ := exists_mem_entries he hf
    exact ⟨(key, node), hm, (mem_references_mapField h hn).2 ⟨ht, hk⟩⟩

theorem contentTypeReferences_discriminant (id : String) :
    (discriminant id).contentTypeReferences = [] := rfl

/-- The node of a content type refers to what its fields lead to. -/
theorem mem_references_mapContentType (h : scope.settings.flat = false) {ct : ContentType}
    (ho : (scope.mapContentType ct).outcome = .ok node) :
    id ∈ node.contentTypeReferences ↔ ct.Reaches scope.known id := by
  obtain ⟨entries, he, rfl⟩ := Report.outcome_map_eq_ok.1 (mapContentType_eq ct ▸ ho)
  rw [← mem_references_fields h he, Node.mem_contentTypeReferences_record,
    Entries.ofList_eq_self (by simp)]
  simp [contentTypeReferences_discriminant]

end Scope

end ContentSchema
