import ContentSchema.Graph.Field
import ContentSchema.Proofs.Report

/-! # Mapped fields

What the mapping of a descriptor comes to: links to known content types, basic nodes, and lists of
these. Only links depend on the other content types.
-/

namespace ContentSchema

/-- A node that the mapping of a field gives without a look at other content types. -/
inductive Node.Basic : Node → Prop
  | plain (p : Primitive) : Basic (.plain p)
  | builtin {b : Builtin} (h : b ∈ Builtin.all) : Basic b.node
  | any : Basic .any

namespace Scope

variable {scope : Scope} {field : String} {d : Descriptor} {items : List Descriptor} {node : Node}

theorem outcome_unsupported {kind : String}
    (h : (scope.unsupported field kind).outcome = .ok node) : node = .any := by
  unfold unsupported at h
  split at h
  · cases h
  · exact (Except.ok.inj h).symm
  · exact (Except.ok.inj h).symm

theorem mapSingle_of_linksTo (h : d.linksTo "Entry") :
    scope.mapSingle field d items = scope.entryLink field (d.linkTargets items) := by
  obtain ⟨kind, linkType, validations⟩ := d
  simp only [Descriptor.linksTo, Bool.and_eq_true, beq_iff_eq] at h
  obtain ⟨rfl, rfl⟩ := h
  rfl

theorem basic_of_mapSingle (h : ¬ d.linksTo "Entry")
    (ho : (scope.mapSingle field d items).outcome = .ok node) : node.Basic := by
  have unsupported {kind : String} (hu : (scope.unsupported field kind).outcome = .ok node) :
      node.Basic := outcome_unsupported hu ▸ .any
  unfold mapSingle at ho
  split at ho
  case h_9 =>
    split at ho
    · obtain rfl := Except.ok.inj ho
      split
      · exact .builtin (by simp [Builtin.all])
      · exact .builtin (by simp [Builtin.all])
    · next hl => exact absurd (by simp_all [Descriptor.linksTo]) h
    · exact unsupported ho
    · exact unsupported ho
  case h_10 => exact unsupported ho
  all_goals obtain rfl := Except.ok.inj ho
  · exact .plain _
  · exact .plain _
  · exact .plain _
  · exact .plain _
  · exact .plain _
  · exact .plain _
  · exact .builtin (by simp [Builtin.all])
  · exact .builtin (by simp [Builtin.all])

theorem mapSingle_congr {scope' : Scope} (h : ¬ d.linksTo "Entry")
    (hu : scope.settings.unknown = scope'.settings.unknown)
    (hc : scope.contentType = scope'.contentType) :
    scope.mapSingle field d items = scope'.mapSingle field d items := by
  have unsupported (kind : String) :
      scope.unsupported field kind = scope'.unsupported field kind := by
    simp only [Scope.unsupported, hu, hc]
  unfold mapSingle
  split
  case h_9 =>
    split
    · rfl
    · exact absurd (by simp_all [Descriptor.linksTo]) h
    · exact unsupported _
    · exact unsupported _
  case h_10 => exact unsupported _
  all_goals rfl

def copies (scope : Scope) : Option (List (String × Node)) :=
  if scope.settings.flat then some scope.produced else none

theorem entryLink_eq (targets : List String) :
    scope.entryLink field targets =
      ⟨(targets.filter (· ∉ scope.known)).map (.unknownTarget scope.contentType field),
        .ok (Node.link (targets.filter (· ∈ scope.known)) scope.copies)⟩ := by
  have hc : scope.known.contains = fun t => decide (t ∈ scope.known) := by
    funext t
    simp
  simp [entryLink, List.partition_eq_filter_filter, copies, hc, Function.comp_def]

theorem mapKind_of_ne (h : d.kind ≠ "Array") :
    scope.mapKind field d items = scope.mapSingle field d items := by
  cases items with
  | nil => rfl
  | cons item inner => rw [mapKind, if_neg h]

theorem mapKind_array {item : Descriptor} {inner : List Descriptor} (h : d.kind = "Array") :
    scope.mapKind field d (item :: inner) =
      Node.listed <$>
        if d.isEntryLink (item :: inner) then
          scope.entryLink field (d.linkTargets (item :: inner))
        else scope.mapKind (field ++ "Item") item inner := by
  rw [mapKind, if_pos h]
  split <;> rfl

/-- What holds of the nodes of basic kinds and of links, and is kept by lists, holds of every node
that a descriptor is mapped to. -/
theorem mapKind_induct {P : Node → Prop} (basic : ∀ n : Node, n.Basic → P n)
    (link : ∀ targets, (∀ t ∈ targets, t ∈ scope.known) → P (Node.link targets scope.copies))
    (listed : ∀ n : Node, P n → P n.listed)
    (h : (scope.mapKind field d items).outcome = .ok node) : P node := by
  have entry {field : String} {targets : List String} {node : Node}
      (h : (scope.entryLink field targets).outcome = .ok node) : P node := by
    rw [entryLink_eq] at h
    obtain rfl := Except.ok.inj h
    exact link _ (by simp)
  have single {field : String} {d : Descriptor} {items : List Descriptor} {node : Node}
      (h : (scope.mapSingle field d items).outcome = .ok node) : P node := by
    by_cases hd : d.linksTo "Entry"
    · exact entry (mapSingle_of_linksTo hd ▸ h)
    · exact basic node (basic_of_mapSingle hd h)
  induction items generalizing field d node with
  | nil => exact single h
  | cons item inner ih =>
    by_cases hd : d.kind = "Array"
    · rw [mapKind_array hd] at h
      obtain ⟨element, he, rfl⟩ := Report.outcome_map_eq_ok.1 h
      refine listed element ?_
      split at he
      · exact entry he
      · exact ih he
    · exact single (mapKind_of_ne hd ▸ h)

section

variable {scope' : Scope} {f : Node → Node}

/-- Two mappings whose links differ by `f` differ by `f` throughout, if `f` leaves basic nodes alone
and can be put off until after a list is made. -/
theorem mapKind_map (hu : scope.settings.unknown = scope'.settings.unknown)
    (hc : scope.contentType = scope'.contentType) (basic : ∀ n : Node, n.Basic → f n = n)
    (link : ∀ field targets,
      scope'.entryLink field targets = f <$> scope.entryLink field targets)
    (listed : ∀ n : Node, f n.listed = (f n).listed) :
    scope'.mapKind field d items = f <$> scope.mapKind field d items := by
  have single {field : String} {d : Descriptor} {items : List Descriptor} :
      scope'.mapSingle field d items = f <$> scope.mapSingle field d items := by
    by_cases hd : d.linksTo "Entry"
    · rw [mapSingle_of_linksTo hd, mapSingle_of_linksTo hd, link]
    · rw [mapSingle_congr hd hu.symm hc.symm,
        Report.map_eq_self fun n hn => basic n (basic_of_mapSingle hd hn)]
  induction items generalizing field d with
  | nil => exact single
  | cons item inner ih =>
    by_cases hd : d.kind = "Array"
    · rw [mapKind_array hd, mapKind_array hd]
      split
      · simp only [link, Functor.map_map, listed]
      · simp only [ih, Functor.map_map, listed]
    · rw [mapKind_of_ne hd, mapKind_of_ne hd, single]

theorem mapField_eq (field : Field) :
    scope.mapField field = (fun node : Node => if field.required then node else node.wrapped) <$>
      scope.mapKind field.id field.holds field.items := rfl

theorem mapEntry_eq (field : Field) :
    scope.mapEntry field = (fun node => (field.id, node)) <$> scope.mapField field := rfl

theorem mapEntry_eq_ok_iff {field : Field} {e : String × Node} :
    (scope.mapEntry field).outcome = .ok e ↔
      e.1 = field.id ∧ (scope.mapField field).outcome = .ok e.2 := by
  rw [mapEntry_eq, Report.outcome_map_eq_ok]
  constructor
  · rintro ⟨node, hn, rfl⟩
    exact ⟨rfl, hn⟩
  · rintro ⟨hk, hn⟩
    exact ⟨e.2, hn, Prod.ext hk.symm rfl⟩

theorem mapContentType_eq (ct : ContentType) :
    scope.mapContentType ct = (fun entries => Node.record
        [("sys", discriminant ct.id), ("fields", .record entries scope.settings.objectPolicy)]
        scope.settings.objectPolicy) <$> ct.fields.mapM scope.mapEntry := rfl

theorem mapEntries_map (hu : scope.settings.unknown = scope'.settings.unknown)
    (hc : scope.contentType = scope'.contentType) (basic : ∀ n : Node, n.Basic → f n = n)
    (link : ∀ field targets,
      scope'.entryLink field targets = f <$> scope.entryLink field targets)
    (listed : ∀ n : Node, f n.listed = (f n).listed)
    (wrapped : ∀ n : Node, f n.wrapped = (f n).wrapped) (fields : List Field) :
    fields.mapM scope'.mapEntry =
      List.map (fun e => (e.1, f e.2)) <$> fields.mapM scope.mapEntry := by
  have entry (field : Field) :
      scope'.mapEntry field = (fun e => (e.1, f e.2)) <$> scope.mapEntry field := by
    rw [mapEntry_eq, mapEntry_eq, mapField_eq, mapField_eq, mapKind_map hu hc basic link listed]
    simp only [Functor.map_map]
    congr 1
    funext n
    split
    · rfl
    · rw [wrapped]
  rw [← Report.mapM_map]
  congr 1
  exact funext entry

theorem mapContentType_congr (hu : scope.settings.unknown = scope'.settings.unknown)
    (hp : scope.settings.objectPolicy = scope'.settings.objectPolicy)
    (hc : scope.contentType = scope'.contentType)
    (hl : ∀ field targets, scope'.entryLink field targets = scope.entryLink field targets)
    (ct : ContentType) : scope'.mapContentType ct = scope.mapContentType ct := by
  have he : ct.fields.mapM scope'.mapEntry =
      List.map (fun e => (e.1, id e.2)) <$> ct.fields.mapM scope.mapEntry :=
    mapEntries_map hu hc (fun _ _ => rfl) (fun field targets => by rw [id_map', hl])
      (fun _ => rfl) (fun _ => rfl) ct.fields
  rw [mapContentType_eq, mapContentType_eq, he, hp, Functor.map_map]
  simp only [id_eq, List.map_id']

end

end Scope

end ContentSchema
