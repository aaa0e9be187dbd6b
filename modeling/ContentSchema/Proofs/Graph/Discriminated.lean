import ContentSchema.Proofs.Graph.Coverage
import ContentSchema.Proofs.Graph.Produced
import ContentSchema.Proofs.Validator.Acceptance

/-! # Entries told apart

What a schema accepts names the content type of the schema, so that no two schemas accept the same
value. A link to known content types therefore accepts a value by the schema that the value names.
-/

namespace ContentSchema

open Json

def Json.Value.path? (v : Value) : List String → Option Value
  | [] => some v
  | key :: rest => (v.member? key).bind (·.path? rest)

/-- What an entry names as its content type. -/
def Json.Value.contentType? (v : Value) : Option Value :=
  v.path? ["sys", "contentType", "sys", "id"]

def Graph.Accepts (graph : Graph) (id : String) (v : Value) : Prop :=
  ∃ node, graph.schemas.lookup id = some node ∧ Node.Accepts graph.schemas node (some v)

/-- What a field of such links holds: one of them, or a list. -/
def Field.held (f : Field) (link : Node) : Node :=
  if f.holds.kind = "Array" then link.listed else link

def Field.around (f : Field) (link : Node) : Node :=
  if f.required then f.held link else (f.held link).wrapped

def Json.Value.items? : Value → Option (List Value)
  | .list items => some items
  | _ => none

def Field.elements (f : Field) (v : Value) : Option (List Value) :=
  if f.holds.kind = "Array" then v.items? else some [v]

def Node.field? (node : Node) (id : String) : Option Node :=
  node.shape?.bind fun parts => (parts.lookup "fields").bind fun fields =>
    fields.shape?.bind (·.lookup id)

namespace Node

variable {schemas : List (String × Node)} {id : String} {v : Value}

theorem accepts_discriminant {v : Option Value} :
    Accepts schemas (Scope.discriminant id) v ↔
      v.bind (·.path? ["contentType", "sys", "id"]) = some (.str id) := by
  have hid : ¬ Accepts schemas (literal id) none := by simp [accepts_literal]
  have hsys : ¬ Accepts schemas (.record [("id", literal id)] .strip) none := by
    simpa [accepts_record_singleton hid] using hid
  have htype : ¬ Accepts schemas (.record [("sys", .record [("id", literal id)] .strip)] .strip)
      none := by simpa [accepts_record_singleton hsys] using hsys
  rw [Scope.discriminant, accepts_record_singleton htype, accepts_record_singleton hsys,
    accepts_record_singleton hid, accepts_literal]
  cases v with
  | none => rfl
  | some v => simp [Value.path?, Option.bind_assoc]

theorem accepts_link {copies : Option (List (String × Node))} {targets : List String}
    (hn : targets ≠ []) (ht : ∀ t ∈ targets, ∃ target, schemas.lookup t = some target ∧
      ∀ made ∈ copies, made.lookup t = some target) :
    Accepts schemas (link targets copies) (some v) ↔
      ∃ t ∈ targets, ∃ target, schemas.lookup t = some target ∧
        Accepts schemas target (some v) := by
  have single {t : String} (hm : t ∈ targets) :
      Accepts schemas (linkTarget copies t) (some v) ↔
        ∃ target, schemas.lookup t = some target ∧ Accepts schemas target (some v) := by
    obtain ⟨target, hl, hc⟩ := ht t hm
    simp only [hl, Option.some.injEq, exists_eq_left']
    cases copies with
    | none => exact accepts_reference rfl hl
    | some made =>
      rw [linkTarget, hc made rfl]
      rfl
  rcases targets with _ | ⟨a, _ | ⟨b, rest⟩⟩
  · exact absurd rfl hn
  · rw [link, accepts_withLinks, single List.mem_cons_self]
    simp
  · rw [link_cons_cons, accepts_withLinks, accepts_union]
    constructor
    · rintro ⟨branch, hb, hv⟩
      obtain ⟨t, hm, rfl⟩ := List.mem_map.1 hb
      exact ⟨t, hm, (single hm).1 hv⟩
    · rintro ⟨t, hm, hv⟩
      exact ⟨_, List.mem_map_of_mem hm, (single hm).2 hv⟩

theorem accepts_held {f : Field} {link : Node} :
    Accepts schemas (f.held link) (some v) ↔
      ∃ items, f.elements v = some items ∧ ∀ item ∈ items, Accepts schemas link (some item) := by
  rw [Field.held, Field.elements]
  split
  · rw [accepts_listed]
    cases v <;> simp only [Value.items?, Option.some.injEq, reduceCtorEq, Value.list.injEq]
  · simp

theorem accepts_around {f : Field} {link : Node} :
    Accepts schemas (f.around link) (some v) ↔
      ∃ items, f.elements v = some items ∧ ∀ item ∈ items, Accepts schemas link (some item) := by
  rw [← accepts_held, Field.around]
  split
  · rfl
  · rw [accepts_wrapped]
    simp

end Node

namespace Scope

variable {scope : Scope} {ct : ContentType} {node : Node} {schemas : List (String × Node)}

/-- What the node of a content type accepts names the content type. -/
theorem contentType?_of_accepts (h : (scope.mapContentType ct).outcome = .ok node) {v : Value}
    (hv : Node.Accepts schemas node (some v)) : v.contentType? = some (.str ct.id) := by
  obtain ⟨entries, -, rfl⟩ := exists_of_mapContentType h
  obtain ⟨members, hm, -, hs⟩ := Node.accepts_object.1 hv
  obtain rfl := Option.some.inj hm
  exact Node.accepts_discriminant.1 (hs _ List.mem_cons_self)

/-- The node of a field is that of the last field of its id. -/
theorem field?_mapContentType (h : (scope.mapContentType ct).outcome = .ok node) {f : Field}
    {inner : Node} (hf : ct.field? f.id = some f) (hi : (scope.mapField f).outcome = .ok inner) :
    node.field? f.id = some inner := by
  obtain ⟨entries, he, rfl⟩ := exists_of_mapContentType h
  exact (lookup_ofList_entries he).2 ⟨f, hf, hi⟩

theorem mapField_of_isEntryLink {f : Field} (h : f.isEntryLink) :
    (scope.mapField f).outcome = .ok (f.around (Node.link (f.knownTargets scope.known)
      scope.copies)) := by
  rw [mapField_eq, mapKind_of_isEntryLink h, entryLink_eq]
  rfl

end Scope

theorem ContentModel.contentType?_of_accepts {model : ContentModel} {settings : Settings}
    {graph : Graph} (h : model.graph settings = .ok graph) {id : String} {v : Value}
    (hv : graph.Accepts id v) : v.contentType? = some (.str id) := by
  obtain ⟨node, hl, hv⟩ := hv
  have hid : id ∈ model.ids :=
    (mem_keys_graph h).1 (Entries.lookup_isSome_iff.1 (by rw [hl]; rfl))
  obtain ⟨ct, hct, rfl⟩ := List.mem_map.1 hid
  obtain ⟨produced, made, hm⟩ := exists_mappedWith h hct
  obtain rfl := Option.some.inj (hm.found.symm.trans hl)
  exact Scope.contentType?_of_accepts hm.mapped hv

/-- A schema accepts only what names its content type. A link to known content types accepts what
one of their schemas accepts, which is the one of the content type that the value names, and no
other of them accepts the value. -/
theorem links_unambiguous {model : ContentModel} {settings : Settings} {graph : Graph}
    (h : model.graph settings = .ok graph) :
    (∀ id v, graph.Accepts id v → v.contentType? = some (.str id)) ∧
    ∀ ct ∈ model.contentTypes, ∃ produced node, model.MappedWith settings graph ct produced node ∧
      ∀ f ∈ ct.fields, f.knownTargets model.ids ≠ [] → ∃ link,
        (Scope.mapField ⟨settings, model.ids, produced, ct.id⟩ f).outcome = .ok (f.around link) ∧
        (ct.field? f.id = some f → node.field? f.id = some (f.around link)) ∧
        (∀ v, Node.Accepts graph.schemas (f.around link) (some v) ↔
          ∃ items, f.elements v = some items ∧
            ∀ item ∈ items, Node.Accepts graph.schemas link (some item)) ∧
        ∀ v, Node.Accepts graph.schemas link (some v) ↔
          ∃ t ∈ f.knownTargets model.ids, v.contentType? = some (.str t) ∧ graph.Accepts t v ∧
            ∀ t' ∈ f.knownTargets model.ids, graph.Accepts t' v → t' = t := by
  have named (id : String) (v : Value) (hv : graph.Accepts id v) :
      v.contentType? = some (.str id) := ContentModel.contentType?_of_accepts h hv
  refine ⟨named, ?_⟩
  intro ct hct
  obtain ⟨produced, node, hm⟩ := ContentModel.exists_mappedWith h hct
  refine ⟨produced, node, hm, ?_⟩
  intro f hf ht
  have hlink : f.isEntryLink := by
    refine Field.isEntryLink_of_linkTargets ?_
    rintro he
    exact ht (by rw [Field.knownTargets, he, List.filter_nil])
  have hfield : (Scope.mapField ⟨settings, model.ids, produced, ct.id⟩ f).outcome = _ :=
    Scope.mapField_of_isEntryLink hlink
  refine ⟨_, hfield, ?_, ?_, ?_⟩
  · intro hlast
    exact Scope.field?_mapContentType hm.mapped hlast hfield
  · intro v
    exact Node.accepts_around
  · intro v
    rw [Node.accepts_link ht fun t hmem => ?_]
    · constructor
      · rintro ⟨t, hmem, hv⟩
        have hn := named t v hv
        refine ⟨t, hmem, hn, hv, ?_⟩
        -- the value names whatever accepts it
        intro t' _ hv'
        have hn' := named t' v hv'
        rw [hn] at hn'
        exact (Value.str.inj (Option.some.inj hn')).symm
      · rintro ⟨t, hmem, -, hv, -⟩
        exact ⟨t, hmem, hv⟩
    · obtain ⟨hd, hk⟩ := ContentType.mem_dependencies_of_mem_knownTargets hf hmem
      exact hm.exists_target h hd hk

def bare (id : String) : ContentType := ⟨id, "", none, none, []⟩

def bareEntry (id : String) : Value :=
  .object [
    ("sys", .object [("contentType", .object [("sys", .object [("id", .str id)])])]),
    ("fields", .object [])]

theorem accepts_bareEntry {scope : Scope} {id : String} {node : Node}
    {schemas : List (String × Node)} (h : (scope.mapContentType (bare id)).outcome = .ok node) :
    Node.Accepts schemas node (some (bareEntry id)) := by
  obtain ⟨entries, he, rfl⟩ := Scope.exists_of_mapContentType h
  obtain rfl : [] = entries := Except.ok.inj he
  refine Node.accepts_object.2 ⟨_, rfl, ?_, ?_⟩
  · intro _ key hk
    exact hk
  · have hfields : Node.Accepts schemas
        (.object (Entries.ofList []) scope.settings.objectPolicy .empty) (some (.object [])) :=
      Node.accepts_object.2 ⟨[], rfl, by simp, by simp [Entries.ofList]⟩
    rw [List.forall_mem_cons, List.forall_mem_singleton]
    exact ⟨Node.accepts_discriminant.2 rfl, hfields⟩

/-- A list of links to two content types holds entries of both, each told from the other. -/
theorem links_unambiguous_bare :
    ∃ graph node list,
      (⟨[linking "a" 1 ["b", "c"], bare "b", bare "c"]⟩ : ContentModel).graph flatSettings =
        .ok graph ∧
      graph.schemas.lookup "a" = some node ∧ node.field? "next" = some list ∧
      Node.Accepts graph.schemas list (some (.list [bareEntry "b", bareEntry "c"])) ∧
      ¬ graph.Accepts "b" (bareEntry "c") ∧ ¬ graph.Accepts "c" (bareEntry "b") := by
  obtain ⟨graph, h⟩ : ∃ graph,
      (⟨[linking "a" 1 ["b", "c"], bare "b", bare "c"]⟩ : ContentModel).graph flatSettings =
        .ok graph := by with_unfolding_all exact ⟨_, rfl⟩
  obtain ⟨named, links⟩ := links_unambiguous h
  obtain ⟨produced, node, hm, hfields⟩ := links (linking "a" 1 ["b", "c"]) List.mem_cons_self
  obtain ⟨link, -, hnode, hlist, hlink⟩ := hfields _ List.mem_cons_self (by decide)
  have accepted (id : String) (hct : bare id ∈ [linking "a" 1 ["b", "c"], bare "b", bare "c"]) :
      graph.Accepts id (bareEntry id) := by
    obtain ⟨made, target, ht⟩ := ContentModel.exists_mappedWith h hct
    exact ⟨target, ht.found, accepts_bareEntry ht.mapped⟩
  have hb := accepted "b" (by simp)
  have hc := accepted "c" (by simp)
  have other {id id' : String} (hne : id ≠ id') : ¬ graph.Accepts id (bareEntry id') := by
    intro ha
    have hid := named id _ ha
    exact hne (by simpa [bareEntry, Value.contentType?, Value.path?, Value.member?] using hid.symm)
  refine ⟨graph, node, _, h, hm.found, hnode rfl, ?_, other (by decide), other (by decide)⟩
  refine (hlist _).2 ⟨_, rfl, ?_⟩
  rw [List.forall_mem_cons, List.forall_mem_singleton]
  constructor
  · refine (hlink _).2 ⟨"b", by decide, rfl, hb, ?_⟩
    intro id hid ha
    by_contra hne
    exact other hne ha
  · refine (hlink _).2 ⟨"c", by decide, rfl, hc, ?_⟩
    intro id hid ha
    by_contra hne
    exact other hne ha

end ContentSchema
