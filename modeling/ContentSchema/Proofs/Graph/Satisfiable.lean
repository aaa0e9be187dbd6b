import ContentSchema.Proofs.Graph.Discriminated

/-! # Satisfiable schemas

Every schema of a graph whose content types can be put in order accepts an entry that has all fields
of its content type. The entry is put together along that order.
-/

namespace ContentSchema

open Json

/-- A value that a document without fractions can hold: whole numbers have 64 bits, signed or
unsigned, and no object has a key twice. -/
inductive Json.Value.Exact : Value → Prop
  | null : Exact null
  | bool (b : Bool) : Exact (bool b)
  | num {i : Int} (hl : (-i).toNat ≤ Nat.pow 2 63) (hu : i.toNat < Nat.pow 2 64) :
    Exact (num (.whole i))
  | str (s : String) : Exact (str s)
  | list {items : List Value} (h : ∀ v ∈ items, Exact v) : Exact (list items)
  | object {members : List (String × Value)} (hk : (Entries.keys members).Nodup)
      (h : ∀ e ∈ members, Exact e.2) : Exact (object members)

namespace Node

/-- There is a value that the node accepts. -/
def Satisfiable (schemas : List (String × Node)) (node : Node) : Prop :=
  ∃ v : Value, v.Exact ∧ Accepts schemas node (some v)

variable {schemas : List (String × Node)} {node : Node}

theorem satisfiable_any : Satisfiable schemas any := ⟨.null, .null, accepts_any _⟩

theorem satisfiable_plain (p : Primitive) : Satisfiable schemas (plain p) := by
  cases p with
  | string => exact ⟨.str "", .str _, accepts_plain.2 rfl⟩
  | dateTime => exact ⟨.str "T", .str _, accepts_plain.2 (by decide)⟩
  | number => exact ⟨.num (.whole 0), .num (by decide) (by decide), accepts_plain.2 rfl⟩
  | integer => exact ⟨.num (.whole 0), .num (by decide) (by decide), accepts_plain.2 rfl⟩
  | boolean => exact ⟨.bool true, .bool _, accepts_plain.2 rfl⟩
  | literal value => exact ⟨.str value, .str _, accepts_literal.2 rfl⟩

theorem satisfiable_listed : Satisfiable schemas node.listed :=
  ⟨.list [], .list (by simp), accepts_listed.2 ⟨[], rfl, by simp⟩⟩

theorem satisfiable_wrapped (h : Satisfiable schemas node) : Satisfiable schemas node.wrapped := by
  obtain ⟨v, hv, ha⟩ := h
  refine ⟨v, hv, accepts_wrapped.2 ?_⟩
  rintro _ ⟨⟩
  exact ha

theorem exists_members {shape : List (String × Node)} (hn : (Entries.keys shape).Nodup)
    (h : ∀ e ∈ shape, Satisfiable schemas e.2) :
    ∃ members : List (String × Value), Entries.keys members = Entries.keys shape ∧
      (∀ m ∈ members, m.2.Exact) ∧
      ∀ e ∈ shape, Accepts schemas e.2 (members.lookup e.1) := by
  induction shape with
  | nil => exact ⟨[], rfl, by simp, by simp⟩
  | cons e rest ih =>
    rw [List.forall_mem_cons] at h
    rw [Entries.keys_cons, List.nodup_cons] at hn
    obtain ⟨members, hk, hx, hm⟩ := ih hn.2 h.2
    obtain ⟨v, hv, ha⟩ := h.1
    refine ⟨(e.1, v) :: members, by rw [Entries.keys_cons, Entries.keys_cons, hk], ?_, ?_⟩
    · exact List.forall_mem_cons.2 ⟨hv, hx⟩
    · refine List.forall_mem_cons.2 ⟨?_, ?_⟩
      · rwa [Entries.lookup_cons, if_pos rfl]
      · intro d hd
        have hkey : d.1 ∈ Entries.keys rest := List.mem_map_of_mem hd
        have hne : d.1 ≠ e.1 := fun he => hn.1 (he ▸ hkey)
        rw [Entries.lookup_cons, if_neg hne]
        exact hm d hd

theorem exists_accepted_members {shape : List (String × Node)} (policy : ObjectPolicy)
    (hn : (Entries.keys shape).Nodup) (h : ∀ e ∈ shape, Satisfiable schemas e.2) :
    ∃ members : List (String × Value), Entries.keys members = Entries.keys shape ∧
      (Value.object members).Exact ∧
      Accepts schemas (.object shape policy .empty) (some (.object members)) := by
  obtain ⟨members, hk, hx, hm⟩ := exists_members hn h
  refine ⟨members, hk, .object (hk ▸ hn) hx, accepts_object.2 ⟨members, rfl, ?_, hm⟩⟩
  intro _ key hkey
  exact hk ▸ hkey

theorem satisfiable_record {entries : List (String × Node)} {policy : ObjectPolicy}
    (h : ∀ e ∈ entries, Satisfiable schemas e.2) :
    Satisfiable schemas (record entries policy) := by
  obtain ⟨members, -, hx, ha⟩ := exists_accepted_members policy (Entries.nodup_keys_ofList entries)
    fun e he => h e (Entries.mem_of_mem_ofList he)
  exact ⟨_, hx, ha⟩

theorem satisfiable_discriminant (id : String) :
    Satisfiable schemas (Scope.discriminant id) := by
  have within {key : String} {node : Node} (h : Satisfiable schemas node) :
      Satisfiable schemas (.record [(key, node)] .strip) :=
    satisfiable_record (List.forall_mem_singleton.2 h)
  exact within (within (within (satisfiable_plain _)))

theorem satisfiable_openLink : Satisfiable schemas openLink := by
  refine satisfiable_record (List.forall_mem_singleton.2 (satisfiable_record ?_))
  simp only [List.forall_mem_cons]
  exact ⟨satisfiable_plain _, satisfiable_plain _, satisfiable_plain _, by simp⟩

theorem satisfiable_of_builtin {b : Builtin}
    (hr : b.node.tags.reference = some ⟨b.name, .builtin⟩) (hl : Builtin.lookup b.name = some b)
    (h : Satisfiable schemas (b.node.withTags .empty)) : Satisfiable schemas b.node := by
  obtain ⟨v, hv, ha⟩ := h
  rw [accepts_of_no_reference (by rw [tags_withTags]; rfl), admits_withTags] at ha
  exact ⟨v, hv, (accepts_builtin hr hl).2 ha⟩

theorem satisfiable_builtin {b : Builtin} (h : b ∈ Builtin.all) :
    Satisfiable schemas b.node := by
  have plains (entries : List (String × Primitive)) :
      Satisfiable schemas (Builtin.part (entries.map fun e => (e.1, plain e.2))) := by
    refine satisfiable_record (List.forall_mem_map.2 ?_)
    intro e _
    exact satisfiable_plain e.2
  have media {name : String} {details : List (String × Node)}
      (hl : Builtin.lookup name = some (Builtin.media name details))
      (hd : ∀ e ∈ details, Satisfiable schemas e.2) :
      Satisfiable schemas (Builtin.media name details).node := by
    refine satisfiable_of_builtin rfl hl (satisfiable_record ?_)
    have hfile : Satisfiable schemas (Builtin.file details) := by
      refine satisfiable_record ?_
      simp only [List.forall_mem_cons]
      exact ⟨satisfiable_plain _, satisfiable_record hd, satisfiable_plain _, satisfiable_plain _,
        by simp⟩
    have hfields : Satisfiable schemas (Builtin.part [("title", Builtin.text),
        ("description", Builtin.text.wrapped), ("file", Builtin.file details)]) := by
      refine satisfiable_record ?_
      simp only [List.forall_mem_cons]
      exact ⟨satisfiable_plain _, satisfiable_wrapped (satisfiable_plain _), hfile, by simp⟩
    simp only [List.forall_mem_cons]
    exact ⟨plains [("type", .literal "Asset")], hfields, by simp⟩
  rcases Builtin.mem_all_iff.1 h with rfl | rfl | rfl | rfl
  · exact satisfiable_of_builtin rfl rfl (plains [("lat", .number), ("lon", .number)])
  · refine media rfl ?_
    exact List.forall_mem_singleton.2 (satisfiable_plain _)
  · refine media rfl ?_
    simp only [List.forall_mem_cons]
    exact ⟨satisfiable_plain _, plains [("width", .number), ("height", .number)], by simp⟩
  · exact satisfiable_of_builtin rfl rfl satisfiable_any

theorem satisfiable_of_basic (h : node.Basic) : Satisfiable schemas node := by
  cases h with
  | plain p => exact satisfiable_plain p
  | builtin hb => exact satisfiable_builtin hb
  | any => exact satisfiable_any

theorem satisfiable_link {copies : Option (List (String × Node))} {targets : List String}
    (ht : ∀ t ∈ targets, ∃ target, schemas.lookup t = some target ∧
      ∀ made ∈ copies, made.lookup t = some target)
    (hs : ∀ t ∈ targets, ∀ target, schemas.lookup t = some target → Satisfiable schemas target) :
    Satisfiable schemas (link targets copies) := by
  cases targets with
  | nil => exact satisfiable_openLink
  | cons t rest =>
    obtain ⟨target, hl, -⟩ := ht t List.mem_cons_self
    obtain ⟨v, hv, ha⟩ := hs t List.mem_cons_self target hl
    exact ⟨v, hv, (accepts_link (List.cons_ne_nil t rest) ht).2
      ⟨t, List.mem_cons_self, target, hl, ha⟩⟩

theorem satisfiable_around {f : Field} {link : Node} (h : Satisfiable schemas link) :
    Satisfiable schemas (f.around link) := by
  have held : Satisfiable schemas (f.held link) := by
    unfold Field.held
    split
    · exact satisfiable_listed
    · exact h
  unfold Field.around
  split
  · exact held
  · exact satisfiable_wrapped held

end Node

/-- What passes on to a content type from those that it depends on holds of all content types that
are in order. -/
theorem ContentType.Ordered.induct {known : List String} {types : List ContentType}
    {P : ContentType → Prop} (h : Ordered known types)
    (step : ∀ ct ∈ types, (∀ t ∈ ct.dependencies, t ∈ known → ∃ dep ∈ types, dep.id = t ∧ P dep) →
      P ct) : ∀ ct ∈ types, P ct := by
  induction h with
  | nil => simp
  | @snoc before last _ _ hd ih =>
    rw [List.forall_mem_append] at step
    have hbefore : ∀ ct ∈ before, P ct := by
      refine ih fun ct hct hdep => step.1 ct hct fun t ht hk => ?_
      obtain ⟨dep, hm, hid, hp⟩ := hdep t ht hk
      exact ⟨dep, List.mem_append_left _ hm, hid, hp⟩
    refine List.forall_mem_append.2 ⟨hbefore, List.forall_mem_singleton.2 ?_⟩
    refine step.2 last (List.mem_singleton_self last) fun t ht hk => ?_
    obtain ⟨dep, hm, hid⟩ := List.mem_map.1 (hd t ht hk)
    exact ⟨dep, List.mem_append_left _ hm, hid, hbefore dep hm⟩

namespace Scope

variable {scope : Scope} {field : String} {d : Descriptor} {items : List Descriptor} {node : Node}

theorem basic_or_listed_of_mapKind (h : ¬ d.isEntryLink items)
    (ho : (scope.mapKind field d items).outcome = .ok node) :
    node.Basic ∨ ∃ element : Node, node = element.listed := by
  have hd : ¬ d.linksTo "Entry" := fun hd => h (by simp [Descriptor.isEntryLink, hd])
  by_cases hk : d.kind = "Array"
  · cases items with
    | nil => exact .inl (basic_of_mapSingle hd ho)
    | cons item inner =>
      rw [mapKind_array hk] at ho
      obtain ⟨element, -, rfl⟩ := Report.outcome_map_eq_ok.1 ho
      exact .inr ⟨element, rfl⟩
  · exact .inl (basic_of_mapSingle hd (mapKind_of_ne hk ▸ ho))

end Scope

namespace ContentModel

variable {model : ContentModel} {settings : Settings} {graph : Graph} {ct : ContentType}
  {produced : List (String × Node)} {node : Node}

open Node (Satisfiable)

/-- A field can be given a value where the content types can that it depends on. -/
theorem MappedWith.satisfiable_mapField (hm : model.MappedWith settings graph ct produced node)
    (h : model.graph settings = .ok graph)
    (hs : ∀ t ∈ ct.dependencies, t ∈ model.ids → ∀ target, graph.schemas.lookup t = some target →
      Satisfiable graph.schemas target) {f : Field} (hf : f ∈ ct.fields) {inner : Node}
    (ho : (Scope.mapField ⟨settings, model.ids, produced, ct.id⟩ f).outcome = .ok inner) :
    Satisfiable graph.schemas inner := by
  by_cases he : f.isEntryLink
  · obtain rfl := Except.ok.inj ((Scope.mapField_of_isEntryLink he).symm.trans ho)
    refine Node.satisfiable_around (Node.satisfiable_link ?_ ?_)
    · intro t ht
      obtain ⟨hd, hk⟩ := ContentType.mem_dependencies_of_mem_knownTargets hf ht
      exact hm.exists_target h hd hk
    · intro t ht
      obtain ⟨hd, hk⟩ := ContentType.mem_dependencies_of_mem_knownTargets hf ht
      exact hs t hd hk
  · obtain ⟨held, hheld, rfl⟩ := Report.outcome_map_eq_ok.1 (Scope.mapField_eq f ▸ ho)
    have hsat : Satisfiable graph.schemas held := by
      rcases Scope.basic_or_listed_of_mapKind he hheld with hb | ⟨element, rfl⟩
      · exact Node.satisfiable_of_basic hb
      · exact Node.satisfiable_listed
    split
    · exact hsat
    · exact Node.satisfiable_wrapped hsat

theorem MappedWith.exists_entry (hm : model.MappedWith settings graph ct produced node)
    (h : model.graph settings = .ok graph)
    (hs : ∀ t ∈ ct.dependencies, t ∈ model.ids → ∀ target, graph.schemas.lookup t = some target →
      Satisfiable graph.schemas target) :
    ∃ v : Value, v.Exact ∧ Node.Accepts graph.schemas node (some v) ∧
      ∀ f ∈ ct.fields, ∃ a, v.path? ["fields", f.id] = some a := by
  obtain ⟨entries, he, rfl⟩ := Scope.exists_of_mapContentType hm.mapped
  have hfields : ∀ e ∈ Entries.ofList entries, Satisfiable graph.schemas e.2 := by
    intro e hmem
    obtain ⟨f, hf, ho⟩ := Report.exists_of_mem_mapM he (Entries.mem_of_mem_ofList hmem)
    exact hm.satisfiable_mapField h hs hf (Scope.mapEntry_eq_ok_iff.1 ho).2
  obtain ⟨members, hk, hx, ha⟩ := Node.exists_accepted_members settings.objectPolicy
    (Entries.nodup_keys_ofList entries) hfields
  obtain ⟨sys, hsx, hsa⟩ : Node.Satisfiable graph.schemas (Scope.discriminant ct.id) :=
    Node.satisfiable_discriminant ct.id
  refine ⟨.object [("sys", sys), ("fields", .object members)], ?_, ?_, ?_⟩
  · refine .object (by simp) ?_
    rw [List.forall_mem_cons, List.forall_mem_singleton]
    exact ⟨hsx, hx⟩
  · refine Node.accepts_object.2 ⟨_, rfl, ?_, ?_⟩
    · intro _ key hkey
      exact hkey
    · rw [List.forall_mem_cons, List.forall_mem_singleton]
      exact ⟨hsa, ha⟩
  · intro f hf
    obtain ⟨e, hmem, ho⟩ := Report.exists_mem_of_mapM he hf
    -- there is a member for each field, required or not
    have hkey : f.id ∈ Entries.keys members := by
      rw [hk, Entries.mem_keys_ofList, ← (Scope.mapEntry_eq_ok_iff.1 ho).1]
      exact List.mem_map_of_mem hmem
    obtain ⟨a, hl⟩ := Option.isSome_iff_exists.1 (Entries.lookup_isSome_iff.2 hkey)
    refine ⟨a, ?_⟩
    simp [Value.path?, Value.member?, Entries.lookup_cons, hl]

end ContentModel

/-- Where the content types can be put in order, each schema accepts an entry that has all fields of
its content type, those that are not required among them. -/
theorem graph_satisfiable {model : ContentModel} {settings : Settings} {graph : Graph}
    {sorted : List ContentType} (h : model.graph settings = .ok graph)
    (ho : ContentType.order model.contentTypes = .ok sorted) :
    ∀ ct ∈ model.contentTypes, ∃ v : Value, v.Exact ∧ graph.Accepts ct.id v ∧
      ∀ f ∈ ct.fields, ∃ a, v.path? ["fields", f.id] = some a := by
  obtain ⟨hn, -⟩ := ContentModel.graph_eq_ok_iff.1 h
  obtain ⟨hordered, hperm⟩ := ContentType.order_ok hn ho
  suffices ∀ ct ∈ sorted, ∃ v : Value, v.Exact ∧ graph.Accepts ct.id v ∧
      ∀ f ∈ ct.fields, ∃ a, v.path? ["fields", f.id] = some a from
    fun ct hct => this ct (hperm.mem_iff.2 hct)
  refine hordered.induct fun ct hct hdeps => ?_
  obtain ⟨produced, node, hm⟩ := ContentModel.exists_mappedWith h (hperm.mem_iff.1 hct)
  obtain ⟨v, hx, ha, hfields⟩ := hm.exists_entry h fun t ht hk target hl => by
    obtain ⟨dep, -, rfl, w, hw, ⟨found, hfound, hv⟩, -⟩ := hdeps t ht hk
    obtain rfl := Option.some.inj (hfound.symm.trans hl)
    exact ⟨w, hw, hv⟩
  exact ⟨v, hx, ⟨node, hm.found, ha⟩, hfields⟩

/-- Lists in lists may lead back to a content type, as they may be empty. -/
theorem graph_satisfiable_linking :
    ∃ graph sorted,
      (⟨[linking "a" 0 ["b", "c"], linking "b" 2 ["a"], bare "c"]⟩ : ContentModel).graph
        linkedSettings = .ok graph ∧
      ContentType.order [linking "a" 0 ["b", "c"], linking "b" 2 ["a"], bare "c"] = .ok sorted ∧
      ∃ v : Value, v.Exact ∧ graph.Accepts "a" v ∧
        ∃ a, v.path? ["fields", "next"] = some a := by
  obtain ⟨graph, h⟩ : ∃ graph,
      (⟨[linking "a" 0 ["b", "c"], linking "b" 2 ["a"], bare "c"]⟩ : ContentModel).graph
        linkedSettings = .ok graph := ⟨_, rfl⟩
  have ho : ContentType.order [linking "a" 0 ["b", "c"], linking "b" 2 ["a"], bare "c"] =
      .ok [linking "b" 2 ["a"], bare "c", linking "a" 0 ["b", "c"]] := by cbv
  obtain ⟨v, hx, ha, hf⟩ := graph_satisfiable h ho _ List.mem_cons_self
  exact ⟨graph, _, h, ho, v, hx, ha, hf _ List.mem_cons_self⟩

end ContentSchema
