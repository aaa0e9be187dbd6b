import ContentSchema.Proofs.Graph.Keyed
import ContentSchema.Proofs.Graph.LinkSets
import ContentSchema.Proofs.Graph.Produced
import ContentSchema.Proofs.Validator.Levels

/-! # Levels of stored graphs

How deep the stored form of a graph nests. Each list in a list adds a level. Flat, what holds a copy
of a schema nests at least four levels deeper than the schema, so that chains of copies go deep.
-/

namespace ContentSchema

open Json

def Graph.levels (graph : Graph) : Nat := (Tree.ofValue graph.toValue).depth

/-- From here, so many steps of `R` can be taken. -/
def Chain {α : Type} (R : α → α → Prop) : Nat → α → Prop
  | 0, _ => True
  | n + 1, a => ∃ b, R a b ∧ Chain R n b

namespace ContentModel

/-- The content type `ct` has links to the content type `dep`, whatever lists are around them. -/
def Leads (model : ContentModel) (ct dep : ContentType) : Prop :=
  dep ∈ model.contentTypes ∧ ct.Reaches model.ids dep.id

/-- The links to `dep` count as a dependency, and so are copied in a flat graph. -/
def Copies (model : ContentModel) (ct dep : ContentType) : Prop :=
  model.Leads ct dep ∧ dep.id ∈ ct.dependencies

end ContentModel

namespace Node

variable {node : Node} {c : Nat}

theorem levels_of_basic (h : node.Basic) : node.levels ≤ 11 := by
  cases h with
  | plain p =>
    refine levels_le_iff.2 ⟨Nat.le_trans (Tags.levels_le _) (by omega), ?_⟩
    cases p <;> exact Nat.le_of_ble_eq_true rfl
  | builtin h => rcases Builtin.mem_all_iff.1 h with rfl | rfl | rfl | rfl <;> decide
  | any => decide

theorem levels_discriminant (id : String) : (Scope.discriminant id).levels = 8 := rfl

theorem levels_linkTarget_le {copies : Option (List (String × Node))} {targets : List String}
    {t : String} (ht : t ∈ targets) (he : (linkTarget copies t).tags = .empty) (tags : Tags) :
    (linkTarget copies t).levels ≤ ((link targets copies).withTags tags).levels := by
  match targets with
  | [] => cases ht
  | [_] =>
    obtain rfl := List.mem_singleton.1 ht
    rw [link, withLinks, withTags_withTags]
    exact levels_le_levels_withTags he tags
  | a :: b :: rest =>
    have hc : linkTarget copies t ∈ ((link (a :: b :: rest) copies).withTags tags).children := by
      rw [children_withTags, link_cons_cons, withLinks, children_withTags]
      exact List.mem_map_of_mem ht
    exact Nat.le_of_lt (levels_child_lt hc)

end Node

namespace Scope

variable {scope : Scope} {field : String} {d : Descriptor} {items : List Descriptor} {node : Node}
  {ct : ContentType} {f : Field} {c n : Nat} {t : String}

theorem levels_entryLink_le {targets : List String} (hc : 9 ≤ c)
    (ht : ∀ t ∈ targets, t ∈ scope.known → (Node.linkTarget scope.copies t).levels ≤ c)
    (ho : (scope.entryLink field targets).outcome = .ok node) : node.levels ≤ c + 2 := by
  rw [entryLink_eq] at ho
  obtain rfl := Except.ok.inj ho
  refine Node.levels_link_le (fun t hm => ?_) (by omega)
  obtain ⟨hm, hk⟩ := List.mem_filter.1 hm
  exact ht t hm (of_decide_eq_true hk)

theorem levels_mapSingle_le (hc : 9 ≤ c)
    (ht : ∀ t ∈ d.linkTargets items, t ∈ scope.known → (Node.linkTarget scope.copies t).levels ≤ c)
    (ho : (scope.mapSingle field d items).outcome = .ok node) : node.levels ≤ c + 2 := by
  by_cases hd : d.linksTo "Entry"
  · exact levels_entryLink_le hc ht (mapSingle_of_linksTo hd ▸ ho)
  · have hb := Node.levels_of_basic (basic_of_mapSingle hd ho)
    omega

/-- A node nests by the lists around what it holds, and not much more than the targets of its
links. -/
theorem levels_mapKind_le (hc : 9 ≤ c)
    (ht : ∀ t ∈ d.reached items, t ∈ scope.known → (Node.linkTarget scope.copies t).levels ≤ c)
    (ho : (scope.mapKind field d items).outcome = .ok node) :
    node.levels ≤ d.listDepth items + c + 2 := by
  induction items generalizing field d node with
  | nil =>
    have hs := levels_mapSingle_le hc ht ho
    omega
  | cons item inner ih =>
    by_cases hk : d.kind = "Array"
    · rw [mapKind_array hk] at ho
      obtain ⟨element, he, rfl⟩ := Report.outcome_map_eq_ok.1 ho
      rw [Descriptor.listDepth_array hk]
      by_cases hl : d.isEntryLink (item :: inner)
      · rw [if_pos hl] at he ⊢
        rw [Descriptor.reached_of_isEntryLink hl] at ht
        have hle := Node.levels_listed_le (levels_entryLink_le hc ht he) (by omega)
        omega
      · rw [if_neg hl] at he ⊢
        rw [Descriptor.reached, if_pos ⟨hk, hl⟩] at ht
        have hle := Node.levels_listed_le (ih ht he) (by omega)
        omega
    · rw [Descriptor.reached_of_ne hk] at ht
      have hs := levels_mapSingle_le hc ht (mapKind_of_ne hk ▸ ho)
      omega

theorem levels_mapField_le (hc : 9 ≤ c)
    (ht : ∀ t ∈ f.reached, t ∈ scope.known → (Node.linkTarget scope.copies t).levels ≤ c)
    (ho : (scope.mapField f).outcome = .ok node) : node.levels ≤ f.listDepth + c + 3 := by
  obtain ⟨held, hh, rfl⟩ := Report.outcome_map_eq_ok.1 (mapField_eq f ▸ ho)
  have hle : held.levels ≤ f.listDepth + c + 2 := levels_mapKind_le hc ht hh
  split
  · omega
  · exact Node.levels_wrapped_le hle (by omega)

theorem levels_mapContentType_le (hc : 9 ≤ c)
    (hn : ∀ key f, ct.field? key = some f → f.listDepth ≤ n)
    (ht : ∀ t, ct.Reaches scope.known t → (Node.linkTarget scope.copies t).levels ≤ c)
    (ho : (scope.mapContentType ct).outcome = .ok node) : node.levels ≤ n + c + 7 := by
  obtain ⟨entries, he, rfl⟩ := exists_of_mapContentType ho
  have hfields : ∀ e ∈ Entries.ofList entries, e.2.levels ≤ n + c + 3 := by
    intro e hm
    have hl := (Entries.mem_iff_lookup (Entries.nodup_keys_ofList _)).1 hm
    obtain ⟨f, hf, hnode⟩ := (lookup_ofList_entries he).1 hl
    have hle := levels_mapField_le hc (fun t hr hk => ht t ⟨hk, e.1, f, hf, hr⟩) hnode
    have hd := hn e.1 f hf
    omega
  refine Node.levels_object_le_iff.2 ⟨by omega, ?_⟩
  rw [List.forall_mem_cons, List.forall_mem_singleton, Node.levels_discriminant]
  refine ⟨by omega, Nat.succ_le_succ (Nat.succ_le_succ
    (Node.levels_object_le_iff.2 ⟨by omega, fun e hm => ?_⟩ : _ ≤ n + c + 5))⟩
  have hle := hfields e hm
  omega

theorem listDepth_lt_levels (ho : (scope.mapKind field d items).outcome = .ok node) (tags : Tags) :
    d.listDepth items < (node.withTags tags).levels := by
  induction items generalizing field d node tags with
  | nil => exact Node.levels_pos _
  | cons item inner ih =>
    by_cases hk : d.kind = "Array"
    · rw [mapKind_array hk] at ho
      obtain ⟨element, he, rfl⟩ := Report.outcome_map_eq_ok.1 ho
      have hlt : element.unlinked.levels < (element.listed.withTags tags).levels :=
        Node.levels_child_lt List.mem_cons_self
      rw [Descriptor.listDepth_array hk]
      split at he
      · next hl =>
        have hpos := element.unlinked.levels_pos
        rw [if_pos hl]
        omega
      · next hl =>
        have hi := ih he { element.tags with links := none }
        rw [if_neg hl]
        exact Nat.lt_of_le_of_lt hi hlt
    · rw [Descriptor.listDepth_of_ne hk]
      exact Node.levels_pos _

theorem levels_linkTarget_le_entryLink {targets : List String}
    (he : (Node.linkTarget scope.copies t).tags = .empty) (hm : t ∈ targets) (hk : t ∈ scope.known)
    (ho : (scope.entryLink field targets).outcome = .ok node) (tags : Tags) :
    (Node.linkTarget scope.copies t).levels ≤ (node.withTags tags).levels := by
  rw [entryLink_eq] at ho
  obtain rfl := Except.ok.inj ho
  exact Node.levels_linkTarget_le (List.mem_filter.2 ⟨hm, decide_eq_true hk⟩) he tags

theorem levels_linkTarget_le_mapSingle (he : (Node.linkTarget scope.copies t).tags = .empty)
    (hd : d.isEntryLink items → d.linksTo "Entry") (hm : t ∈ d.linkTargets items)
    (hk : t ∈ scope.known) (ho : (scope.mapSingle field d items).outcome = .ok node)
    (tags : Tags) : (Node.linkTarget scope.copies t).levels ≤ (node.withTags tags).levels := by
  by_cases hl : d.isEntryLink items
  · exact levels_linkTarget_le_entryLink he hm hk (mapSingle_of_linksTo (hd hl) ▸ ho) tags
  · rw [Descriptor.linkTargets_of_not_isEntryLink hl] at hm
    cases hm

theorem levels_linkTarget_le_mapKind (he : (Node.linkTarget scope.copies t).tags = .empty)
    (hr : t ∈ d.reached items) (hk : t ∈ scope.known)
    (ho : (scope.mapKind field d items).outcome = .ok node) (tags : Tags) :
    (Node.linkTarget scope.copies t).levels ≤ (node.withTags tags).levels := by
  induction items generalizing field d node tags with
  | nil => exact levels_linkTarget_le_mapSingle he (by simp [Descriptor.isEntryLink]) hr hk ho tags
  | cons item inner ih =>
    by_cases hd : d.kind = "Array"
    · rw [mapKind_array hd] at ho
      obtain ⟨element, hel, rfl⟩ := Report.outcome_map_eq_ok.1 ho
      have hlt : element.unlinked.levels < (element.listed.withTags tags).levels :=
        Node.levels_child_lt List.mem_cons_self
      refine Nat.le_trans ?_ (Nat.le_of_lt hlt)
      by_cases hl : d.isEntryLink (item :: inner)
      · rw [if_pos hl] at hel
        rw [Descriptor.reached_of_isEntryLink hl] at hr
        exact levels_linkTarget_le_entryLink he hr hk hel _
      · rw [if_neg hl] at hel
        rw [Descriptor.reached, if_pos ⟨hd, hl⟩] at hr
        exact ih hr hel _
    · rw [Descriptor.reached_of_ne hd] at hr
      exact levels_linkTarget_le_mapSingle he (Descriptor.linksTo_of_isEntryLink · hd) hr hk
        (mapKind_of_ne hd ▸ ho) tags

theorem le_levels_mapField (ho : (scope.mapField f).outcome = .ok node)
    (hm : ∀ held tags, (scope.mapKind f.id f.holds f.items).outcome = .ok held →
      n ≤ (held.withTags tags).levels) : n ≤ node.levels := by
  obtain ⟨held, hh, rfl⟩ := Report.outcome_map_eq_ok.1 (mapField_eq f ▸ ho)
  split
  · have hle := hm held held.tags hh
    rwa [Node.withTags_tags] at hle
  · have hlt : held.unlinked.levels < held.wrapped.levels :=
      Node.levels_child_lt List.mem_cons_self
    exact Nat.le_trans (hm held _ hh) (Nat.le_of_lt hlt)

theorem le_levels_mapContentType {key : String} (hf : ct.field? key = some f)
    (hm : ∀ field, (scope.mapField f).outcome = .ok field → n ≤ field.levels)
    (ho : (scope.mapContentType ct).outcome = .ok node) : n + 4 ≤ node.levels := by
  obtain ⟨entries, he, rfl⟩ := exists_of_mapContentType ho
  obtain ⟨field, hfield, hmem⟩ := exists_mem_entries he hf
  have hn := hm field hfield
  have hinner := Node.levels_part scope.settings.objectPolicy hmem
  have houter := Node.levels_part scope.settings.objectPolicy
    (List.mem_cons_of_mem ("sys", discriminant ct.id) (List.mem_singleton_self
      ("fields", Node.object (Entries.ofList entries) scope.settings.objectPolicy .empty)))
  omega

theorem ten_le_levels_mapContentType (ho : (scope.mapContentType ct).outcome = .ok node) :
    10 ≤ node.levels := by
  obtain ⟨entries, -, rfl⟩ := exists_of_mapContentType ho
  have hsys := Node.levels_part scope.settings.objectPolicy
    (List.mem_cons_self (a := ("sys", discriminant ct.id))
      (l := [("fields", Node.object (Entries.ofList entries) scope.settings.objectPolicy .empty)]))
  rwa [Node.levels_discriminant] at hsys

end Scope

namespace Graph

variable {graph : Graph} {n : Nat}

theorem levels_le (h : ∀ e ∈ graph.schemas, e.2.levels ≤ n) : graph.levels ≤ n + 2 := by
  have hs : (Tree.ofValue (.object (Node.shapeMembers graph.schemas))).depth ≤ n + 1 :=
    Node.depth_shapeMembers_le_iff.2 ⟨Nat.succ_pos n, fun e he => Nat.succ_le_succ (h e he)⟩
  have hw : (Tree.ofValue (.list (graph.warnings.map .str))).depth ≤ n + 1 := by
    refine Tree.depth_list_le_iff.2 ⟨Nat.succ_pos n, ?_⟩
    simp [Tree.ofValue, Tree.depth]
  refine Tree.depth_object_le_iff.2 ⟨Nat.succ_pos _, ?_⟩
  rw [List.forall_mem_cons]
  refine ⟨hs, ?_⟩
  split
  · simp
  · exact List.forall_mem_singleton.2 hw

theorem levels_schema_le {id : String} {node : Node} (h : graph.schemas.lookup id = some node) :
    node.levels + 2 ≤ graph.levels := by
  obtain ⟨hpos, hm⟩ := Tree.depth_object_le_iff.1 (Nat.le_refl graph.levels)
  have hs : node.levels + 1 ≤ graph.levels - 1 :=
    (Node.depth_shapeMembers_le_iff.1 (hm _ List.mem_cons_self)).2 _ (Entries.mem_of_lookup h)
  omega

end Graph

namespace ContentModel

variable {model : ContentModel} {settings : Settings} {graph : Graph} {ct : ContentType}
  {n r k : Nat}

theorem levels_linked_graph_le (hf : settings.flat = false) (h : model.graph settings = .ok graph)
    (hn : ∀ ct ∈ model.contentTypes, ∀ key f, ct.field? key = some f → f.listDepth ≤ n) :
    ∀ e ∈ graph.schemas, e.2.levels ≤ n + 16 := by
  intro e he
  obtain ⟨ct, hct, -, ho⟩ := exists_of_mem_linked_graph hf h he
  refine Scope.levels_mapContentType_le (Nat.le_refl 9) (hn ct hct) (fun t _ => ?_) ho
  rw [Scope.copies_linked hf]
  have htwo : (Node.linkTarget none t).levels = 2 := rfl
  omega

theorem levels_flat_graph_le (hf : settings.flat = true) (h : model.graph settings = .ok graph)
    (hn : ∀ ct ∈ model.contentTypes, ∀ key f, ct.field? key = some f → f.listDepth ≤ n) :
    ∀ e ∈ graph.schemas, ∃ ct ∈ model.contentTypes, ct.id = e.1 ∧
      ∀ r, ¬ Chain model.Leads (r + 1) ct → e.2.levels ≤ n + 16 + r * (n + 7) := by
  refine graph_induct h fun ct hct made node hall hnode => ⟨ct, hct, rfl, ?_⟩
  have hcopies : Scope.copies ⟨settings, model.ids, made, ct.id⟩ = some made :=
    Scope.copies_flat hf
  intro r hr
  show node.levels ≤ n + 16 + r * (n + 7)
  -- a link is open, or a copy of a schema that was made before and has a shorter chain
  cases r with
  | zero =>
    have hle := Scope.levels_mapContentType_le (Nat.le_refl 9) (hn ct hct) (fun t ht => ?_) hnode
    · omega
    · obtain ⟨dep, hdep, rfl⟩ := List.mem_map.1 ht.1
      exact absurd ⟨dep, ⟨hdep, ht⟩, trivial⟩ hr
  | succ r =>
    have hle := Scope.levels_mapContentType_le (c := n + 16 + r * (n + 7)) (by omega) (hn ct hct)
      (fun t ht => ?_) hnode
    · rw [Nat.succ_mul]
      omega
    · rw [hcopies, Node.linkTarget]
      cases hl : made.lookup t with
      | none =>
        have ho := Node.levels_openLink
        rw [Option.getD_none]
        omega
      | some target =>
        obtain ⟨dep, hdep, hid, hle⟩ := hall _ (Entries.mem_of_lookup hl)
        exact hle r fun hc => hr ⟨dep, ⟨hdep, hid ▸ ht⟩, hc⟩

/-- A bound by the lists in lists, and for flat graphs by the chains of links. -/
theorem levels_graph_le (h : model.graph settings = .ok graph)
    (hn : ∀ ct ∈ model.contentTypes, ∀ key f, ct.field? key = some f → f.listDepth ≤ n)
    (hr : settings.flat = true → ∀ ct ∈ model.contentTypes, ¬ Chain model.Leads (r + 1) ct) :
    graph.levels ≤ n + 18 + if settings.flat then r * (n + 7) else 0 := by
  cases hf : settings.flat with
  | false => exact Graph.levels_le (levels_linked_graph_le hf h hn)
  | true =>
    have hle : graph.levels ≤ n + 16 + r * (n + 7) + 2 := Graph.levels_le fun e he => by
      obtain ⟨ct, hct, -, hle⟩ := levels_flat_graph_le hf h hn e he
      exact hle r (hr hf ct hct)
    rw [if_pos rfl]
    omega

theorem listDepth_le_levels_graph (h : model.graph settings = .ok graph)
    (hct : ct ∈ model.contentTypes) {key : String} {f : Field} (hf : ct.field? key = some f) :
    f.listDepth + 7 ≤ graph.levels := by
  obtain ⟨produced, node, hm⟩ := exists_mappedWith h hct
  have hnode : f.listDepth + 1 + 4 ≤ node.levels :=
    Scope.le_levels_mapContentType hf
      (fun field ho => Scope.le_levels_mapField ho fun held tags hh =>
        Scope.listDepth_lt_levels hh tags) hm.mapped
  have hle := Graph.levels_schema_le hm.found
  omega

/-- Flat, each link of a chain is a copy, which takes four levels. -/
theorem levels_of_chain (hf : settings.flat = true) (h : model.graph settings = .ok graph)
    (hct : ct ∈ model.contentTypes) (hc : Chain model.Copies k ct) {node : Node}
    (hl : graph.schemas.lookup ct.id = some node) : 4 * k + 10 ≤ node.levels := by
  induction k generalizing ct node with
  | zero =>
    obtain ⟨produced, made, hm⟩ := exists_mappedWith h hct
    obtain rfl := Option.some.inj (hm.found.symm.trans hl)
    exact Scope.ten_le_levels_mapContentType hm.mapped
  | succ k ih =>
    obtain ⟨dep, ⟨⟨hdep, hk, key, f, hfield, hr⟩, hd⟩, hc⟩ := hc
    obtain ⟨produced, made, hm⟩ := exists_mappedWith h hct
    obtain rfl := Option.some.inj (hm.found.symm.trans hl)
    obtain ⟨target, htarget, hcopy⟩ := hm.exists_target h hd hk
    obtain ⟨_, dmade, hdm⟩ := exists_mappedWith h hdep
    obtain rfl := Option.some.inj (hdm.found.symm.trans htarget)
    have hcopies : Scope.copies ⟨settings, model.ids, produced, ct.id⟩ = some produced :=
      Scope.copies_flat hf
    -- the copy in the field is the schema from which the chain goes on
    have hlink : Node.linkTarget (Scope.copies ⟨settings, model.ids, produced, ct.id⟩) dep.id =
        dmade := by
      rw [hcopies, Node.linkTarget, hcopy produced hcopies, Option.getD_some]
    have htags : dmade.tags = .empty := (Scope.isEntry_mapContentType hdm.mapped).1
    have hle := Scope.le_levels_mapContentType (n := dmade.levels) hfield (fun field ho => ?_)
      hm.mapped
    · have hdeep := ih hdep hc htarget
      omega
    · refine Scope.le_levels_mapField ho fun held tags hh => ?_
      rw [← hlink]
      exact Scope.levels_linkTarget_le_mapKind (hlink ▸ htags) hr hk hh tags

end ContentModel

end ContentSchema
