import ContentSchema.Proofs.Graph.Coverage
import ContentSchema.Proofs.Graph.Links
import ContentSchema.Proofs.Source.Flat
import ContentSchema.Proofs.Source.Layout

/-! # Linked modules

Linked, a field with links is left open in the object that is declared first, and declared again by
the names of its targets. All other fields are declared once, in full.
-/

namespace ContentSchema

open Source

namespace Source.Declaration

def constant : Declaration → String
  | schema constant _ _ _ => constant
  | linked _ constant _ _ _ => constant

def type : Declaration → String
  | schema _ type _ _ => type
  | linked _ _ type _ _ => type

def body : Declaration → Expr
  | schema _ _ body _ => body
  | linked _ _ _ body _ => body

def links : Declaration → List LinkField
  | schema _ _ _ _ => []
  | linked _ _ _ _ links => links

def layout (d : Declaration) (id : String) (passthrough : Bool)
    (members : List (String × Expr)) : Layout where
  id := id
  constant := d.constant
  type := d.type
  passthrough := passthrough
  fields := members.map fun m => (m.1, m.2.render 2)
  relinks := d.links.map (·.relink)

end Source.Declaration

namespace Field

def linkType (f : Field) (types : List String) : String :=
  let choice := String.intercalate " | " types
  let listed :=
    if f.holds.kind ≠ "Array" then choice
    else if 2 ≤ types.length then "(" ++ choice ++ ")[]"
    else choice ++ "[]"
  if f.required then listed else listed ++ " | undefined"

def linkSchema (f : Field) (constants : List String) : String :=
  let names := String.intercalate ", " constants
  let choice := if 2 ≤ constants.length then "z.union([" ++ names ++ "])" else names
  let link := "z.lazy(() => " ++ choice ++ ")"
  let listed := if f.holds.kind = "Array" then "z.array(" ++ link ++ ")" else link
  if f.required then listed else listed ++ ".optional()"

/-- The field as it is declared again, with links to schemas of these types and names. -/
def relinked (f : Field) (types constants : List String) : LinkField :=
  ⟨f.id, types, constants, f.holds.kind == "Array", !f.required⟩

variable {f : Field} {types constants : List String}

theorem typeMember_relinked :
    (f.relinked types constants).typeMember =
      Text.propertyName f.id ++ (if f.required then "" else "?") ++ ": " ++ f.linkType types := by
  have ht : (f.relinked types constants).typeText = f.linkType types := by
    by_cases hk : f.holds.kind = "Array"
    · by_cases hl : 2 ≤ types.length
      · cases hr : f.required <;>
          simp [relinked, LinkField.typeText, linkType, hk, hr, Nat.lt_iff_add_one_le, hl,
            String.append_assoc]
      · cases hr : f.required <;>
          simp [relinked, LinkField.typeText, linkType, hk, hr, Nat.lt_iff_add_one_le, hl]
    · cases hr : f.required <;> simp [relinked, LinkField.typeText, linkType, hk, hr]
  rw [LinkField.typeMember, ht]
  cases hr : f.required <;> simp [relinked, hr]

theorem deferredText_of_ne_nil (h : constants ≠ []) :
    Expr.deferredText constants =
      let names := String.intercalate ", " constants
      "z.lazy(() => " ++ (if 2 ≤ constants.length then "z.union([" ++ names ++ "])" else names) ++
        ")" := by
  match constants with
  | [] => exact absurd rfl h
  | [name] => simp [Expr.deferredText]
  | _ :: _ :: _ => simp [Expr.deferredText, Expr.unionText, String.append_assoc]

theorem render_relinked (h : constants ≠ []) :
    (f.relinked types constants).expr.render 2 = f.linkSchema constants := by
  by_cases hk : f.holds.kind = "Array"
  · cases hr : f.required <;>
      simp [relinked, LinkField.expr, linkSchema, Expr.render, deferredText_of_ne_nil h, hk, hr]
  · cases hr : f.required <;>
      simp [relinked, LinkField.expr, linkSchema, Expr.render, deferredText_of_ne_nil h, hk, hr]

def relink (f : Field) (types constants : List String) : Relink where
  key := f.id
  member := Text.propertyName f.id ++ (if f.required then "" else "?") ++ ": " ++ f.linkType types
  schema := f.linkSchema constants

theorem relink_relinked (h : constants ≠ []) :
    (f.relinked types constants).relink = f.relink types constants := by
  rw [LinkField.relink, typeMember_relinked, render_relinked h]
  rfl

end Field

namespace Node

variable {follow : Follow} {sys : Node} {fields : List (String × Node)} {policy : ObjectPolicy}

theorem linkedFields_entry :
    (object [("sys", sys), ("fields", object fields policy .empty)] policy .empty).linkedFields =
      fields.filterMap fun e => e.2.tags.links.map (e.1, ·) := rfl

theorem withPlaceholders_entry :
    (object [("sys", sys), ("fields", object fields policy .empty)] policy
        .empty).withPlaceholders =
      object [("sys", sys),
        ("fields", object (fields.map fun e => (e.1, placeholder e.2)) policy .empty)] policy
        .empty := rfl

theorem map_placeholder_eq_self (h : fields.filterMap (fun e => e.2.tags.links.map (e.1, ·)) = []) :
    fields.map (fun e => (e.1, placeholder e.2)) = fields := by
  rw [List.filterMap_eq_nil_iff] at h
  refine (List.map_congr_left fun e he => ?_).trans (List.map_id fields)
  have hl : e.2.tags.links = none := Option.map_eq_none_iff.1 (h e he)
  simp [placeholder, hl]

theorem expr_object (shape : List (String × Node)) :
    (object shape policy .empty).expr follow = (.object · policy) <$> shapeExprs follow shape :=
  expr_of_untagged rfl

theorem exists_of_shapeExprs_cons {key : String} {node : Node} {rest : List (String × Node)}
    {members : List (String × Expr)}
    (h : (shapeExprs follow ((key, node) :: rest)).outcome = .ok members) :
    ∃ e later, (node.expr follow).outcome = .ok e ∧ (shapeExprs follow rest).outcome = .ok later ∧
      members = (key, e) :: later := by
  rw [shapeExprs, Report.outcome_bind_eq_ok] at h
  obtain ⟨e, he, h⟩ := h
  rw [bind_pure_comp] at h
  obtain ⟨later, hl, rfl⟩ := Report.outcome_map_eq_ok.1 h
  exact ⟨e, later, he, hl, rfl⟩

theorem expr_discriminant (id : String) :
    ((Scope.discriminant id).expr follow).outcome = .ok (.ofId id) := rfl

theorem exists_of_expr_entry {id : String} {e : Expr}
    (h : ((object [("sys", Scope.discriminant id), ("fields", object fields policy .empty)] policy
      .empty).expr follow).outcome = .ok e) :
    ∃ members, e = .ofEntry id members policy ∧
      (shapeExprs follow fields).outcome = .ok members := by
  rw [expr_object] at h
  obtain ⟨shape, hs, rfl⟩ := Report.outcome_map_eq_ok.1 h
  obtain ⟨s, later, hsys, hlater, rfl⟩ := exists_of_shapeExprs_cons hs
  obtain rfl := Except.ok.inj (hsys.symm.trans (expr_discriminant id))
  obtain ⟨inner, nothing, hi, hnothing, rfl⟩ := exists_of_shapeExprs_cons hlater
  obtain rfl := Except.ok.inj hnothing
  rw [expr_object] at hi
  obtain ⟨members, hm, rfl⟩ := Report.outcome_map_eq_ok.1 hi
  exact ⟨members, rfl, hm⟩

theorem keys_of_shapeExprs {shape : List (String × Node)} {members : List (String × Expr)}
    (h : (shapeExprs follow shape).outcome = .ok members) :
    Entries.keys members = Entries.keys shape := by
  rw [shapeExprs_eq_mapM] at h
  refine Report.map_eq_of_mapM (fun entry _ member hm => ?_) h
  obtain ⟨e, -, rfl⟩ := Report.outcome_map_eq_ok.1 hm
  rfl

theorem exists_mem_of_shapeExprs {shape : List (String × Node)} {members : List (String × Expr)}
    {key : String} {node : Node} (h : (shapeExprs follow shape).outcome = .ok members)
    (hm : (key, node) ∈ shape) :
    ∃ e, (node.expr follow).outcome = .ok e ∧ (key, e) ∈ members := by
  rw [shapeExprs_eq_mapM] at h
  obtain ⟨member, hmember, he⟩ := Report.exists_mem_of_mapM h hm
  obtain ⟨e, hnode, rfl⟩ := Report.outcome_map_eq_ok.1 he
  exact ⟨e, hnode, hmember⟩

end Node

namespace Outline

variable {o : Outline} {id : String} {node : Node} {d : Declaration}

def linked (o : Outline) (key : String) (links : LinkSet) : LinkField :=
  ⟨key, links.targets.map (o.type .contentType), links.targets.map (o.constant .contentType),
    links.list, links.optional⟩

theorem linkField_eq_ok {key : String} {links : LinkSet} {link : LinkField}
    (h : (o.linkField key links).outcome = .ok link) : link = o.linked key links := by
  unfold linkField at h
  split at h
  · cases h
  · exact (Except.ok.inj h).symm

theorem outcome_linkField {links : LinkSet} (hn : links.targets ≠ []) (key : String) :
    (o.linkField key links).outcome = .ok (o.linked key links) := by
  rw [linkField, if_neg (by simpa using hn)]
  rfl

/-- Linked, the placeholders are declared first, and then the links. -/
structure Declared (o : Outline) (id : String) (node : Node) (d : Declaration) : Prop where
  constant : d.constant = o.constant .contentType id
  type : d.type = o.type .contentType id
  body : (node.withPlaceholders.expr o.byName).outcome = .ok d.body
  links : d.links = node.linkedFields.map fun e => o.linked e.1 e.2
  unlinked : d.links = [] → d = .schema d.constant d.type d.body none
  linked : d.links ≠ [] → d = .linked ("_base" ++ d.type) d.constant d.type d.body d.links

theorem declared_of_contentType (hf : o.settings.flat = false)
    (hn : node.linkedFields = [] → node.withPlaceholders = node)
    (h : (o.contentType id node).outcome = .ok d) : o.Declared id node d := by
  have hfollow : o.follow id = o.byName := by simp [follow, hf]
  simp only [contentType, hf, Bool.false_eq_true, if_false, hfollow] at h
  by_cases hl : node.linkedFields = []
  · rw [hl, List.isEmpty_nil, if_pos rfl, bind_pure_comp] at h
    obtain ⟨body, hb, rfl⟩ := Report.outcome_map_eq_ok.1 h
    refine ⟨rfl, rfl, ?_, ?_, fun _ => rfl, ?_⟩
    · rw [hn hl]
      exact hb
    · rw [hl]
      rfl
    · intro hne
      exact absurd rfl hne
  · rw [if_neg (by simpa using hl), Report.outcome_bind_eq_ok] at h
    obtain ⟨body, hb, h⟩ := h
    rw [bind_pure_comp] at h
    obtain ⟨links, hls, rfl⟩ := Report.outcome_map_eq_ok.1 h
    have hlinks : links = node.linkedFields.map fun e => o.linked e.1 e.2 := by
      rw [← List.map_id links]
      exact Report.map_eq_of_mapM (fun e _ link hlink => linkField_eq_ok hlink) hls
    refine ⟨rfl, rfl, hb, hlinks, ?_, fun _ => rfl⟩
    intro hnil
    obtain rfl : links = [] := hnil
    exact absurd (List.map_eq_nil_iff.1 hlinks.symm) hl

namespace Declared

variable {sys field : Node} {fields : List (String × Node)} {policy : ObjectPolicy} {key : String}

theorem filter_links
    (h : o.Declared id (.object [("sys", sys), ("fields", .object fields policy .empty)] policy
      .empty) d)
    (hn : (Entries.keys fields).Nodup) (hm : (key, field) ∈ fields) :
    d.links.filter (·.key == key) = (field.tags.links.map (o.linked key)).toList := by
  have hf := Entries.filter_filterMap_eq (g := fun n : Node => n.tags.links) hn hm
  have hk : (fun l : LinkField => l.key == key) ∘ (fun e => o.linked e.1 e.2) =
      fun e : String × LinkSet => e.1 == key := rfl
  rw [h.links, Node.linkedFields_entry, List.filter_map, hk, hf]
  cases field.tags.links <;> rfl

end Declared

end Outline

/-- The layout is that of the declaration of a content type, whose fields are written as they are
mapped, but for the links that they are left without. -/
structure Outline.Lays (o : Outline) (scope : Scope) (ct : ContentType) (d : Declaration)
    (t : Layout) : Prop where
  id : t.id = ct.id
  constant : t.constant = o.constant .contentType ct.id
  type : t.type = o.type .contentType ct.id
  passthrough : t.passthrough = scope.settings.passthrough
  text : d.statements.map (·.render) = t.paragraphs
  nodup : (Entries.keys t.fields).Nodup
  fields : ∀ key f, ct.field? key = some f → ∃ field e,
    (scope.mapField f).outcome = .ok field ∧ (field.placeholder.expr o.byName).outcome = .ok e ∧
    (key, e.render 2) ∈ t.fields ∧
    t.relinks.filter (·.key == key) = (field.tags.links.map fun l => (o.linked key l).relink).toList

namespace Outline.Declared

variable {o : Outline} {scope : Scope} {ct : ContentType} {node : Node} {d : Declaration}

theorem map_render (h : o.Declared ct.id node d) {t : Layout} (hc : t.constant = d.constant)
    (ht : t.type = d.type) (hr : t.relinks = d.links.map (·.relink))
    (hb : d.body.render 0 = t.object) : d.statements.map (·.render) = t.paragraphs := by
  by_cases hl : d.links = []
  · have hd := h.unlinked hl
    rw [← hc, ← ht] at hd
    rw [hl] at hr
    exact hd ▸ Layout.render_schema hr hb
  · have hd := h.linked hl
    rw [← hc, ← ht] at hd
    exact hd ▸ Layout.render_linked hr hl hb

theorem exists_lays (h : o.Declared ct.id node d)
    (ho : (scope.mapContentType ct).outcome = .ok node) : ∃ t, o.Lays scope ct d t := by
  obtain ⟨entries, he, rfl⟩ := Scope.exists_of_mapContentType ho
  have hb := h.body
  rw [Node.withPlaceholders_entry] at hb
  obtain ⟨members, hd, hms⟩ := Node.exists_of_expr_entry hb
  -- placeholders stand under the keys of their fields, of which none comes twice
  have hn := Entries.nodup_keys_ofList entries
  have ht : d.body.render 0 = (d.layout ct.id scope.settings.passthrough members).object := by
    rw [hd]
    refine Layout.render_ofEntry (t := d.layout ct.id scope.settings.passthrough members) rfl ?_
    cases hp : scope.settings.passthrough <;>
      simp [Layout.ending, Settings.objectPolicy, Expr.policyText, hp, Declaration.layout]
  refine ⟨d.layout ct.id scope.settings.passthrough members, rfl, h.constant, h.type, rfl,
    h.map_render rfl rfl rfl ht, ?_, ?_⟩
  · rw [Declaration.layout, Entries.keys_map, Node.keys_of_shapeExprs hms, Entries.keys_map]
    exact hn
  · intro key f hf
    obtain ⟨field, hfield, hm⟩ := Scope.exists_mem_entries he hf
    obtain ⟨e, hexpr, hme⟩ := Node.exists_mem_of_shapeExprs hms
      (List.mem_map_of_mem (f := fun e : String × Node => (e.1, e.2.placeholder)) hm)
    refine ⟨field, e, hfield, hexpr, List.mem_map_of_mem (f := fun m => (m.1, m.2.render 2)) hme,
      ?_⟩
    have hk : (fun r : Relink => r.key == key) ∘ LinkField.relink = (·.key == key) := rfl
    rw [Declaration.layout, List.filter_map, hk, h.filter_links hn hm]
    cases field.tags.links <;> rfl

end Outline.Declared

namespace Outline.Lays

variable {o : Outline} {scope : Scope} {ct : ContentType} {d : Declaration} {t : Layout}
  {key : String} {f : Field}

/-- A link with known targets is declared again. -/
theorem redeclares (h : o.Lays scope ct d t) (hs : scope.settings.flat = false)
    (hf : ct.field? key = some f) (hl : f.isEntryLink) (ht : f.knownTargets scope.known ≠ []) :
    t.Redeclares (f.relink ((f.knownTargets scope.known).map (o.type .contentType))
      ((f.knownTargets scope.known).map (o.constant .contentType))) := by
  obtain ⟨field, e, hfield, he, hm, hr⟩ := h.fields key f hf
  obtain rfl := ContentType.id_of_field? hf
  have htags := Scope.links_of_isEntryLink hs hl hfield
  rw [Node.linkSet?, if_neg (by simpa using ht)] at htags
  have hp : field.placeholder = .any := by simp [Node.placeholder, htags]
  rw [hp] at he
  obtain rfl := Except.ok.inj he
  rw [htags] at hr
  refine ⟨hm, ?_⟩
  rw [← Field.relink_relinked (by simpa using ht)]
  exact hr

/-- A field whose node has no links is declared once. -/
theorem declaresOnce (h : o.Lays scope ct d t) (hf : ct.field? key = some f)
    (hl : ∀ field, (scope.mapField f).outcome = .ok field → field.tags.links = none) :
    ∃ field e, (scope.mapField f).outcome = .ok field ∧
      (field.expr o.byName).outcome = .ok e ∧ t.DeclaresOnce key (e.render 2) := by
  obtain ⟨field, e, hfield, he, hm, hr⟩ := h.fields key f hf
  have htags := hl field hfield
  have hp : field.placeholder = field := by simp [Node.placeholder, htags]
  rw [hp] at he
  rw [htags] at hr
  refine ⟨field, e, hfield, he, hm, ?_⟩
  intro r hmem hk
  exact List.filter_eq_nil_iff.1 hr r hmem (beq_iff_eq.2 hk)

end Outline.Lays

theorem flatMap_paragraphs {ds : List Declaration} {layouts : List Layout}
    (h : List.Forall₂ (fun d (t : Layout) => d.statements.map (·.render) = t.paragraphs) ds
      layouts) :
    (ds.flatMap (·.statements)).map (·.render) = layouts.flatMap (·.paragraphs) := by
  induction h with
  | nil => rfl
  | cons h _ ih => rw [List.flatMap_cons, List.map_append, h, ih, List.flatMap_cons]

theorem Node.withPlaceholders_of_mapContentType {scope : Scope} {ct : ContentType} {node : Node}
    (ho : (scope.mapContentType ct).outcome = .ok node) (h : node.linkedFields = []) :
    node.withPlaceholders = node := by
  obtain ⟨entries, -, rfl⟩ := Scope.exists_of_mapContentType ho
  rw [withPlaceholders_entry, map_placeholder_eq_self h]

/-- In a linked module, the schema of every content type is written under the names that others
refer to it by. A field that links to known content types is left open, and declared again with
exactly the names of these. Any other field is declared once, lists of lists apart. What a field
links to in vain is reported. -/
theorem references_declared {model : ContentModel} {settings : Settings} {graph : Graph}
    {generated : Generated} (hs : settings.flat = false) (hg : model.graph settings = .ok graph)
    (hp : graph.print settings = .ok generated) :
    ∃ m layouts, (graph.toModule settings).outcome = .ok m ∧
      generated.source =
        String.intercalate "\n\n" (m.preamble ::
          ((m.builtins.flatMap (·.statements)).map (·.render) ++
            layouts.flatMap (·.paragraphs))) ++ "\n" ∧
      List.Forall₂
        (fun ct (t : Layout) =>
          t.id = ct.id ∧ t.passthrough = settings.passthrough ∧
          t.constant = (graph.outline settings).constant .contentType ct.id ∧
          t.type = (graph.outline settings).type .contentType ct.id ∧
          (Entries.keys t.fields).Nodup ∧
          ∀ key f, ct.field? key = some f →
            (f.isEntryLink → f.knownTargets model.ids ≠ [] →
              t.Redeclares (f.relink
                ((f.knownTargets model.ids).map ((graph.outline settings).type .contentType))
                ((f.knownTargets model.ids).map
                  ((graph.outline settings).constant .contentType)))) ∧
            ((f.isEntryLink ∧ f.knownTargets model.ids = []) ∨ (¬ f.isEntryLink ∧ ¬ f.isNested) →
              ∃ field e, (Scope.mapField ⟨settings, model.ids, [], ct.id⟩ f).outcome = .ok field ∧
                (field.expr (graph.outline settings).byName).outcome = .ok e ∧
                t.DeclaresOnce key (e.render 2)) ∧
            ∀ target ∈ f.linkTargets, target ∉ model.ids →
              s!"field '{ct.id}.{f.id}' links to unknown content type '{target}'; " ++
                "ignoring that target" ∈ generated.warnings)
        model.contentTypes layouts := by
  obtain ⟨m, hm, rfl⟩ := Graph.print_eq_ok_iff.1 hp
  have hmapped := Report.outcome_mapM_eq_ok.1 (ContentModel.linked_graph hs hg)
  obtain ⟨-, -, -, -, htypes⟩ := Graph.toModule_eq_ok hm
  have hdeclared := Report.outcome_mapM_eq_ok.1 htypes
  have hall := (List.forall₂_and_left _ _).2
    ⟨fun ct hct => hct, Report.forall₂_comp hmapped hdeclared⟩
  -- a layout belongs to its content type by what it holds, and to a declaration by its text
  obtain ⟨layouts, hlays, htext⟩ : ∃ layouts,
      List.Forall₂ (fun ct t => ct ∈ model.contentTypes ∧ ∃ d, (graph.outline settings).Lays
        ⟨settings, model.ids, [], ct.id⟩ ct d t) model.contentTypes layouts ∧
      List.Forall₂ (fun (t : Layout) d => d.statements.map (·.render) = t.paragraphs) layouts
        m.contentTypes := by
    refine Report.exists_forall₂ (hall.imp ?_)
    rintro ct d ⟨hct, entry, hentry, hd⟩
    obtain ⟨node, hnode, rfl⟩ := Report.outcome_map_eq_ok.1 hentry
    have ho : (Scope.mapContentType ⟨settings, model.ids, [], ct.id⟩ ct).outcome = .ok node := by
      rw [Scope.mapContentType_of_linked hs]
      exact hnode
    obtain ⟨t, h⟩ := (Outline.declared_of_contentType hs
      (Node.withPlaceholders_of_mapContentType ho) hd).exists_lays ho
    exact ⟨t, ⟨hct, d, h⟩, h.text⟩
  refine ⟨m, layouts, hm, ?_, hlays.imp ?_⟩
  · rw [← flatMap_paragraphs htext.flip, ← List.map_append, ← List.flatMap_append]
    exact m.render_eq_paragraphs
  · rintro ct t ⟨hct, d, h⟩
    refine ⟨h.id, h.passthrough, h.constant, h.type, h.nodup, ?_⟩
    intro key f hf
    refine ⟨h.redeclares hs hf, ?_, ?_⟩
    · rintro (⟨hl, ht⟩ | ⟨hl, hn⟩)
      · apply h.declaresOnce hf
        intro field hfield
        rw [Scope.links_of_isEntryLink hs hl hfield, Node.linkSet?, ht]
        rfl
      · exact h.declaresOnce hf fun field => Scope.links_of_not_isEntryLink hl hn
    · intro target ht hk
      exact List.mem_append_left _ (ContentModel.mem_warnings_linked_graph hs hg hct
        (ContentType.mem_fields_of_field? hf) ht hk)

theorem references_declared_linking :
    let model : ContentModel := ⟨[linking "a" 1 ["b", "c"], linking "b" 0 []]⟩
    ∃ graph generated, ∃ m : Module, ∃ a b : Layout, model.graph linkedSettings = .ok graph ∧
      graph.print linkedSettings = .ok generated ∧
      generated.source =
        String.intercalate "\n\n" (m.preamble ::
          ((m.builtins.flatMap (·.statements)).map (·.render) ++
            [a, b].flatMap (·.paragraphs))) ++ "\n" ∧
      a.Redeclares ⟨"next", "next: B[]", "z.array(z.lazy(() => bSchema))"⟩ ∧
      (∃ schema, b.DeclaresOnce "next" schema) ∧
      "field 'a.next' links to unknown content type 'c'; ignoring that target" ∈
        generated.warnings := by
  intro model
  obtain ⟨graph, generated, hg, hp, ht, hc⟩ : ∃ graph generated,
      model.graph linkedSettings = .ok graph ∧ graph.print linkedSettings = .ok generated ∧
      (graph.outline linkedSettings).type .contentType "b" = "B" ∧
      (graph.outline linkedSettings).constant .contentType "b" = "bSchema" :=
    ⟨_, _, rfl, rfl, by decide +kernel, by decide +kernel⟩
  obtain ⟨f, hf, hl, hk, hr⟩ : ∃ f, (linking "a" 1 ["b", "c"]).field? "next" = some f ∧
      f.isEntryLink ∧ f.knownTargets model.ids = ["b"] ∧
      f.relink ["B"] ["bSchema"] =
        ⟨"next", "next: B[]", "z.array(z.lazy(() => bSchema))"⟩ :=
    ⟨_, rfl, rfl, rfl, by decide⟩
  obtain ⟨m, layouts, hm, htext, hall⟩ := references_declared rfl hg hp
  obtain ⟨a, rest, ⟨-, -, -, -, -, ha⟩, hrest, rfl⟩ := List.forall₂_cons_left_iff.1 hall
  obtain ⟨b, nothing, ⟨-, -, -, -, -, hb⟩, hnothing, rfl⟩ := List.forall₂_cons_left_iff.1 hrest
  obtain rfl := List.forall₂_nil_left_iff.1 hnothing
  refine ⟨graph, generated, m, a, b, hg, hp, htext, ?_, ?_, ?_⟩
  · have hlink := (ha "next" f hf).1 hl
    rw [hk, List.map_singleton, List.map_singleton, ht, hc, hr] at hlink
    exact hlink (List.cons_ne_nil _ _)
  · obtain ⟨field, e, -, -, he⟩ := (hb "next" _ rfl).2.1 (.inl ⟨rfl, by decide⟩)
    exact ⟨_, he⟩
  · exact (ha "next" _ rfl).2.2 "c" (by decide) (by decide)

end ContentSchema
