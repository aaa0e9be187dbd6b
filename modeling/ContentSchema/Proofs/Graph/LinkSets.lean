import ContentSchema.Proofs.Graph.Links
import Mathlib.Logic.Function.Iterate

/-! # Nodes of link sets

A link set describes a node: a choice between references, as a list or not, as an optional one or
not. Linked, it is a tag of the node that it describes, unless there are lists in lists around the
links.
-/

namespace ContentSchema

/-- `a` with so many lists around it, and then optional or not. -/
def layered {α : Type} (listed absent : α → α) (depth : Nat) (optional : Bool) (a : α) : α :=
  if optional then absent (listed^[depth] a) else listed^[depth] a

theorem iterate_eq_iterate_iff {α : Type} {f : α → α} (hf : Function.Injective f) {a : α}
    (ha : ∀ b, f b ≠ a) {m n : Nat} : f^[m] a = f^[n] a ↔ m = n := by
  constructor
  · intro h
    induction m generalizing n with
    | zero =>
      cases n with
      | zero => rfl
      | succ n =>
        rw [Function.iterate_succ_apply'] at h
        exact absurd h.symm (ha _)
    | succ m ih =>
      cases n with
      | zero =>
        rw [Function.iterate_succ_apply'] at h
        exact absurd h (ha _)
      | succ n =>
        rw [Function.iterate_succ_apply', Function.iterate_succ_apply'] at h
        exact congrArg Nat.succ (ih (hf h))
  · rintro rfl
    rfl

theorem layered_eq_layered_iff {α : Type} {listed absent : α → α}
    (hl : Function.Injective listed) (ho : Function.Injective absent) {a : α}
    (ha : ∀ b, listed b ≠ a) {optional : Bool} {m n : Nat} :
    layered listed absent m optional a = layered listed absent n optional a ↔ m = n := by
  rw [← iterate_eq_iterate_iff hl ha, layered, layered]
  split
  · exact ho.eq_iff
  · rfl

namespace Node

def unlinked (node : Node) : Node := node.withTags { node.tags with links := none }

/-- A reference to the one target, or a choice between references to several. -/
def choice : List String → Node
  | [target] => linkTarget none target
  | targets => union (targets.map (linkTarget none)) .empty

theorem unlinked_listed (node : Node) : node.listed.unlinked = array node.unlinked .empty := rfl

theorem unlinked_wrapped (node : Node) : node.wrapped.unlinked = optional node.unlinked .empty :=
  rfl

theorem unlinked_link {targets : List String} (h : targets ≠ []) :
    (link targets none).unlinked = choice targets := by
  match targets with
  | [] => exact absurd rfl h
  | [_] => rfl
  | _ :: _ :: _ => rfl

theorem choice_of_ne_one {targets : List String} (h : targets.length ≠ 1) :
    choice targets = union (targets.map (linkTarget none)) .empty := by
  unfold choice
  split
  · exact absurd rfl h
  · rfl

theorem array_ne_choice (node : Node) (targets : List String) :
    array node .empty ≠ choice targets := by
  unfold choice
  split <;> rintro ⟨⟩

end Node

namespace LinkSet

/-- A choice between the targets with so many lists around it. -/
def nested (links : LinkSet) (depth : Nat) : Node :=
  layered (.array · .empty) (.optional · .empty) depth links.optional (.choice links.targets)

def depth (links : LinkSet) : Nat := if links.list then 1 else 0

def node (links : LinkSet) : Node := links.nested links.depth

theorem nested_eq_nested_iff {links : LinkSet} {m n : Nat} :
    links.nested m = links.nested n ↔ m = n := by
  apply layered_eq_layered_iff
  · rintro a b ⟨⟩
    rfl
  · rintro a b ⟨⟩
    rfl
  · exact (Node.array_ne_choice · links.targets)

end LinkSet

namespace Descriptor

/-- The number of lists around the links that `d` describes. -/
def listDepth (d : Descriptor) : List Descriptor → Nat
  | [] => 0
  | item :: inner =>
    if d.kind ≠ "Array" then 0
    else if d.isEntryLink (item :: inner) then 1
    else item.listDepth inner + 1

variable {d item : Descriptor} {items inner : List Descriptor}

theorem listDepth_of_ne (h : d.kind ≠ "Array") : d.listDepth items = 0 := by
  cases items with
  | nil => rfl
  | cons item inner => rw [listDepth, if_pos h]

theorem listDepth_array (h : d.kind = "Array") :
    d.listDepth (item :: inner) =
      if d.isEntryLink (item :: inner) then 1 else item.listDepth inner + 1 := by
  rw [listDepth, if_neg (not_not.2 h)]

theorem not_isEntryLink_of_nested (h : d.kind = "Array") (hi : item.kind = "Array") :
    ¬ d.isEntryLink (item :: inner) := by
  simp [isEntryLink, linksTo, h, hi]

end Descriptor

def Field.listDepth (f : Field) : Nat := f.holds.listDepth f.items

namespace Node

/-- The node is a choice between known targets with so many lists around it, and tagged so. -/
structure IsLink (node : Node) (known : List String) (depth : Nat) (links : LinkSet) : Prop where
  node : node.unlinked = links.nested depth
  list : links.list = decide (0 < depth)
  ne_nil : links.targets ≠ []
  nodup : links.targets.Nodup
  known : ∀ target ∈ links.targets, target ∈ known

variable {known : List String} {links : LinkSet} {node : Node} {depth : Nat}

theorem isLink_link {targets : List String} (hn : targets.Nodup)
    (hk : ∀ target ∈ targets, target ∈ known) (h : (link targets none).tags.links = some links) :
    (link targets none).IsLink known 0 links ∧ links.optional = false := by
  rw [links_link, linkSet?] at h
  split at h
  · cases h
  · next hne =>
    obtain rfl := Option.some.inj h
    have hne : targets ≠ [] := mt List.isEmpty_iff.2 hne
    exact ⟨⟨unlinked_link hne, rfl, hne, hn, hk⟩, rfl⟩

theorem IsLink.listed (h : node.IsLink known depth links) (ho : links.optional = false) :
    node.listed.IsLink known (depth + 1) { links with list := true } where
  node := by
    simp only [unlinked_listed, h.node, LinkSet.nested, layered, ho, Bool.false_eq_true, if_false,
      Function.iterate_succ_apply']
  list := rfl
  ne_nil := h.ne_nil
  nodup := h.nodup
  known := h.known

theorem IsLink.wrapped (h : node.IsLink known depth links) (ho : links.optional = false) :
    node.wrapped.IsLink known depth { links with optional := true } where
  node := by
    simp only [unlinked_wrapped, h.node, LinkSet.nested, layered, ho, Bool.false_eq_true, if_false,
      if_true]
  list := h.list
  ne_nil := h.ne_nil
  nodup := h.nodup
  known := h.known

theorem IsLink.depth_eq_iff (h : node.IsLink known depth links) :
    links.depth = depth ↔ depth ≤ 1 := by
  rw [LinkSet.depth, h.list]
  by_cases hd : 0 < depth
  · rw [decide_eq_true hd, if_pos rfl]
    omega
  · rw [decide_eq_false hd, if_neg Bool.false_ne_true]
    omega

/-- The tag describes the node as long as there is at most one list. -/
theorem IsLink.unlinked_eq_iff (h : node.IsLink known depth links) :
    node.unlinked = links.node ↔ depth ≤ 1 := by
  rw [h.node, LinkSet.node, LinkSet.nested_eq_nested_iff, eq_comm, h.depth_eq_iff]

end Node

namespace Scope

variable {scope : Scope} {field : String} {d : Descriptor} {items : List Descriptor} {node : Node}
  {links : LinkSet}

theorem isLink_entryLink (hf : scope.settings.flat = false) {targets : List String}
    (hn : targets.Nodup) (ho : (scope.entryLink field targets).outcome = .ok node)
    (hl : node.tags.links = some links) :
    node.IsLink scope.known 0 links ∧ links.optional = false := by
  rw [entryLink_eq, copies_linked hf] at ho
  obtain rfl := Except.ok.inj ho
  exact Node.isLink_link (hn.filter _) (by simp) hl

theorem isLink_mapSingle (hf : scope.settings.flat = false)
    (ho : (scope.mapSingle field d items).outcome = .ok node) (hl : node.tags.links = some links) :
    node.IsLink scope.known 0 links ∧ links.optional = false := by
  by_cases hd : d.linksTo "Entry"
  · exact isLink_entryLink hf (d.nodup_linkTargets items) (mapSingle_of_linksTo hd ▸ ho) hl
  · rw [Node.links_of_basic (basic_of_mapSingle hd ho)] at hl
    cases hl

/-- Whatever a descriptor with links is mapped to is a choice between their targets with all lists
around it. -/
theorem isLink_mapKind (hf : scope.settings.flat = false)
    (ho : (scope.mapKind field d items).outcome = .ok node) (hl : node.tags.links = some links) :
    node.IsLink scope.known (d.listDepth items) links ∧ links.optional = false := by
  induction items generalizing field d node links with
  | nil => exact isLink_mapSingle hf ho hl
  | cons item inner ih =>
    by_cases hk : d.kind = "Array"
    · rw [mapKind_array hk] at ho
      obtain ⟨element, he, rfl⟩ := Report.outcome_map_eq_ok.1 ho
      rw [Node.links_listed] at hl
      obtain ⟨inside, hi, rfl⟩ := Option.map_eq_some_iff.1 hl
      rw [Descriptor.listDepth_array hk]
      split at he
      · next hd =>
        rw [if_pos hd]
        obtain ⟨h, hopt⟩ := isLink_entryLink hf (d.nodup_linkTargets _) he hi
        exact ⟨h.listed hopt, hopt⟩
      · next hd =>
        rw [if_neg hd]
        obtain ⟨h, hopt⟩ := ih he hi
        exact ⟨h.listed hopt, hopt⟩
    · rw [Descriptor.listDepth_of_ne hk]
      exact isLink_mapSingle hf (mapKind_of_ne hk ▸ ho) hl

theorem listDepth_pos (hk : d.kind = "Array")
    (ho : (scope.mapKind field d items).outcome = .ok node) (hl : node.tags.links = some links) :
    0 < d.listDepth items := by
  cases items with
  | nil =>
    have hd : ¬ d.linksTo "Entry" := by simp [Descriptor.linksTo, hk]
    rw [Node.links_of_basic (basic_of_mapSingle hd ho)] at hl
    cases hl
  | cons item inner =>
    rw [Descriptor.listDepth_array hk]
    split <;> omega

theorem listDepth_le_one_iff {f : Field} (ho : (scope.mapField f).outcome = .ok node)
    (hl : node.tags.links = some links) : f.listDepth ≤ 1 ↔ ¬ f.isNested := by
  obtain ⟨inner, hi, rfl⟩ := Report.outcome_map_eq_ok.1 (mapField_eq f ▸ ho)
  replace hl : ∃ links, inner.tags.links = some links := by
    split at hl
    · exact ⟨links, hl⟩
    · rw [Node.links_wrapped] at hl
      obtain ⟨inside, h, -⟩ := Option.map_eq_some_iff.1 hl
      exact ⟨inside, h⟩
  obtain ⟨links, hl⟩ := hl
  obtain ⟨id, name, d, items, required, localized⟩ := f
  simp only [Field.listDepth, Field.isNested]
  by_cases hk : d.kind = "Array"
  · cases items with
    | nil => simp [Descriptor.listDepth]
    | cons item rest =>
      by_cases hki : item.kind = "Array"
      · have hd : ¬ d.isEntryLink (item :: rest) := Descriptor.not_isEntryLink_of_nested hk hki
        rw [mapKind_array hk, if_neg hd] at hi
        obtain ⟨element, he, rfl⟩ := Report.outcome_map_eq_ok.1 hi
        obtain ⟨inside, hin, -⟩ := Option.map_eq_some_iff.1 hl
        have hpos := listDepth_pos hki he hin
        rw [Descriptor.listDepth_array hk, if_neg hd]
        simp only [hk, hki, List.head?_cons, Option.any_some, beq_self_eq_true, Bool.and_self,
          not_true, iff_false]
        omega
      · rw [Descriptor.listDepth_array hk, Descriptor.listDepth_of_ne hki]
        simp [hki]
  · rw [Descriptor.listDepth_of_ne hk]
    simp [hk]

/-- The node of a field with links is a choice between known targets, with all lists around it, and
optional where the field is not required. -/
theorem isLink_mapField (hf : scope.settings.flat = false) {f : Field}
    (ho : (scope.mapField f).outcome = .ok node) (hl : node.tags.links = some links) :
    node.IsLink scope.known f.listDepth links ∧ links.optional = !f.required := by
  obtain ⟨inner, hi, rfl⟩ := Report.outcome_map_eq_ok.1 (mapField_eq f ▸ ho)
  split at hl
  · next hr =>
    rw [if_pos hr, hr]
    exact isLink_mapKind hf hi hl
  · next hr =>
    rw [if_neg hr, (by simpa using hr : f.required = false)]
    rw [Node.links_wrapped] at hl
    obtain ⟨inside, hin, rfl⟩ := Option.map_eq_some_iff.1 hl
    obtain ⟨h, hopt⟩ := isLink_mapKind hf hi hin
    exact ⟨h.wrapped hopt, rfl⟩

end Scope

end ContentSchema
