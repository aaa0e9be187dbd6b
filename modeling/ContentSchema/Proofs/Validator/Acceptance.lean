import ContentSchema.Proofs.Entries
import ContentSchema.Proofs.Validator.Structure
import ContentSchema.Validator.Accepts

/-! # Acceptance by form

What a node accepts is decided by the form of the node that it stands for. Links are not looked at,
and a reference to a content type accepts what its schema accepts.
-/

namespace ContentSchema.Node

open Json

variable {schemas : List (String × Node)} {node body target : Node} {id : String}
  {v : Option Value}

/-- What a node that stands for itself asks of a value. -/
def Admits (schemas : List (String × Node)) (v : Option Value) : Node → Prop
  | primitive p _ => ∃ a, v = some a ∧ p.accepts a
  | object shape policy _ => ∃ members, v = some (.object members) ∧
      (policy = .strict → ∀ key ∈ Entries.keys members, key ∈ Entries.keys shape) ∧
      ∀ e ∈ shape, Accepts schemas e.2 (members.lookup e.1)
  | array element _ => ∃ items, v = some (.list items) ∧
      ∀ item ∈ items, Accepts schemas element (some item)
  | optional inner _ => ∀ a, v = some a → Accepts schemas inner (some a)
  | union branches _ => ∃ a, v = some a ∧ ∃ branch ∈ branches, Accepts schemas branch (some a)
  | unknown _ => True

theorem admits_withTags (tags : Tags) :
    (node.withTags tags).Admits schemas v ↔ node.Admits schemas v := by
  cases node <;> rfl

theorem admits_of_accepts (h : Accepts schemas node v) :
    ∃ body, StandsFor schemas node body ∧ body.Admits schemas v := by
  cases h with
  | unknown hs => exact ⟨_, hs, trivial⟩
  | primitive hs hp => exact ⟨_, hs, _, rfl, hp⟩
  | absent hs =>
    refine ⟨_, hs, ?_⟩
    intro a ha
    cases ha
  | present hs hv =>
    refine ⟨_, hs, ?_⟩
    rintro _ ⟨⟩
    exact hv
  | array hs hi => exact ⟨_, hs, _, rfl, hi⟩
  | union hs hm hv => exact ⟨_, hs, _, rfl, _, hm, hv⟩
  | object hs hk hm => exact ⟨_, hs, _, rfl, hk, hm⟩

theorem accepts_of_admits (hs : StandsFor schemas node body) (h : body.Admits schemas v) :
    Accepts schemas node v := by
  cases body with
  | primitive p tags =>
    obtain ⟨a, rfl, hp⟩ := h
    exact .primitive hs hp
  | object shape policy tags =>
    obtain ⟨members, rfl, hk, hm⟩ := h
    exact .object hs hk hm
  | array element tags =>
    obtain ⟨items, rfl, hi⟩ := h
    exact .array hs hi
  | optional inner tags =>
    cases v with
    | none => exact .absent hs
    | some a => exact .present hs (h a rfl)
  | union branches tags =>
    obtain ⟨a, rfl, branch, hm, hv⟩ := h
    exact .union hs hm hv
  | unknown tags => exact .unknown hs

theorem accepts_iff_admits (hs : StandsFor schemas node body) :
    Accepts schemas node v ↔ body.Admits schemas v := by
  constructor
  · intro h
    obtain ⟨b, hb, ha⟩ := admits_of_accepts h
    exact hs.unique hb ▸ ha
  · exact accepts_of_admits hs

theorem accepts_of_no_reference (h : node.tags.reference = none) :
    Accepts schemas node v ↔ node.Admits schemas v :=
  accepts_iff_admits (.itself h)

theorem accepts_builtin {b : Builtin} (h : node.tags.reference = some ⟨id, .builtin⟩)
    (hb : Builtin.lookup id = some b) : Accepts schemas node v ↔ b.node.Admits schemas v :=
  accepts_iff_admits (.builtin h hb)

theorem accepts_reference (h : node.tags.reference = some ⟨id, .contentType⟩)
    (ht : schemas.lookup id = some target) :
    Accepts schemas node v ↔ Accepts schemas target v := by
  constructor
  · intro hv
    obtain ⟨body, hs, ha⟩ := admits_of_accepts hv
    cases hs with
    | itself hr => simp_all
    | builtin hr _ => simp_all
    | contentType hr hl hs =>
      obtain ⟨rfl, -⟩ := NamedReference.mk.injEq .. ▸ Option.some.inj (h.symm.trans hr)
      obtain rfl := Option.some.inj (ht.symm.trans hl)
      exact accepts_of_admits hs ha
  · intro hv
    obtain ⟨body, hs, ha⟩ := admits_of_accepts hv
    exact accepts_of_admits (.contentType h ht hs) ha

/-- The body of a node does not depend on tags other than its reference. -/
theorem accepts_withTags {tags : Tags} (h : tags.reference = node.tags.reference) :
    Accepts schemas (node.withTags tags) v ↔ Accepts schemas node v := by
  suffices ∀ {a b : Node}, a.tags.reference = b.tags.reference →
      (a.Admits schemas v → b.Admits schemas v) → Accepts schemas a v → Accepts schemas b v from
    ⟨this (by rwa [tags_withTags]) (admits_withTags tags).1,
      this (by rw [tags_withTags, h]) (admits_withTags tags).2⟩
  intro a b hr hab ha
  obtain ⟨body, hs, hv⟩ := admits_of_accepts ha
  cases hs with
  | itself hn => exact accepts_of_admits (.itself (hr ▸ hn)) (hab hv)
  | builtin hn hb => exact accepts_of_admits (.builtin (hr ▸ hn) hb) hv
  | contentType hn ht hs => exact accepts_of_admits (.contentType (hr ▸ hn) ht hs) hv

theorem accepts_withTags_links {links : Option LinkSet} :
    Accepts schemas (node.withTags { node.tags with links := links }) v ↔
      Accepts schemas node v :=
  accepts_withTags rfl

theorem accepts_withLinks {links : LinkSet} :
    Accepts schemas (node.withLinks links) v ↔ Accepts schemas node v :=
  accepts_withTags_links

theorem accepts_listed :
    Accepts schemas node.listed v ↔
      ∃ items, v = some (.list items) ∧ ∀ item ∈ items, Accepts schemas node (some item) := by
  rw [accepts_of_no_reference rfl]
  simp only [listed, takeLinks, Admits, accepts_withTags_links]

theorem accepts_wrapped :
    Accepts schemas node.wrapped v ↔ ∀ a, v = some a → Accepts schemas node (some a) := by
  rw [accepts_of_no_reference rfl]
  simp only [wrapped, takeLinks, Admits, accepts_withTags_links]

theorem accepts_object {shape : List (String × Node)} {policy : ObjectPolicy} :
    Accepts schemas (.object shape policy .empty) v ↔
      ∃ members, v = some (.object members) ∧
        (policy = .strict → ∀ key ∈ Entries.keys members, key ∈ Entries.keys shape) ∧
        ∀ e ∈ shape, Accepts schemas e.2 (members.lookup e.1) :=
  accepts_of_no_reference rfl

theorem accepts_union {branches : List Node} {a : Value} :
    Accepts schemas (.union branches .empty) (some a) ↔
      ∃ branch ∈ branches, Accepts schemas branch (some a) := by
  rw [accepts_of_no_reference rfl]
  constructor
  · rintro ⟨_, ⟨⟩, h⟩
    exact h
  · intro h
    exact ⟨a, rfl, h⟩

theorem accepts_literal {value : String} :
    Accepts schemas (literal value) v ↔ v = some (.str value) := by
  rw [accepts_of_no_reference rfl]
  constructor
  · rintro ⟨a, rfl, hp⟩
    cases a with
    | str s => rw [beq_iff_eq.1 hp]
    | _ => cases hp
  · rintro rfl
    exact ⟨.str value, rfl, beq_self_eq_true value⟩

theorem accepts_record_singleton {key : String} (hn : ¬ Accepts schemas node none) :
    Accepts schemas (.record [(key, node)] .strip) v ↔
      Accepts schemas node (v.bind (·.member? key)) := by
  rw [record, Entries.ofList_eq_self (by simp), accepts_object]
  constructor
  · rintro ⟨members, rfl, -, h⟩
    exact h _ List.mem_cons_self
  · intro h
    rcases v with _ | _ | _ | _ | _ | _ | members
    case some.object =>
      refine ⟨members, rfl, ?_, ?_⟩
      · intro hs
        cases hs
      · intro e he
        obtain rfl := List.mem_singleton.1 he
        exact h
    all_goals exact absurd h hn

end ContentSchema.Node
