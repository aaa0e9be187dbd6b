import ContentSchema.Json.Value
import ContentSchema.Validator.Builtin

/-! # Accepted values

Which values a node lets pass. A reference stands for the schema that it names, and a member that an
object lacks is an absent value.
-/

namespace ContentSchema

open Json

/-- A date and time is told from other texts by the `T` between the two. -/
def Primitive.accepts : Primitive → Value → Bool
  | string, .str _ => true
  | dateTime, .str s => s.toList.contains 'T'
  | number, .num _ => true
  | integer, .num (.whole _) => true
  | boolean, .bool _ => true
  | literal value, .str s => s == value
  | _, _ => false

namespace Node

variable {schemas : List (String × Node)}

/-- The node whose body decides in place of a node. A built-in is its own body. -/
inductive StandsFor (schemas : List (String × Node)) : Node → Node → Prop
  | itself {node : Node} (h : node.tags.reference = none) : StandsFor schemas node node
  | builtin {node : Node} {name : String} {b : Builtin}
      (h : node.tags.reference = some ⟨name, .builtin⟩) (hb : Builtin.lookup name = some b) :
      StandsFor schemas node b.node
  | contentType {node target body : Node} {name : String}
      (h : node.tags.reference = some ⟨name, .contentType⟩) (ht : schemas.lookup name = some target)
      (hs : StandsFor schemas target body) : StandsFor schemas node body

/-- A schema whose references lead only to each other accepts nothing. -/
inductive Accepts (schemas : List (String × Node)) : Node → Option Value → Prop
  | unknown {node : Node} {tags : Tags} {v : Option Value}
      (h : StandsFor schemas node (.unknown tags)) : Accepts schemas node v
  | primitive {node : Node} {p : Primitive} {tags : Tags} {v : Value}
      (h : StandsFor schemas node (.primitive p tags)) (hp : p.accepts v) :
      Accepts schemas node (some v)
  | absent {node inner : Node} {tags : Tags} (h : StandsFor schemas node (.optional inner tags)) :
      Accepts schemas node none
  | present {node inner : Node} {tags : Tags} {v : Value}
      (h : StandsFor schemas node (.optional inner tags)) (hv : Accepts schemas inner (some v)) :
      Accepts schemas node (some v)
  | array {node element : Node} {tags : Tags} {items : List Value}
      (h : StandsFor schemas node (.array element tags))
      (hi : ∀ item ∈ items, Accepts schemas element (some item)) :
      Accepts schemas node (some (.list items))
  | union {node branch : Node} {branches : List Node} {tags : Tags} {v : Value}
      (h : StandsFor schemas node (.union branches tags)) (hm : branch ∈ branches)
      (hv : Accepts schemas branch (some v)) : Accepts schemas node (some v)
  | object {node : Node} {shape : List (String × Node)} {policy : ObjectPolicy} {tags : Tags}
      {members : List (String × Value)} (h : StandsFor schemas node (.object shape policy tags))
      (hk : policy = .strict → ∀ key ∈ Entries.keys members, key ∈ Entries.keys shape)
      (hs : ∀ entry ∈ shape, Accepts schemas entry.2 (members.lookup entry.1)) :
      Accepts schemas node (some (.object members))

theorem StandsFor.unique {node a b : Node} (ha : StandsFor schemas node a)
    (hb : StandsFor schemas node b) : a = b := by
  induction ha with
  | itself h => cases hb <;> simp_all
  | builtin h hl => cases hb <;> simp_all
  | contentType h ht _ ih =>
    cases hb with
    | itself h' => simp_all
    | builtin h' _ => simp_all
    | contentType h' ht' hs' =>
      obtain ⟨rfl, -⟩ := NamedReference.mk.injEq .. ▸ Option.some.inj (h.symm.trans h')
      exact ih (Option.some.inj (ht.symm.trans ht') ▸ hs')

theorem accepts_any (v : Option Value) : Accepts schemas any v := .unknown (.itself rfl)

theorem accepts_plain {p : Primitive} {v : Value} :
    Accepts schemas (plain p) (some v) ↔ p.accepts v := by
  refine ⟨fun h => ?_, .primitive (.itself rfl)⟩
  have hp : StandsFor schemas (plain p) (plain p) := .itself rfl
  cases h with
  | primitive h hv =>
    obtain ⟨rfl, -⟩ := Node.primitive.injEq .. ▸ hp.unique h
    exact hv
  | unknown h => exact absurd (hp.unique h) (by simp [plain])
  | present h _ => exact absurd (hp.unique h) (by simp [plain])
  | array h _ => exact absurd (hp.unique h) (by simp [plain])
  | union h _ _ => exact absurd (hp.unique h) (by simp [plain])
  | object h _ _ => exact absurd (hp.unique h) (by simp [plain])

end Node

end ContentSchema
