import ContentSchema.Json.Reader
import ContentSchema.Proofs.Json.Cutting
import ContentSchema.Proofs.Json.Grammar

/-! # Written text is read back

The text of a value, on one line or over several, is parsed into the tree of that value. Numbers
are left out: their text is a matter of its own.
-/

namespace ContentSchema.Json

namespace Value

mutual

def tokens : Value → List Token
  | null => [.leaf .null]
  | bool b => [.leaf (.bool b)]
  | num n => [.leaf (.num (some n))]
  | str s => [.leaf (.str (some s))]
  | list items => .openList :: List.intercalate [.comma] (itemTokens items) ++ [.closeList]
  | object members =>
    .openObject :: List.intercalate [.comma] (memberTokens members) ++ [.closeObject]

def itemTokens : List Value → List (List Token)
  | [] => []
  | v :: rest => v.tokens :: itemTokens rest

def memberTokens : List (String × Value) → List (List Token)
  | [] => []
  | (key, v) :: rest => (.leaf (.str (some key)) :: .colon :: v.tokens) :: memberTokens rest

end

/-- A value without numbers in which no object has a key twice. -/
inductive Plain : Value → Prop
  | null : Plain null
  | bool (b : Bool) : Plain (bool b)
  | str (s : String) : Plain (str s)
  | list {items : List Value} (h : ∀ v ∈ items, Plain v) : Plain (list items)
  | object {members : List (String × Value)} (hk : (Entries.keys members).Nodup)
      (h : ∀ e ∈ members, Plain e.2) : Plain (object members)

theorem itemTokens_eq_map (items : List Value) : itemTokens items = items.map tokens := by
  induction items with
  | nil => rfl
  | cons v rest ih => rw [itemTokens, ih, List.map_cons]

theorem memberTokens_eq_map (members : List (String × Value)) :
    memberTokens members =
      members.map fun e => .leaf (.str (some e.1)) :: .colon :: e.2.tokens := by
  induction members with
  | nil => rfl
  | cons e rest ih => rw [memberTokens, ih, List.map_cons]

theorem compactItems_eq_map (items : List Value) : compactItems items = items.map compact := by
  induction items with
  | nil => rfl
  | cons v rest ih => rw [compactItems, ih, List.map_cons]

theorem compactMembers_eq_map (members : List (String × Value)) :
    compactMembers members = members.map fun e => quote e.1 ++ ":" ++ e.2.compact := by
  induction members with
  | nil => rfl
  | cons e rest ih => rw [compactMembers, ih, List.map_cons]

theorem prettyItems_eq_map (level : Nat) (items : List Value) :
    prettyItems level items = items.map (·.prettyAt level) := by
  induction items with
  | nil => rfl
  | cons v rest ih => rw [prettyItems, ih, List.map_cons]

theorem prettyMembers_eq_map (level : Nat) (members : List (String × Value)) :
    prettyMembers level members = members.map fun e => quote e.1 ++ ": " ++ e.2.prettyAt level := by
  induction members with
  | nil => rfl
  | cons e rest ih => rw [prettyMembers, ih, List.map_cons]

theorem gives_compact {v : Value} (h : v.Plain) : Gives v.compact v.tokens := by
  induction h with
  | null => exact .null
  | bool b => exact .bool b
  | str s => exact .quote s
  | @list items _ ih =>
    have hi : List.Forall₂ Gives (compactItems items) (itemTokens items) := by
      rw [compactItems_eq_map, itemTokens_eq_map, List.forall₂_map_left_iff,
        List.forall₂_map_right_iff, List.forall₂_same]
      exact ih
    exact (Gives.openList.append (.intercalate .comma hi)).append .closeList
  | @object members _ _ ih =>
    have hm : List.Forall₂ Gives (compactMembers members) (memberTokens members) := by
      rw [compactMembers_eq_map, memberTokens_eq_map, List.forall₂_map_left_iff,
        List.forall₂_map_right_iff, List.forall₂_same]
      intro e he
      exact ((Gives.quote e.1).append .colon).append (ih e he)
    exact (Gives.openObject.append (.intercalate .comma hm)).append .closeObject

theorem gives_prettyAt {v : Value} (h : v.Plain) (level : Nat) :
    Gives (v.prettyAt level) v.tokens := by
  induction h generalizing level with
  | null => exact .null
  | bool b => exact .bool b
  | str s => exact .quote s
  | @list items _ ih =>
    have hi : List.Forall₂ Gives (prettyItems (level + 1) items) (itemTokens items) := by
      rw [prettyItems_eq_map, itemTokens_eq_map, List.forall₂_map_left_iff,
        List.forall₂_map_right_iff, List.forall₂_same]
      intro v hv
      exact ih v hv _
    exact .block .openList .closeList hi
  | @object members _ _ ih =>
    have blank : Gives " " [] := .blanks (by simp [Token.isBlank])
    have colon : Gives ": " [.colon] := Gives.colon.append blank
    have hm : List.Forall₂ Gives (prettyMembers (level + 1) members) (memberTokens members) := by
      rw [prettyMembers_eq_map, memberTokens_eq_map, List.forall₂_map_left_iff,
        List.forall₂_map_right_iff, List.forall₂_same]
      intro e he
      exact ((Gives.quote e.1).append colon).append (ih e he _)
    exact .block .openObject .closeObject hm

end Value

namespace Tree

open Value (Plain)

theorem ofItems_eq_map (items : List Value) : ofItems items = items.map ofValue := by
  induction items with
  | nil => rfl
  | cons v rest ih => rw [ofItems, ih, List.map_cons]

theorem ofMembers_eq_map (members : List (String × Value)) :
    ofMembers members = members.map fun e => (str (some e.1), ofValue e.2) := by
  induction members with
  | nil => rfl
  | cons e rest ih => rw [ofMembers, ih, List.map_cons]

theorem whole_ofValue {v : Value} (h : v.Plain) : (ofValue v).Whole := by
  induction h with
  | null => exact .null
  | bool b => exact .bool b
  | str s => exact .str _
  | list _ ih =>
    rw [ofValue, ofItems_eq_map]
    exact .list (List.forall_mem_map.2 ih)
  | object _ _ ih =>
    rw [ofValue, ofMembers_eq_map]
    exact .object (List.forall_mem_map.2 fun e _ => ⟨_, rfl⟩) (List.forall_mem_map.2 ih)

/-- A value is written with the tokens of its tree. -/
theorem tokens_ofValue {v : Value} (h : v.Plain) : (ofValue v).tokens = v.tokens := by
  induction h with
  | null => rfl
  | bool b => rfl
  | str s => rfl
  | @list items _ ih =>
    have hi : (ofItems items).map tokens = items.map Value.tokens := by
      rw [ofItems_eq_map, List.map_map]
      exact List.map_congr_left ih
    rw [ofValue, tokens, Value.tokens, itemTokens_eq_map, Value.itemTokens_eq_map, hi]
  | @object members _ _ ih =>
    have hm : (ofMembers members).map (fun m => Token.leaf m.1 :: .colon :: m.2.tokens) =
        members.map fun e => .leaf (.str (some e.1)) :: .colon :: e.2.tokens := by
      rw [ofMembers_eq_map, List.map_map]
      exact List.map_congr_left fun e he => congrArg _ (congrArg _ (ih e he))
    rw [ofValue, tokens, Value.tokens, memberTokens_eq_map, Value.memberTokens_eq_map, hm]

theorem spelledBy_of_gives {t : Tree} {text : String} (h : t.Whole) (ht : Gives text t.tokens) :
    t.SpelledBy text :=
  ⟨h, by simpa only [List.append_nil, Token.cut_nil] using ht []⟩

theorem spelledBy_compact {v : Value} (h : v.Plain) : (ofValue v).SpelledBy v.compact :=
  spelledBy_of_gives (whole_ofValue h) (tokens_ofValue h ▸ Value.gives_compact h)

theorem spelledBy_pretty {v : Value} (h : v.Plain) : (ofValue v).SpelledBy v.pretty :=
  spelledBy_of_gives (whole_ofValue h) (tokens_ofValue h ▸ Value.gives_prettyAt h 0)

end Tree

namespace Document

theorem ofText_compact {v : Value} (h : v.Plain) : ofText v.compact = ⟨Tree.ofValue v, false⟩ :=
  ofText_of_spelledBy (Tree.spelledBy_compact h)

theorem ofText_pretty {v : Value} (h : v.Plain) : ofText v.pretty = ⟨Tree.ofValue v, false⟩ :=
  ofText_of_spelledBy (Tree.spelledBy_pretty h)

end Document

end ContentSchema.Json
