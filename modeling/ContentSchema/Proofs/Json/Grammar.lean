import ContentSchema.Json.Parser
import Mathlib.Data.List.Forall2

/-! # The grammar of documents

A text spells a tree if its tokens are those that the tree is written with. Such a text is parsed
into that tree, and every text that is parsed without a broken part spells the tree that it is
parsed into.
-/

namespace ContentSchema.Json

namespace Tree

mutual

def tokens : Tree → List Token
  | list items => .openList :: List.intercalate [.comma] (itemTokens items) ++ [.closeList]
  | object members =>
    .openObject :: List.intercalate [.comma] (memberTokens members) ++ [.closeObject]
  | broken => [.junk]
  | t => [.leaf t]

def itemTokens : List Tree → List (List Token)
  | [] => []
  | t :: rest => t.tokens :: itemTokens rest

def memberTokens : List (Tree × Tree) → List (List Token)
  | [] => []
  | (key, t) :: rest => (.leaf key :: .colon :: t.tokens) :: memberTokens rest

end

/-- A tree without a broken part in which every key is a string. -/
inductive Whole : Tree → Prop
  | null : Whole null
  | bool (b : Bool) : Whole (bool b)
  | num (n : Option Number) : Whole (num n)
  | str (s : Option String) : Whole (str s)
  | list {items : List Tree} (h : ∀ t ∈ items, Whole t) : Whole (list items)
  | object {members : List (Tree × Tree)} (hk : ∀ m ∈ members, ∃ s, m.1 = str s)
      (h : ∀ m ∈ members, Whole m.2) : Whole (object members)

/-- A tree that is written with one token. -/
inductive Leaf : Tree → Prop
  | null : Leaf null
  | bool (b : Bool) : Leaf (bool b)
  | num (n : Option Number) : Leaf (num n)
  | str (s : Option String) : Leaf (str s)

/-- The text is the tree, with blanks where they may be. -/
def SpelledBy (t : Tree) (text : String) : Prop := t.Whole ∧ Token.cut text.toList = t.tokens

variable {t : Tree}

theorem Leaf.whole (h : t.Leaf) : t.Whole := by
  cases h with
  | null => exact .null
  | bool b => exact .bool b
  | num n => exact .num n
  | str s => exact .str s

theorem Leaf.tokens (h : t.Leaf) : t.tokens = [.leaf t] := by
  cases h <;> rfl

theorem itemTokens_eq_map (items : List Tree) : itemTokens items = items.map tokens := by
  induction items with
  | nil => rfl
  | cons t rest ih => rw [itemTokens, ih, List.map_cons]

theorem memberTokens_eq_map (members : List (Tree × Tree)) :
    memberTokens members = members.map fun m => .leaf m.1 :: .colon :: m.2.tokens := by
  induction members with
  | nil => rfl
  | cons m rest ih => rw [memberTokens, ih, List.map_cons]

theorem grammaticalItems_iff {items : List Tree} :
    grammaticalItems items = true ↔ ∀ t ∈ items, t.grammatical = true := by
  induction items with
  | nil => simp [grammaticalItems]
  | cons t rest ih => simp [grammaticalItems, ih]

theorem grammaticalMembers_iff {members : List (Tree × Tree)} :
    grammaticalMembers members = true ↔ ∀ m ∈ members, m.2.grammatical = true := by
  induction members with
  | nil => simp [grammaticalMembers]
  | cons m rest ih => simp only [grammaticalMembers, Bool.and_eq_true, ih, List.forall_mem_cons]

theorem Whole.grammatical (h : t.Whole) : t.grammatical = true := by
  induction h with
  | null => rfl
  | bool b => rfl
  | num n => rfl
  | str s => rfl
  | list _ ih => exact grammaticalItems_iff.2 ih
  | object _ _ ih => exact grammaticalMembers_iff.2 ih

mutual

theorem grammatical_of_value? : ∀ {t : Tree} {room : Nat} {v : Value},
    t.value? room = some v → t.grammatical = true
  | null, _, _, _ => rfl
  | bool _, _, _, _ => rfl
  | num _, _, _, _ => rfl
  | str _, _, _, _ => rfl
  | list items, room, v, h => by
    rw [value?] at h
    split at h
    · cases h
    · obtain ⟨values, hv, -⟩ := Option.map_eq_some_iff.1 h
      exact grammatical_of_itemValues? hv
  | object members, room, v, h => by
    rw [value?] at h
    split at h
    · cases h
    · obtain ⟨entries, hv, -⟩ := Option.map_eq_some_iff.1 h
      exact grammatical_of_memberValues? hv

theorem grammatical_of_itemValues? : ∀ {items : List Tree} {room : Nat} {values : List Value},
    itemValues? room items = some values → grammaticalItems items = true
  | [], _, _, _ => rfl
  | t :: rest, room, values, h => by
    obtain ⟨v, hv, h⟩ := Option.bind_eq_some_iff.1 h
    obtain ⟨later, hr, -⟩ := Option.bind_eq_some_iff.1 h
    rw [grammaticalItems, grammatical_of_value? hv, grammatical_of_itemValues? hr]
    rfl

theorem grammatical_of_memberValues? : ∀ {members : List (Tree × Tree)} {room : Nat}
    {entries : List (String × Value)},
    memberValues? room members = some entries → grammaticalMembers members = true
  | [], _, _, _ => rfl
  | (.str (some key), t) :: rest, room, entries, h => by
    obtain ⟨v, hv, h⟩ := Option.bind_eq_some_iff.1 h
    obtain ⟨later, hr, -⟩ := Option.bind_eq_some_iff.1 h
    rw [grammaticalMembers, grammatical_of_value? hv, grammatical_of_memberValues? hr]
    rfl

end

end Tree

/-- The text has come to a place for a value. -/
inductive Frame.Awaits : List Frame → Prop
  | document : Awaits []
  | item (items : List Tree) (outer : List Frame) : Awaits (.item items :: outer)
  | value (members : List (Tree × Tree)) (key : Tree) (outer : List Frame) :
      Awaits (.value members key :: outer)

namespace Progress

open Json.Frame Json.Tree

variable {stack outer : List Frame} {ts : List Token}

theorem next_leaf (h : Awaits stack) (t : Tree) :
    next (reading stack) (.leaf t) = settle t stack := by
  cases h with
  | document => rfl
  | item items outer => cases items <;> rfl
  | value => rfl

theorem next_openList (h : Awaits stack) :
    next (reading stack) .openList = reading (.item [] :: stack) := by
  cases h with
  | document => rfl
  | item items outer => cases items <;> rfl
  | value => rfl

theorem next_openObject (h : Awaits stack) :
    next (reading stack) .openObject = reading (.key [] :: stack) := by
  cases h with
  | document => rfl
  | item items outer => cases items <;> rfl
  | value => rfl

theorem next_key (members : List (Tree × Tree)) (key : Option String) :
    next (reading (.key members :: outer)) (.leaf (.str key)) =
      reading (.colon members (.str key) :: outer) := by
  cases members <;> rfl

def Reads (t : Tree) : Prop :=
  ∀ stack ts, Awaits stack →
    (t.tokens ++ ts).foldl next (reading stack) = ts.foldl next (settle t stack)

theorem reads_of_leaf {t : Tree} (h : t.Leaf) : Reads t := by
  intro _ ts hs
  rw [h.tokens]
  exact congrArg (ts.foldl next) (next_leaf hs _)

theorem foldl_items {items : List Tree} (h : ∀ t ∈ items, Reads t) (hne : items ≠ [])
    (before : List Tree) :
    (List.intercalate [.comma] (itemTokens items) ++ .closeList :: ts).foldl next
        (reading (.item before :: outer)) =
      ts.foldl next (settle (.list (before.reverse ++ items)) outer) := by
  induction items generalizing before with
  | nil => contradiction
  | cons t rest ih =>
    have ht := h t List.mem_cons_self
    cases rest with
    | nil =>
      rw [itemTokens, itemTokens, List.intercalate_singleton, ht _ _ (.item _ _)]
      simp [settle, next, take]
    | cons u rest =>
      have hr := ih (fun u hu => h u (List.mem_cons_of_mem t hu)) (List.cons_ne_nil _ _)
        (t :: before)
      rw [itemTokens] at hr
      rw [itemTokens, itemTokens, List.intercalate_cons_cons, List.append_assoc,
        List.append_assoc, ht _ _ (.item _ _)]
      simpa [settle, next, take] using hr

theorem foldl_member {key : Option String} {t : Tree} (h : Reads t)
    (before : List (Tree × Tree)) :
    ((.leaf (.str key) :: .colon :: t.tokens) ++ ts).foldl next (reading (.key before :: outer)) =
      ts.foldl next (reading (.afterMember ((.str key, t) :: before) :: outer)) := by
  rw [List.cons_append, List.cons_append, List.foldl_cons, next_key]
  exact h _ _ (.value _ _ _)

theorem foldl_members {members : List (Tree × Tree)} (hk : ∀ m ∈ members, ∃ s, m.1 = .str s)
    (h : ∀ m ∈ members, Reads m.2) (hne : members ≠ []) (before : List (Tree × Tree)) :
    (List.intercalate [.comma] (memberTokens members) ++ .closeObject :: ts).foldl next
        (reading (.key before :: outer)) =
      ts.foldl next (settle (.object (before.reverse ++ members)) outer) := by
  induction members generalizing before with
  | nil => contradiction
  | cons m rest ih =>
    obtain ⟨key, t⟩ := m
    rw [List.forall_mem_cons] at h hk
    obtain ⟨⟨s, rfl⟩, hk⟩ := hk
    cases rest with
    | nil =>
      rw [memberTokens, memberTokens, List.intercalate_singleton, foldl_member h.1]
      simp [next, take]
    | cons n rest =>
      have hr := ih hk h.2 (List.cons_ne_nil _ _) ((.str s, t) :: before)
      rw [memberTokens] at hr
      rw [memberTokens, memberTokens, List.intercalate_cons_cons, List.append_assoc,
        List.append_assoc, foldl_member h.1]
      simpa [next, take] using hr

theorem reads_of_whole {t : Tree} (h : t.Whole) : Reads t := by
  induction h with
  | null => exact reads_of_leaf .null
  | bool b => exact reads_of_leaf (.bool b)
  | num n => exact reads_of_leaf (.num n)
  | str s => exact reads_of_leaf (.str s)
  | @list items _ ih =>
    intro stack ts hs
    rw [Tree.tokens, List.cons_append, List.cons_append, List.foldl_cons, next_openList hs]
    cases items with
    | nil => rfl
    | cons t rest => simpa using foldl_items ih (List.cons_ne_nil _ _) []
  | @object members hk _ ih =>
    intro stack ts hs
    rw [Tree.tokens, List.cons_append, List.cons_append, List.foldl_cons, next_openObject hs]
    cases members with
    | nil => rfl
    | cons m rest => simpa using foldl_members hk ih (List.cons_ne_nil _ _) []

end Progress

namespace Document

variable {t : Tree}

/-- The tokens of a tree are parsed into it. -/
theorem ofTokens_tokens (h : t.Whole) : ofTokens t.tokens = ⟨t, false⟩ := by
  have hr := Progress.reads_of_whole h [] [] .document
  rw [List.append_nil] at hr
  rw [ofTokens, hr]
  rfl

theorem ofText_of_spelledBy {text : String} (h : t.SpelledBy text) : ofText text = ⟨t, false⟩ := by
  rw [ofText, h.2, ofTokens_tokens h.1]

end Document

end ContentSchema.Json
