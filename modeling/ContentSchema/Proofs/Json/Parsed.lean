import ContentSchema.Proofs.Json.Grammar

/-! # Parsed documents

While tokens are taken in, the open containers hold all of them. So a text that is parsed into a
tree without broken parts spells that tree.
-/

namespace ContentSchema.Json

namespace Tree

theorem whole_list_iff {items : List Tree} : (list items).Whole ↔ ∀ t ∈ items, t.Whole := by
  constructor
  · rintro (_ | _ | _ | _ | h | _)
    exact h
  · exact .list

theorem whole_object_iff {members : List (Tree × Tree)} :
    (object members).Whole ↔ ∀ m ∈ members, (∃ s, m.1 = str s) ∧ m.2.Whole := by
  constructor
  · rintro (_ | _ | _ | _ | _ | ⟨hk, h⟩) m hm
    exact ⟨hk m hm, h m hm⟩
  · intro h
    exact .object (fun m hm => (h m hm).1) fun m hm => (h m hm).2

end Tree

theorem intercalate_snoc {α : Type} (separator part : List α) (parts : List (List α)) :
    List.intercalate separator (parts ++ [part]) = parts.flatMap (· ++ separator) ++ part := by
  induction parts with
  | nil => simp
  | cons p rest ih =>
    obtain ⟨q, later, hq⟩ : ∃ q later, rest ++ [part] = q :: later :=
      List.exists_cons_of_ne_nil (by simp)
    rw [List.cons_append, hq, List.intercalate_cons_cons, ← hq, ih]
    simp

theorem intercalate_append_separator {α : Type} (separator : List α) {parts : List (List α)}
    (hn : parts ≠ []) :
    List.intercalate separator parts ++ separator = parts.flatMap (· ++ separator) := by
  obtain ⟨first, last, rfl⟩ := (List.eq_nil_or_concat parts).resolve_left hn
  simp [intercalate_snoc]

namespace Frame

open Json.Tree

def opened : Frame → List Token
  | item items => .openList :: (itemTokens items.reverse).flatMap (· ++ [.comma])
  | afterItem items => .openList :: List.intercalate [.comma] (itemTokens items.reverse)
  | key members => .openObject :: (memberTokens members.reverse).flatMap (· ++ [.comma])
  | colon members k =>
    .openObject :: (memberTokens members.reverse).flatMap (· ++ [.comma]) ++ [.leaf k]
  | value members k =>
    .openObject :: (memberTokens members.reverse).flatMap (· ++ [.comma]) ++ [.leaf k, .colon]
  | afterMember members => .openObject :: List.intercalate [.comma] (memberTokens members.reverse)

/-- The tokens of all open containers, the innermost of which is first. -/
def taken (stack : List Frame) : List Token := stack.reverse.flatMap opened

inductive Whole : Frame → Prop
  | item {items : List Tree} (h : (list items).Whole) : Whole (item items)
  | afterItem {items : List Tree} (h : (list items).Whole) (hn : items ≠ []) :
    Whole (afterItem items)
  | key {members : List (Tree × Tree)} (h : (object members).Whole) : Whole (key members)
  | colon {members : List (Tree × Tree)} (h : (object members).Whole) (s : Option String) :
    Whole (colon members (.str s))
  | value {members : List (Tree × Tree)} (h : (object members).Whole) (s : Option String) :
    Whole (value members (.str s))
  | afterMember {members : List (Tree × Tree)} (h : (object members).Whole) (hn : members ≠ []) :
    Whole (afterMember members)

variable {stack outer : List Frame} {t : Tree}

@[simp] theorem taken_cons (frame : Frame) :
    taken (frame :: outer) = taken outer ++ frame.opened := by
  simp [taken]

theorem not_grammatical_fill (h : ¬ t.grammatical) : ¬ (fill t stack).grammatical := by
  induction stack generalizing t with
  | nil => exact h
  | cons frame outer ih =>
    cases frame <;>
      · refine ih fun hg => h ?_
        first
          | exact grammaticalItems_iff.1 hg t (by simp)
          | exact grammaticalMembers_iff.1 hg _ (List.mem_reverse.2 List.mem_cons_self)

end Frame

def Token.Proper : Token → Prop
  | .leaf t => t.Leaf
  | _ => True

namespace Progress

open Json.Frame Json.Tree

/-- What has been read so far holds the tokens that were taken in. -/
inductive Reflects (tokens : List Token) : Progress → Prop
  | reading {stack : List Frame} (hw : ∀ frame ∈ stack, frame.Whole)
    (ht : Frame.taken stack = tokens) : Reflects tokens (reading stack)
  | complete {root : Tree} (hw : root.Whole) (ht : root.tokens = tokens) :
    Reflects tokens (complete root)
  | trailing (root : Tree) : Reflects tokens (trailing root)
  | stopped {root : Tree} (h : ¬ root.grammatical) : Reflects tokens (stopped root)

variable {stack outer : List Frame} {tokens : List Token} {t : Tree}

theorem reflects_nil : Reflects [] (reading []) := .reading (by simp) rfl

theorem reflects_stop : Reflects tokens (stop stack) :=
  .stopped (not_grammatical_fill Bool.false_ne_true)

theorem reflects_settle (ht : t.Whole) (hs : ∀ frame ∈ stack, frame.Whole)
    (htokens : Frame.taken stack ++ t.tokens = tokens) : Reflects tokens (settle t stack) := by
  subst htokens
  unfold settle
  split
  · exact .complete ht rfl
  · next items outer =>
    rw [List.forall_mem_cons] at hs
    obtain ⟨⟨hi⟩, ho⟩ := hs
    refine .reading ?_ ?_
    · refine List.forall_mem_cons.2 ⟨.afterItem ?_ (List.cons_ne_nil _ _), ho⟩
      exact whole_list_iff.2 (List.forall_mem_cons.2 ⟨ht, whole_list_iff.1 hi⟩)
    · simp [opened, itemTokens_eq_map, intercalate_snoc]
  · next members k outer =>
    rw [List.forall_mem_cons] at hs
    obtain ⟨hv, ho⟩ := hs
    cases hv with
    | value hm s =>
      refine .reading ?_ ?_
      · refine List.forall_mem_cons.2 ⟨.afterMember ?_ (List.cons_ne_nil _ _), ho⟩
        exact whole_object_iff.2 (List.forall_mem_cons.2 ⟨⟨⟨s, rfl⟩, ht⟩, whole_object_iff.1 hm⟩)
      · simp [opened, memberTokens_eq_map, intercalate_snoc]
  · exact reflects_stop

theorem reflects_settleKey {members : List (Tree × Tree)} (hm : (Tree.object members).Whole)
    (ho : ∀ frame ∈ outer, frame.Whole)
    (htokens : Frame.taken (.key members :: outer) ++ [.leaf t] = tokens) :
    Reflects tokens (settleKey members outer t) := by
  subst htokens
  unfold settleKey
  split
  · next s => exact .reading (List.forall_mem_cons.2 ⟨.colon hm s, ho⟩) (by simp [opened])
  · exact reflects_stop

theorem reflects_opening {frame : Frame} (hf : frame.Whole) (hs : ∀ frame ∈ stack, frame.Whole)
    (htokens : Frame.taken stack ++ frame.opened = tokens) :
    Reflects tokens (opening frame stack) := by
  have hr : Reflects tokens (.reading (frame :: stack)) :=
    .reading (List.forall_mem_cons.2 ⟨hf, hs⟩) (by rw [taken_cons, htokens])
  unfold opening
  split
  · exact hr
  · exact hr
  · exact hr
  · exact reflects_stop

theorem reflects_take {token : Token} (hs : ∀ frame ∈ stack, frame.Whole) (hp : token.Proper) :
    Reflects (Frame.taken stack ++ [token]) (take stack token) := by
  have no_items : (Tree.list []).Whole := .list (by simp)
  have no_members : (Tree.object []).Whole := .object (by simp) (by simp)
  -- The cases are those of `take`, in its order; a list or an object is no key.
  unfold take
  split
  · next outer =>
    have ho := (List.forall_mem_cons.1 hs).2
    exact reflects_settle no_members ho (by simp [opened, Tree.tokens, memberTokens])
  · next members outer t =>
    obtain ⟨hk, ho⟩ := List.forall_mem_cons.1 hs
    cases hk with
    | key hm => exact reflects_settleKey hm ho rfl
  · exact reflects_stop
  · exact reflects_stop
  · next members k outer =>
    obtain ⟨hc, ho⟩ := List.forall_mem_cons.1 hs
    cases hc with
    | colon hm s => exact .reading (List.forall_mem_cons.2 ⟨.value hm s, ho⟩) (by simp [opened])
  · next members outer =>
    obtain ⟨hc, ho⟩ := List.forall_mem_cons.1 hs
    cases hc with
    | afterMember hm hn =>
      refine .reading (List.forall_mem_cons.2 ⟨.key hm, ho⟩) ?_
      rw [taken_cons, taken_cons, List.append_assoc]
      simp [opened, memberTokens_eq_map, intercalate_append_separator, hn]
  · next members outer =>
    obtain ⟨hc, ho⟩ := List.forall_mem_cons.1 hs
    cases hc with
    | afterMember hm hn =>
      refine reflects_settle ?_ ho ?_
      · exact whole_object_iff.2 fun m h => whole_object_iff.1 hm m (List.mem_reverse.1 h)
      · simp [opened, Tree.tokens]
  · next outer =>
    have ho := (List.forall_mem_cons.1 hs).2
    exact reflects_settle no_items ho (by simp [opened, Tree.tokens, itemTokens])
  · next items outer =>
    obtain ⟨hc, ho⟩ := List.forall_mem_cons.1 hs
    cases hc with
    | afterItem hi hn =>
      refine .reading (List.forall_mem_cons.2 ⟨.item hi, ho⟩) ?_
      rw [taken_cons, taken_cons, List.append_assoc]
      simp [opened, itemTokens_eq_map, intercalate_append_separator, hn]
  · next items outer =>
    obtain ⟨hc, ho⟩ := List.forall_mem_cons.1 hs
    cases hc with
    | afterItem hi hn =>
      refine reflects_settle ?_ ho ?_
      · exact whole_list_iff.2 fun t h => whole_list_iff.1 hi t (List.mem_reverse.1 h)
      · simp [opened, Tree.tokens]
  · next t _ =>
    exact reflects_settle (Leaf.whole hp) hs (by rw [Leaf.tokens hp])
  · exact reflects_opening (.item no_items) hs (by simp [opened, itemTokens])
  · exact reflects_opening (.key no_members) hs (by simp [opened, memberTokens])
  · exact reflects_stop

theorem reflects_next {progress : Progress} {token : Token} (h : Reflects tokens progress)
    (hp : token.Proper) : Reflects (tokens ++ [token]) (progress.next token) := by
  cases h with
  | reading hw ht => exact ht ▸ reflects_take hw hp
  | complete => exact .trailing _
  | trailing => exact .trailing _
  | stopped h => exact .stopped h

theorem reflects_foldl {before : List Token} {progress : Progress} (h : Reflects before progress)
    (hp : ∀ token ∈ tokens, token.Proper) :
    Reflects (before ++ tokens) (tokens.foldl next progress) := by
  induction tokens generalizing before progress with
  | nil => simpa using h
  | cons token rest ih =>
    rw [List.forall_mem_cons] at hp
    simpa using ih (reflects_next h hp.1) hp.2

end Progress

namespace Token

theorem proper_of_first? {text rest : List Char} {token : Token}
    (h : first? text = some (token, rest)) : token.Proper := by
  unfold first? at h
  split at h
  all_goals first
    | simp at h; done
    | obtain ⟨rfl, -⟩ := Prod.mk.injEq .. ▸ Option.some.inj h
      first
        | exact trivial
        | constructor
    | obtain ⟨⟨_, _⟩, -, he⟩ := Option.map_eq_some_iff.1 h
      obtain ⟨rfl, -⟩ := Prod.mk.injEq .. ▸ he
      constructor

theorem proper_of_cut (text : List Char) : ∀ token ∈ cut text, token.Proper := by
  fun_induction cut text with
  | case1 => simp
  | case2 => simp [Proper]
  | case3 text c tail hd token rest hf ih =>
    exact List.forall_mem_cons.2 ⟨proper_of_first? hf, ih⟩

end Token

namespace Document

open Json.Frame

theorem tokens_of_ofTokens {tokens : List Token} {t : Tree} (hp : ∀ token ∈ tokens, token.Proper)
    (h : ofTokens tokens = ⟨t, false⟩) (hg : t.grammatical) : t.Whole ∧ t.tokens = tokens := by
  have hr := Progress.reflects_foldl Progress.reflects_nil hp
  unfold ofTokens at h
  generalize tokens.foldl Progress.next (.reading []) = progress at h hr
  cases hr with
  | @reading stack =>
    obtain ⟨rfl, -⟩ := Document.mk.injEq .. ▸ h
    exact absurd hg (not_grammatical_fill Bool.false_ne_true)
  | complete hw ht =>
    obtain ⟨rfl, -⟩ := Document.mk.injEq .. ▸ h
    exact ⟨hw, ht⟩
  | trailing => cases h
  | stopped hn =>
    obtain ⟨rfl, -⟩ := Document.mk.injEq .. ▸ h
    exact absurd hg hn

/-- A text spells a tree exactly if it is parsed into it, to the end and with no broken part. -/
theorem spelledBy_iff {t : Tree} {text : String} :
    t.SpelledBy text ↔ ofText text = ⟨t, false⟩ ∧ t.grammatical := by
  constructor
  · intro h
    exact ⟨ofText_of_spelledBy h, h.1.grammatical⟩
  · rintro ⟨h, hg⟩
    obtain ⟨hw, ht⟩ := tokens_of_ofTokens (Token.proper_of_cut _) h hg
    exact ⟨hw, ht.symm⟩

end Document

end ContentSchema.Json
