import ContentSchema.Proofs.Source.Expr
import ContentSchema.Proofs.Text.Apart

/-! # Unambiguous expressions

The text of an untagged node tells it from all others: how it begins says which form the node has,
and each part of it ends before the comma or the bracket that comes after it.
-/

namespace ContentSchema

open Source

namespace Node

def Untagged (node : Node) : Prop := ∀ n ∈ node.walk, n.tags = .empty

theorem untagged_iff {node : Node} :
    node.Untagged ↔ node.tags = .empty ∧ ∀ child ∈ node.children, child.Untagged :=
  forall_mem_walk_iff

mutual

/-- The expression of the node without its tags. -/
def source : Node → Expr
  | primitive p _ => .primitive p
  | object shape policy _ => .object (shapeSource shape) policy
  | array element _ => .array element.source
  | optional inner _ => .optional inner.source
  | union branches _ => .union (branchSources branches)
  | unknown _ => .unknown

def shapeSource : List (String × Node) → List (String × Expr)
  | [] => []
  | (key, node) :: rest => (key, node.source) :: shapeSource rest

def branchSources : List Node → List Expr
  | [] => []
  | node :: rest => node.source :: branchSources rest

end

theorem shapeSource_eq_map (shape : List (String × Node)) :
    shapeSource shape = shape.map fun e => (e.1, e.2.source) := by
  induction shape with
  | nil => rfl
  | cons e rest ih => rw [shapeSource, ih, List.map_cons]

theorem branchSources_eq_map (branches : List Node) :
    branchSources branches = branches.map source := by
  induction branches with
  | nil => rfl
  | cons b rest ih => rw [branchSources, ih, List.map_cons]

theorem eq_source_of_expr {follow : Follow} {node : Node} {e : Expr} (hu : node.Untagged)
    (h : (node.expr follow).outcome = .ok e) : e = node.source := by
  induction node using induct generalizing e with
  | step node ih =>
    obtain ⟨ht, hc⟩ := untagged_iff.1 hu
    rw [expr_of_untagged ht] at h
    cases node with
    | primitive p tags => exact (Except.ok.inj h).symm
    | object shape policy tags =>
      rw [body, shapeExprs_eq_mapM] at h
      obtain ⟨members, hm, rfl⟩ := Report.outcome_map_eq_ok.1 h
      have hmap : members.map id = shape.map fun e => (e.1, e.2.source) := by
        refine Report.map_eq_of_mapM (fun entry hentry member hmember => ?_) hm
        obtain ⟨e, he, rfl⟩ := Report.outcome_map_eq_ok.1 hmember
        have hchild := List.mem_map_of_mem (f := Prod.snd) hentry
        exact congrArg (Prod.mk entry.1) (ih entry.2 hchild (hc _ hchild) he)
      rw [source, shapeSource_eq_map, ← hmap, List.map_id]
    | array element tags =>
      obtain ⟨e, he, rfl⟩ := Report.outcome_map_eq_ok.1 h
      exact congrArg Expr.array (ih element List.mem_cons_self (hc _ List.mem_cons_self) he)
    | optional inner tags =>
      obtain ⟨e, he, rfl⟩ := Report.outcome_map_eq_ok.1 h
      exact congrArg Expr.optional (ih inner List.mem_cons_self (hc _ List.mem_cons_self) he)
    | union branches tags =>
      rw [body] at h
      split at h
      · cases h
      · rw [branchExprs_eq_mapM] at h
        obtain ⟨es, hm, rfl⟩ := Report.outcome_map_eq_ok.1 h
        have hmap : es.map id = branches.map source :=
          Report.map_eq_of_mapM (fun b hb e he => ih b hb (hc b hb) he) hm
        rw [source, branchSources_eq_map, ← hmap, List.map_id]
    | unknown tags => exact (Except.ok.inj h).symm

/-- The characters that the node is written with. -/
def text (level : Nat) (node : Node) : List Char := (node.source.render level).toList

variable {node : Node} {level : Nat} {tags : Tags}

/-- A call of a function, from the bracket on as it is. -/
def call (name : String) (arguments : List Char) : List Char :=
  "z.".toList ++ (name.toList ++ '(' :: arguments)

theorem text_unknown : (unknown tags).text level = call "unknown" [')'] := by
  simp [text, source, Expr.render, call]

theorem text_array : (array node tags).text level = call "array" (node.text level ++ [')']) := by
  simp [text, source, Expr.render, call]

theorem text_optional :
    (optional node tags).text level = node.text level ++ ".optional()".toList := by
  simp [text, source, Expr.render]

theorem renderBranches_branchSources (branches : List Node) :
    Expr.renderBranches level (branchSources branches) =
      branches.map fun b => b.source.render level := by
  induction branches with
  | nil => rfl
  | cons b rest ih => rw [branchSources, Expr.renderBranches, ih, List.map_cons]

theorem renderMembers_shapeSource (shape : List (String × Node)) :
    Expr.renderMembers level (shapeSource shape) = shape.map fun e =>
      Text.indent level ++ Text.propertyName e.1 ++ ": " ++ e.2.source.render level ++ "," := by
  induction shape with
  | nil => rfl
  | cons e rest ih => rw [shapeSource, Expr.renderMembers, ih, List.map_cons]

def branchText (level : Nat) (branch : Node) : List Char := ", ".toList ++ branch.text level

theorem text_union {branches : List Node} (h : branches ≠ []) :
    ∃ inner, (union branches tags).text level = call "union" ('[' :: (inner ++ "])".toList)) ∧
      ", ".toList ++ inner = branches.flatMap (branchText level) := by
  have hne : (branches.map fun b => b.source.render level) ≠ [] := by simpa using h
  have hparts := Text.separator_append_intercalate ", " hne
  rw [List.flatMap_map] at hparts
  refine ⟨_, ?_, hparts⟩
  simp [text, source, Expr.render, Expr.unionText, renderBranches_branchSources, call]

theorem text_union_nil : (union [] tags).text level = call "union" ('[' :: "])".toList) := by
  simp [text, source, branchSources, Expr.render, Expr.renderBranches, Expr.unionText, call]

def entryText (level : Nat) (entry : String × Node) : List Char :=
  '\n' :: ((Text.indent (level + 1)).toList ++ ((Text.propertyName entry.1).toList ++
    ':' :: ' ' :: (entry.2.text (level + 1) ++ [','])))

def closingText (level : Nat) : List Char := '\n' :: ((Text.indent level).toList ++ "\x7d)".toList)

theorem text_object_nil (policy : ObjectPolicy) : (object [] policy tags).text level =
    call "object" ('\x7b' :: ("\x7d)".toList ++ (Expr.policyText policy).toList)) := by
  simp [text, source, shapeSource, Expr.render, Expr.renderMembers, Expr.objectText, call]

theorem text_object {shape : List (String × Node)} (policy : ObjectPolicy) (h : shape ≠ []) :
    (object shape policy tags).text level = call "object" ('\x7b' ::
      (shape.flatMap (entryText level) ++ (closingText level ++
        (Expr.policyText policy).toList))) := by
  have hne : Expr.renderMembers (level + 1) (shapeSource shape) ≠ [] := by
    rw [renderMembers_shapeSource]
    simpa using h
  have hlines : '\n' :: (String.intercalate "\n"
      (Expr.renderMembers (level + 1) (shapeSource shape))).toList =
        shape.flatMap (entryText level) := by
    refine (Text.separator_append_intercalate "\n" hne).trans ?_
    rw [renderMembers_shapeSource, List.flatMap_map]
    refine List.flatMap_congr fun e _ => ?_
    simp [entryText, text]
  rw [← hlines]
  simp [text, source, Expr.render, Expr.objectText, hne, closingText, call]

/-- No method is called on what comes before. -/
def Stops (rest : List Char) : Prop := rest.head? ≠ some '.'

/-- What comes before is made optional so many times. -/
def options (n : Nat) : List Char := (List.replicate n ".optional()".toList).flatten

theorem options_succ (n : Nat) : options (n + 1) = ".optional()".toList ++ options n := by
  rw [options, options, List.replicate_succ, List.flatten_cons]

/-- If a method is called on what comes before, it is one that makes it optional. -/
def OptionalAtMost (rest : List Char) : Prop :=
  ∀ c later, rest = '.' :: c :: later → c = 'o'

variable {rest rest' : List Char} {m n : Nat}

theorem OptionalAtMost.ne (h : OptionalAtMost rest) {c : Char} (hc : c ≠ 'o') (later : List Char) :
    rest ≠ '.' :: c :: later :=
  fun he => hc (h c later he)

theorem optionalAtMost_options (h : Stops rest) (n : Nat) : OptionalAtMost (options n ++ rest) := by
  intro c later he
  cases n with
  | zero =>
    rw [options, List.replicate_zero, List.flatten_nil, List.nil_append] at he
    rw [Stops, he] at h
    exact absurd rfl h
  | succ n =>
    rw [options_succ] at he
    exact (List.cons.inj (List.cons.inj he).2).1.symm

theorem eq_of_options_append (h : Stops rest) (h' : Stops rest')
    (he : options m ++ rest = options n ++ rest') : m = n ∧ rest = rest' := by
  have hne {rest rest' : List Char} (h : Stops rest) (n : Nat) :
      rest ≠ options (n + 1) ++ rest' := by
    rintro rfl
    exact h (by rw [options_succ]; rfl)
  induction m generalizing n with
  | zero =>
    cases n with
    | zero => exact ⟨rfl, he⟩
    | succ n => exact absurd he (hne h n)
  | succ m ih =>
    cases n with
    | zero => exact absurd he.symm (hne h' m)
    | succ n =>
      rw [options_succ, options_succ, List.append_assoc, List.append_assoc,
        List.append_cancel_left_eq] at he
      obtain ⟨rfl, hr⟩ := ih he
      exact ⟨rfl, hr⟩

theorem eq_of_primitiveText_append {p q : Primitive} (h : OptionalAtMost rest)
    (h' : OptionalAtMost rest')
    (he : (Expr.primitiveText p).toList ++ rest = (Expr.primitiveText q).toList ++ rest') :
    p = q ∧ rest = rest' := by
  cases p <;> cases q <;> simp [Expr.primitiveText] at he
  case string.dateTime => exact absurd he (h.ne (by decide) _)
  case dateTime.string => exact absurd he.symm (h'.ne (by decide) _)
  case number.integer => exact absurd he (h.ne (by decide) _)
  case integer.number => exact absurd he.symm (h'.ne (by decide) _)
  case literal.literal v w =>
    obtain ⟨rfl, hr⟩ := Text.eq_of_quote_append he
    exact ⟨rfl, (List.cons.inj hr).2⟩
  all_goals exact ⟨rfl, he⟩

theorem eq_of_policyText_append {p q : ObjectPolicy} (h : OptionalAtMost rest)
    (h' : OptionalAtMost rest')
    (he : (Expr.policyText p).toList ++ rest = (Expr.policyText q).toList ++ rest') :
    p = q ∧ rest = rest' := by
  cases p <;> cases q <;> simp [Expr.policyText] at he
  case strict.strip => exact absurd he.symm (h'.ne (by decide) _)
  case passthrough.strip => exact absurd he.symm (h'.ne (by decide) _)
  case strip.strict => exact absurd he (h.ne (by decide) _)
  case strip.passthrough => exact absurd he (h.ne (by decide) _)
  all_goals exact ⟨rfl, he⟩

def primitiveCall : Primitive → String
  | .string => "string"
  | .dateTime => "string"
  | .number => "number"
  | .integer => "number"
  | .boolean => "boolean"
  | .literal _ => "literal"

def called : Node → String
  | primitive p _ => primitiveCall p
  | object _ _ _ => "object"
  | array _ _ => "array"
  | optional _ _ => ""
  | union _ _ => "union"
  | unknown _ => "unknown"

theorem exists_primitiveText_eq (p : Primitive) :
    ∃ arguments, (Expr.primitiveText p).toList = call (primitiveCall p) arguments := by
  cases p with
  | string => exact ⟨")".toList, by simp [Expr.primitiveText, primitiveCall, call]⟩
  | dateTime => exact ⟨").datetime()".toList, by simp [Expr.primitiveText, primitiveCall, call]⟩
  | number => exact ⟨")".toList, by simp [Expr.primitiveText, primitiveCall, call]⟩
  | integer => exact ⟨").int()".toList, by simp [Expr.primitiveText, primitiveCall, call]⟩
  | boolean => exact ⟨")".toList, by simp [Expr.primitiveText, primitiveCall, call]⟩
  | literal v =>
    exact ⟨(Json.quote v).toList ++ [')'], by simp [Expr.primitiveText, primitiveCall, call]⟩

theorem exists_text_eq (h : node.isOptional = false) (level : Nat) :
    ∃ arguments, node.text level = call node.called arguments := by
  cases node with
  | primitive p tags => exact exists_primitiveText_eq p
  | object shape policy tags =>
    by_cases hs : shape = []
    · exact hs ▸ ⟨_, text_object_nil policy⟩
    · exact ⟨_, text_object policy hs⟩
  | array element tags => exact ⟨_, text_array⟩
  | optional inner tags => cases h
  | union branches tags =>
    by_cases hb : branches = []
    · exact hb ▸ ⟨_, text_union_nil⟩
    · obtain ⟨inner, hi, -⟩ := text_union hb
      exact ⟨_, hi⟩
  | unknown tags => exact ⟨_, text_unknown⟩

theorem not_mem_called (node : Node) : '(' ∉ node.called.toList := by
  cases node with
  | primitive p tags => cases p <;> simp [called, primitiveCall]
  | _ => simp [called]

theorem call_append (name : String) (arguments rest : List Char) :
    call name arguments ++ rest = call name (arguments ++ rest) := by
  simp [call]

theorem call_inj {name : String} {arguments arguments' : List Char} :
    call name arguments = call name arguments' ↔ arguments = arguments' := by
  simp [call]

theorem called_eq_of_text_append {other : Node} (h : node.isOptional = false)
    (h' : other.isOptional = false) (he : node.text level ++ rest = other.text level ++ rest') :
    node.called = other.called := by
  obtain ⟨arguments, ha⟩ := exists_text_eq h level
  obtain ⟨arguments', ha'⟩ := exists_text_eq h' level
  rw [ha, ha', call_append, call_append, call, call, List.append_cancel_left_eq] at he
  exact String.toList_inj.1 (Text.eq_of_append_mark node.not_mem_called other.not_mem_called he).1

/-- Where no method is called on it, the node is told from all untagged ones by its text. -/
def Apart (node : Node) : Prop :=
  ∀ ⦃other : Node⦄, other.Untagged → ∀ ⦃level : Nat⦄ ⦃rest rest' : List Char⦄, Stops rest →
    Stops rest' → node.text level ++ rest = other.text level ++ rest' → node = other ∧ rest = rest'

theorem stops_cons {c : Char} (h : c ≠ '.') (rest : List Char) : Stops (c :: rest) := by
  simpa [Stops] using h

theorem exists_text_eq_cons (node : Node) (level : Nat) :
    ∃ later, node.text level = 'z' :: later := by
  induction node using induct with
  | step node ih =>
    cases h : node.isOptional with
    | false =>
      obtain ⟨arguments, ha⟩ := exists_text_eq h level
      exact ⟨_, ha⟩
    | true =>
      cases node with
      | optional inner tags =>
        obtain ⟨later, hl⟩ := ih inner List.mem_cons_self
        rw [text_optional, hl]
        exact ⟨_, rfl⟩
      | _ => cases h

section

variable {tags' : Tags}

theorem eq_of_array_append {other : Node} (h : node.Apart) (ho : other.Untagged)
    (he : (array node tags).text level ++ rest = (array other tags').text level ++ rest') :
    node = other ∧ rest = rest' := by
  rw [text_array, text_array, call_append, call_append, call_inj, List.append_assoc,
    List.append_assoc] at he
  obtain ⟨rfl, hr⟩ := h ho (stops_cons (by decide) _) (stops_cons (by decide) _) he
  exact ⟨rfl, (List.cons.inj hr).2⟩

theorem union_nil_append_ne {branches : List Node} (h : branches ≠ []) :
    (union [] tags).text level ++ rest ≠ (union branches tags').text level ++ rest' := by
  intro he
  obtain ⟨inner, hi, hb⟩ := @text_union level tags' branches h
  obtain ⟨b, later, rfl⟩ := List.exists_cons_of_ne_nil h
  obtain ⟨name, hn⟩ := b.exists_text_eq_cons level
  rw [List.flatMap_cons, branchText, List.append_assoc, List.append_cancel_left_eq, hn] at hb
  rw [text_union_nil, hi, hb, call_append, call_append, call_inj] at he
  exact absurd (List.cons.inj (List.cons.inj he).2).1 (by decide)

theorem eq_of_union_append {branches others : List Node} (h : ∀ b ∈ branches, b.Apart)
    (ho : ∀ o ∈ others, o.Untagged)
    (he : (union branches tags).text level ++ rest = (union others tags').text level ++ rest') :
    branches = others ∧ rest = rest' := by
  by_cases hb : branches = []
  · by_cases ho : others = []
    · subst hb ho
      rw [text_union_nil, text_union_nil, List.append_cancel_left_eq] at he
      exact ⟨rfl, he⟩
    · exact absurd (hb ▸ he) (union_nil_append_ne ho)
  · by_cases ho' : others = []
    · exact absurd (ho' ▸ he.symm) (union_nil_append_ne hb)
    · obtain ⟨inner, hi, hparts⟩ := @text_union level tags branches hb
      obtain ⟨inner', hi', hparts'⟩ := @text_union level tags' others ho'
      rw [hi, hi', call_append, call_append, call_inj] at he
      have hinner : inner ++ ("])".toList ++ rest) = inner' ++ ("])".toList ++ rest') := by
        simpa using he
      have hflat : branches.flatMap (branchText level) ++ ("])".toList ++ rest) =
          others.flatMap (branchText level) ++ ("])".toList ++ rest') := by
        rw [← hparts, ← hparts', List.append_assoc, List.append_assoc, hinner]
      refine Text.eq_of_flatMap_append (P := fun _ => True) (R := Stops) "])".toList
        (stops_cons (by decide)) ?_ (fun _ _ => trivial) (fun _ _ => trivial) ?_ hflat
      · intro b _ rest
        exact ⟨stops_cons (by decide) _, fun rest' he => absurd (List.cons.inj he).1 (by decide)⟩
      · intro b hb o ho' rest rest' hr hr' he
        rw [branchText, branchText, List.append_assoc, List.append_assoc,
          List.append_cancel_left_eq] at he
        exact h b hb (ho o ho') hr hr' he

theorem indent_succ (level : Nat) :
    (Text.indent (level + 1)).toList = (Text.indent level).toList ++ [' ', ' '] := by
  simp [Text.indent, Nat.mul_add, List.replicate_add]

theorem entryText_append_ne (entry : String × Node) :
    entryText level entry ++ rest ≠ closingText level ++ rest' := by
  intro he
  simp only [entryText, closingText, indent_succ, List.cons_append, List.append_assoc,
    List.append_cancel_left_eq, List.cons.injEq, true_and, List.nil_append] at he
  exact absurd (List.cons.inj he).1 (by decide)

theorem eq_of_entryText_append {entry other : String × Node} (h : entry.2.Apart)
    (ho : other.2.Untagged)
    (he : entryText level entry ++ rest = entryText level other ++ rest') :
    entry = other ∧ rest = rest' := by
  simp only [entryText, List.cons_append, List.append_assoc, List.cons.injEq, true_and,
    List.append_cancel_left_eq] at he
  obtain ⟨hk, hn⟩ := Text.eq_of_propertyName_append he
  obtain ⟨hn, hr⟩ := h ho (stops_cons (by decide) _) (stops_cons (by decide) _)
    (List.cons.inj hn).2
  exact ⟨Prod.ext hk hn, (List.cons.inj hr).2⟩

theorem object_nil_append_ne {shape : List (String × Node)} {policy policy' : ObjectPolicy}
    (h : shape ≠ []) :
    (object [] policy tags).text level ++ rest ≠ (object shape policy' tags').text level ++ rest' := by
  intro he
  obtain ⟨entry, later, rfl⟩ := List.exists_cons_of_ne_nil h
  rw [text_object_nil, text_object policy' h, call_append, call_append, call_inj] at he
  exact absurd (List.cons.inj (List.cons.inj he).2).1 (by decide)

theorem eq_of_object_append {shape others : List (String × Node)} {policy policy' : ObjectPolicy}
    (h : ∀ e ∈ shape, e.2.Apart) (ho : ∀ e ∈ others, e.2.Untagged) (hr : OptionalAtMost rest)
    (hr' : OptionalAtMost rest')
    (he : (object shape policy tags).text level ++ rest =
      (object others policy' tags').text level ++ rest') :
    shape = others ∧ policy = policy' ∧ rest = rest' := by
  by_cases hs : shape = []
  · by_cases ho : others = []
    · subst hs ho
      rw [text_object_nil, text_object_nil, call_append, call_append, call_inj] at he
      simp only [List.cons_append, List.append_assoc, List.cons.injEq, true_and,
        List.append_cancel_left_eq] at he
      exact ⟨rfl, eq_of_policyText_append hr hr' he⟩
    · exact absurd (hs ▸ he) (object_nil_append_ne ho)
  · by_cases ho' : others = []
    · exact absurd (ho' ▸ he.symm) (object_nil_append_ne hs)
    · rw [text_object policy hs, text_object policy' ho', call_append, call_append, call_inj] at he
      simp only [List.cons_append, List.append_assoc, List.cons.injEq, true_and] at he
      obtain ⟨rfl, hp⟩ := Text.eq_of_flatMap_append (P := fun _ => True) (R := fun _ => True)
        (closingText level) (fun _ => trivial)
        (fun e _ rest => ⟨trivial, fun rest' => entryText_append_ne e⟩) (fun _ _ => trivial)
        (fun _ _ => trivial)
        (fun e hm o hm' rest rest' _ _ => eq_of_entryText_append (h e hm) (ho o hm')) he
      exact ⟨rfl, eq_of_policyText_append hr hr' hp⟩

/-- What is not optional is told apart if its parts are, also where it is made optional then. -/
theorem eq_of_text_append {other : Node} (hn : node.Untagged) (ho : other.Untagged)
    (hc : ∀ child ∈ node.children, child.Apart) (hni : node.isOptional = false)
    (hoi : other.isOptional = false) (hr : OptionalAtMost rest) (hr' : OptionalAtMost rest')
    (he : node.text level ++ rest = other.text level ++ rest') : node = other ∧ rest = rest' := by
  -- nodes of different forms differ in the name that is called first
  have hcalled := called_eq_of_text_append hni hoi he
  obtain ⟨htags, -⟩ := untagged_iff.1 hn
  obtain ⟨htags', hc'⟩ := untagged_iff.1 ho
  cases node with
  | primitive p tags =>
    cases other with
    | primitive q tags' =>
      obtain rfl : tags = tags' := htags.trans htags'.symm
      obtain ⟨rfl, hr⟩ := eq_of_primitiveText_append hr hr' he
      exact ⟨rfl, hr⟩
    | _ => cases p <;> simp [called, primitiveCall] at hcalled
  | object shape policy tags =>
    cases other with
    | primitive q tags' => cases q <;> simp [called, primitiveCall] at hcalled
    | object others policy' tags' =>
      obtain rfl : tags = tags' := htags.trans htags'.symm
      obtain ⟨rfl, rfl, hr⟩ := eq_of_object_append (List.forall_mem_map.1 hc)
        (List.forall_mem_map.1 hc') hr hr' he
      exact ⟨rfl, hr⟩
    | _ => simp [called] at hcalled
  | array element tags =>
    cases other with
    | primitive q tags' => cases q <;> simp [called, primitiveCall] at hcalled
    | array element' tags' =>
      obtain rfl : tags = tags' := htags.trans htags'.symm
      obtain ⟨rfl, hr⟩ := eq_of_array_append (hc element List.mem_cons_self)
        (hc' element' List.mem_cons_self) he
      exact ⟨rfl, hr⟩
    | _ => simp [called] at hcalled
  | optional inner tags => cases hni
  | union branches tags =>
    cases other with
    | primitive q tags' => cases q <;> simp [called, primitiveCall] at hcalled
    | union others tags' =>
      obtain rfl : tags = tags' := htags.trans htags'.symm
      obtain ⟨rfl, hr⟩ := eq_of_union_append hc hc' he
      exact ⟨rfl, hr⟩
    | _ => simp [called] at hcalled
  | unknown tags =>
    cases other with
    | primitive q tags' => cases q <;> simp [called, primitiveCall] at hcalled
    | unknown tags' =>
      obtain rfl : tags = tags' := htags.trans htags'.symm
      exact ⟨rfl, List.append_cancel_left he⟩
    | _ => simp [called] at hcalled

end

def optionalTimes (n : Nat) (node : Node) : Node := (optional · .empty)^[n] node

theorem text_optional_append (n : Nat) :
    (optional node tags).text level ++ (options n ++ rest) =
      node.text level ++ (options (n + 1) ++ rest) := by
  rw [text_optional, options_succ, List.append_assoc, List.append_assoc]

/-- By induction on the node and on the other one: where one of them is optional, that is taken off
it and counted. -/
theorem eq_of_options {other : Node} (hn : node.Untagged) (ho : other.Untagged) (hr : Stops rest)
    (hr' : Stops rest')
    (he : node.text level ++ (options m ++ rest) = other.text level ++ (options n ++ rest')) :
    optionalTimes m node = optionalTimes n other ∧ rest = rest' := by
  induction node using induct generalizing other level m n rest rest' with
  | step node ih =>
    obtain ⟨htags, hc⟩ := untagged_iff.1 hn
    cases hni : node.isOptional with
    | true =>
      cases node with
      | optional inner tags =>
        obtain rfl : tags = .empty := htags
        rw [text_optional_append] at he
        exact ih inner List.mem_cons_self (hc inner List.mem_cons_self) ho hr hr' he
      | _ => cases hni
    | false =>
      have hchildren : ∀ child ∈ node.children, child.Apart := by
        intro child hm o ho level rest rest' hr hr' he
        exact ih child hm (m := 0) (n := 0) (hc child hm) ho hr hr' he
      -- `node` stays from here on, and what is optional around the other one is counted
      induction other using induct generalizing n with
      | step other iho =>
        obtain ⟨htags', hc'⟩ := untagged_iff.1 ho
        cases hoi : other.isOptional with
        | true =>
          cases other with
          | optional inner tags =>
            obtain rfl : tags = .empty := htags'
            rw [text_optional_append] at he
            exact iho inner List.mem_cons_self (hc' inner List.mem_cons_self) he
          | _ => cases hoi
        | false =>
          obtain ⟨rfl, hrest⟩ := eq_of_text_append hn ho hchildren hni hoi
            (optionalAtMost_options hr m) (optionalAtMost_options hr' n) he
          obtain ⟨rfl, hend⟩ := eq_of_options_append hr hr' hrest
          exact ⟨rfl, hend⟩

theorem Untagged.apart (h : node.Untagged) : node.Apart := by
  intro other ho level rest rest' hr hr' he
  exact eq_of_options (m := 0) (n := 0) h ho hr hr' he

end Node

/-- Untagged nodes that are written alike are the same. -/
theorem texts_tell_nodes_apart {a b : Node} {follow follow' : Follow} {e e' : Source.Expr}
    {level : Nat} (ha : ∀ n ∈ a.walk, n.tags = .empty) (hb : ∀ n ∈ b.walk, n.tags = .empty)
    (he : (a.expr follow).outcome = .ok e) (he' : (b.expr follow').outcome = .ok e')
    (h : e.render level = e'.render level) : a = b := by
  rw [Node.eq_source_of_expr ha he, Node.eq_source_of_expr hb he'] at h
  have htext : a.text level ++ [] = b.text level ++ [] := congrArg (String.toList · ++ []) h
  exact (Node.Untagged.apart ha hb (by simp [Node.Stops]) (by simp [Node.Stops]) htext).1

/-- A key with a quote in it and a literal that looks like code, written with names for references
and without. -/
theorem texts_tell_nodes_apart_quoted :
    ∃ e e', ((Node.record [("a\"", .wrapped (.literal "\"),"))] .strip).expr Node.bare).outcome =
        .ok e ∧
      ((Node.object [("a\"", .optional (.plain (.literal "\"),")) .empty)] .strip .empty).expr
        (Outline.byName ⟨Options.empty.resolve, .empty, []⟩)).outcome = .ok e' ∧
      e.render 1 = e'.render 1 ∧
      Node.record [("a\"", .wrapped (.literal "\"),"))] .strip =
        Node.object [("a\"", .optional (.plain (.literal "\"),")) .empty)] .strip .empty := by
  refine ⟨_, _, rfl, rfl, rfl, ?_⟩
  exact @texts_tell_nodes_apart _ _ Node.bare (Outline.byName ⟨Options.empty.resolve, .empty, []⟩)
    _ _ 1 (by decide) (by decide) rfl rfl rfl

end ContentSchema
