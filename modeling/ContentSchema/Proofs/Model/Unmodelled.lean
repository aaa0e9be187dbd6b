import ContentSchema.Generate
import ContentSchema.Proofs.Json.Edits
import ContentSchema.Proofs.Model.Written

/-! # What a content model does not hold

The readers of content models follow all edits of an exported text that leave alone what a model
holds. So texts that differ in the order of members and in further members give the same modules.
-/

namespace ContentSchema

open Json

inductive Form where
  | model
  | contentType
  | sys
  | field
  | items
  | validation

/-- The parts of a record, in the order in which they are read by position. -/
def Form.parts : Form → List (Portion Form)
  | model => [⟨["contentTypes", "items"], .list contentType⟩]
  | contentType =>
    [⟨["sys"], .one sys⟩, ⟨["name"], .leaf⟩, ⟨["description"], .leaf⟩, ⟨["displayField"], .leaf⟩,
      ⟨["fields"], .list field⟩]
  | sys => [⟨["id"], .leaf⟩]
  | field =>
    [⟨["id"], .leaf⟩, ⟨["name"], .leaf⟩, ⟨["type"], .leaf⟩, ⟨["linkType"], .leaf⟩,
      ⟨["items"], .one items⟩, ⟨["validations"], .list validation⟩, ⟨["required"], .leaf⟩,
      ⟨["localized"], .leaf⟩]
  | items =>
    [⟨["type"], .leaf⟩, ⟨["linkType"], .leaf⟩, ⟨["items"], .one items⟩,
      ⟨["validations"], .list validation⟩]
  | validation => [⟨["linkContentType"], .leaf⟩, ⟨["linkMimetypeGroup"], .leaf⟩]

/-- A tree of the form is edited in what the model does not hold. -/
abbrev Form.Edit (form : Form) : Tree → Tree → Prop := Json.Edit parts (.one form)

theorem OneOrMany.follows (room : Nat) :
    Reader.Follows (Json.Edit Form.parts .leaf) (read room) := by
  refine .leaf fun t a h => ?_
  cases hv : t.value? room with
  | none => simp [read, hv] at h
  | some v => exact Tree.grammatical_of_value? hv

theorem Validation.follows (room : Nat) : Reader.Follows Form.validation.Edit (read room) := by
  refine Record.Fits.follows ⟨?_, ?_, rfl⟩ .text room
  · exact .cons (.defaulted _ _ (.optional (OneOrMany.follows _)))
      (.cons (.defaulted _ _ (.optional (OneOrMany.follows _))) .nil)
  · simp only [record, List.pairwise_cons, List.forall_mem_cons, List.not_mem_nil,
      IsEmpty.forall_iff, implies_true, List.Pairwise.nil, and_true]
    exact Slot.commutes_of_put rfl rfl fun _ _ _ => rfl

theorem Descriptor.follows_validations (room : Nat) :
    Reader.Follows (Edit Form.parts (.list .validation)) (validationsReader room) :=
  .list (Validation.follows _) room

theorem Descriptor.chainRecord_fits {room : Nat} {inner : Reader (List Descriptor)}
    (h : Reader.Follows Form.items.Edit inner) :
    (chainRecord room inner).Fits Form.parts .items := by
  refine ⟨?_, ?_, rfl⟩
  · exact .cons (.needed _ _ .text) (.cons (.defaulted _ _ (.optional .text))
      (.cons (.defaulted _ _ (.optional h))
        (.cons (.defaulted _ _ (follows_validations _)) .nil)))
  · simp only [chainRecord, List.pairwise_cons, List.forall_mem_cons, List.not_mem_nil,
      IsEmpty.forall_iff, implies_true, List.Pairwise.nil, and_true]
    and_intros <;> exact Slot.commutes_of_put rfl rfl fun _ _ _ => rfl

theorem Descriptor.follows_readChain (room : Nat) :
    Reader.Follows Form.items.Edit (readChain room) := by
  induction room with
  | zero =>
    refine ((chainRecord_fits ⟨?_, ?_⟩).follows .text 0).map _
    · exact fun h => nomatch h
    · exact fun _ h => nomatch h
  | succ room ih => exact ((chainRecord_fits ih).follows .text _).map _

theorem Field.follows (room : Nat) : Reader.Follows Form.field.Edit (read room) := by
  refine Record.Fits.follows ⟨?_, ?_, rfl⟩ .text room
  · exact .cons (.needed _ _ .text) (.cons (.defaulted _ _ .text)
      (.cons (.needed _ _ .text) (.cons (.defaulted _ _ (.optional .text))
        (.cons (.defaulted _ _ (.optional (Descriptor.follows_readChain _)))
          (.cons (.defaulted _ _ (Descriptor.follows_validations _))
            (.cons (.defaulted _ _ .bool) (.cons (.defaulted _ _ .bool) .nil)))))))
  · simp only [record, List.pairwise_cons, List.forall_mem_cons, List.not_mem_nil,
      IsEmpty.forall_iff, implies_true, List.Pairwise.nil, and_true]
    and_intros <;> exact Slot.commutes_of_put rfl rfl fun _ _ _ => rfl

namespace ContentType

theorem sysRecord_fits : sysRecord.Fits Form.parts .sys where
  slots := .cons (.needed _ _ .text) .nil
  commutes := List.pairwise_singleton _ _
  others := rfl

theorem follows (room : Nat) : Reader.Follows Form.contentType.Edit (read room) := by
  refine Record.Fits.follows ⟨?_, ?_, rfl⟩ .text room
  · exact .cons (.needed _ _ (sysRecord_fits.follows _ _)) (.cons (.defaulted _ _ .text)
      (.cons (.defaulted _ _ (.optional .text)) (.cons (.defaulted _ _ (.optional .text))
        (.cons (.defaulted _ _ (.list (Field.follows _) _)) .nil))))
  · simp only [record, List.pairwise_cons, List.forall_mem_cons, List.not_mem_nil,
      IsEmpty.forall_iff, implies_true, List.Pairwise.nil, and_true]
    and_intros <;> exact Slot.commutes_of_put rfl rfl fun _ _ _ => rfl

end ContentType

namespace ContentModel

theorem follows (room : Nat) : Reader.Follows Form.model.Edit (read room) := by
  refine Record.Fits.follows ⟨?_, List.pairwise_singleton _ _, rfl⟩ .text room
  exact .cons (.also _ (.defaulted _ _ (.list (ContentType.follows _) _)) _) .nil

end ContentModel

/-- A text that is read as a content model spells a tree. Every text that spells this tree after
edits of what the model does not hold is read as the same model, and gives the same module. -/
theorem unmodelled_parts_ignored {text : String} {model : ContentModel}
    (h : ContentModel.ofText text = .ok model) :
    (∃ t : Tree, t.SpelledBy text) ∧
      ∀ t t' text', t.SpelledBy text → Relation.ReflTransGen Form.model.Edit t t' →
        t'.SpelledBy text' → ContentModel.ofText text' = .ok model ∧
          ∀ settings, generate text' settings = generate text settings := by
  have hf := ContentModel.follows maxDepth
  refine ⟨Document.exists_spelledBy hf h, fun t t' text' hs he hs' => ?_⟩
  have h' : ContentModel.ofText text' = .ok model := Document.read_of_steps hf hs he hs' h
  refine ⟨h', fun settings => ?_⟩
  rw [generate, generate, readModel, readModel, h, h']

def Form.single (members : List (String × Value)) : Value :=
  .object [("items", .list [.object members])]

theorem Form.plain_single {members : List (String × Value)} (hk : (Entries.keys members).Nodup)
    (h : ∀ e ∈ members, e.2.Plain) : (single members).Plain := by
  have hc : (Value.list [.object members]).Plain := .list (by simpa using .object hk h)
  exact .object (List.pairwise_singleton _ _) (by simpa using hc)

theorem Form.edit_single {members members' : List (String × Value)}
    (h : contentType.Edit (Tree.ofValue (.object members)) (Tree.ofValue (.object members'))) :
    model.Edit (Tree.ofValue (single members)) (Tree.ofValue (single members')) :=
  @Edit.member _ _ _ [] [] _ _ _ _ rfl (@Edit.item _ _ _ [] [] _ _ h)

theorem Form.reaches_single (first second other : String × Value)
    (hk : part? parts contentType other.1 = none) (hv : other.2.Plain) :
    Relation.ReflTransGen model.Edit (Tree.ofValue (single [first, second]))
      (Tree.ofValue (single [other, second, first])) := by
  have reordered : contentType.Edit (Tree.ofValue (.object [first, second]))
      (Tree.ofValue (.object [second, first])) :=
    .reorder (.swap _ _ [])
  have added : contentType.Edit (Tree.ofValue (.object [second, first]))
      (Tree.ofValue (.object [other, second, first])) :=
    @Edit.add _ _ _ [] _ _ _ hk (Tree.whole_ofValue hv)
  exact .tail (.single (edit_single reordered)) (edit_single added)

/-- The members of a content type are reordered, then one is added to it. -/
theorem unmodelled_parts_ignored_reordered :
    ∃ t t' : Tree,
      t.SpelledBy "\x7b\"items\":[\x7b\"sys\":\x7b\"id\":\"a\"\x7d,\"name\":\"b\"\x7d]\x7d" ∧
      Relation.ReflTransGen Form.model.Edit t t' ∧
      t'.SpelledBy
        "\x7b\"items\":[\x7b\"x\":[],\"name\":\"b\",\"sys\":\x7b\"id\":\"a\"\x7d\x7d]\x7d" ∧
      ContentModel.ofText
        "\x7b\"items\":[\x7b\"sys\":\x7b\"id\":\"a\"\x7d,\"name\":\"b\"\x7d]\x7d" =
          .ok ⟨[⟨"a", "b", none, none, []⟩]⟩ ∧
      ContentModel.ofText
        "\x7b\"items\":[\x7b\"x\":[],\"name\":\"b\",\"sys\":\x7b\"id\":\"a\"\x7d\x7d]\x7d" =
          .ok ⟨[⟨"a", "b", none, none, []⟩]⟩ := by
  have hx : (Value.list []).Plain := .list (by simp)
  have hsys : (Value.object [("id", .str "a")]).Plain :=
    .object (by decide) (by simp [Value.Plain.str])
  have hp : (Form.single [("sys", .object [("id", .str "a")]), ("name", .str "b")]).Plain :=
    Form.plain_single (by decide) (by simp [hsys, Value.Plain.str])
  have hp' : (Form.single [("x", .list []), ("name", .str "b"),
      ("sys", .object [("id", .str "a")])]).Plain :=
    Form.plain_single (by decide) (by simp [hsys, hx, Value.Plain.str])
  have h : ContentModel.ofText
      "\x7b\"items\":[\x7b\"sys\":\x7b\"id\":\"a\"\x7d,\"name\":\"b\"\x7d]\x7d" =
        .ok ⟨[⟨"a", "b", none, none, []⟩]⟩ := by decide +kernel
  have he := Form.reaches_single ("sys", .object [("id", .str "a")]) ("name", .str "b")
    ("x", .list []) rfl hx
  have hs := Tree.spelledBy_compact hp
  have hs' := Tree.spelledBy_compact hp'
  exact ⟨_, _, hs, he, hs', h, ((unmodelled_parts_ignored h).2 _ _ _ hs he hs').1⟩

/-- A further member whose key has half a surrogate pair is not passed over. -/
theorem key_of_half_pair_refused :
    (Tree.object [(.str (some "contentTypes"), .list [])]).SpelledBy
        "\x7b\"contentTypes\":[]\x7d" ∧
      (Tree.object [(.str (some "contentTypes"), .list []), (.str none, .null)]).SpelledBy
        "\x7b\"contentTypes\":[],\"\\ud800\":null\x7d" ∧
      ContentModel.ofText "\x7b\"contentTypes\":[]\x7d" = .ok ⟨[]⟩ ∧
      ContentModel.ofText "\x7b\"contentTypes\":[],\"\\ud800\":null\x7d" = .error .grammar := by
  refine ⟨?_, ?_, by decide +kernel, by decide +kernel⟩
  · exact Tree.spelledBy_compact (ContentModel.plain_toValue ⟨[]⟩)
  · have half : Gives "\"\\ud800\"" [.leaf (.str none)] := fun _ => Token.cut_first rfl rfl
    refine Tree.spelledBy_of_gives ?_ (Gives.openObject.append ((Gives.quote "contentTypes").append
      (Gives.colon.append (Gives.openList.append (Gives.closeList.append (Gives.comma.append
        (half.append (Gives.colon.append (Gives.null.append Gives.closeObject)))))))))
    exact .object (by simp) (by simp [Tree.Whole.null, Tree.Whole.list])

end ContentSchema
