import ContentSchema.Proofs.Graph.Closure
import ContentSchema.Proofs.Validator.Stored

/-! # Keys of assembled graphs

No object of an assembled graph has a key twice, whether its schemas link to each other or are
copied into each other.
-/

namespace ContentSchema

namespace Node

@[simp] theorem keyed_withTags {node : Node} {tags : Tags} :
    (node.withTags tags).Keyed ↔ node.Keyed := by
  constructor
  · intro h
    cases node <;> cases h <;> constructor <;> assumption
  · intro h
    cases h <;> constructor <;> assumption

theorem keyed_record {entries : List (String × Node)} (policy : ObjectPolicy)
    (h : ∀ e ∈ entries, e.2.Keyed) : (record entries policy).Keyed :=
  .object _ _ (Entries.nodup_keys_ofList _) fun e he => h e (Entries.mem_of_mem_ofList he)

theorem keyed_plain (p : Primitive) : (plain p).Keyed := .primitive p _

theorem keyed_file {details : List (String × Node)} (h : ∀ e ∈ details, e.2.Keyed) :
    (Builtin.file details).Keyed := by
  have hd : (Builtin.part details).Keyed := keyed_record _ h
  exact keyed_record _ (by simp [hd, Builtin.text, keyed_plain])

theorem keyed_media (name : String) {details : List (String × Node)}
    (h : ∀ e ∈ details, e.2.Keyed) : (Builtin.media name details).node.Keyed := by
  have hs : (Builtin.part [("type", literal "Asset")]).Keyed :=
    keyed_record _ (by simp [literal, keyed_plain])
  have ho : (plain .string).wrapped.Keyed := .optional _ (keyed_withTags.2 (keyed_plain _))
  have hf : (Builtin.part [("title", Builtin.text), ("description", Builtin.text.wrapped),
      ("file", Builtin.file details)]).Keyed :=
    keyed_record _ (by simp [Builtin.text, keyed_plain, ho, keyed_file h])
  exact keyed_withTags.2 (keyed_record _ (by simp [hs, hf]))

theorem keyed_builtin {b : Builtin} (h : b ∈ Builtin.all) : b.node.Keyed := by
  rcases Builtin.mem_all_iff.1 h with rfl | rfl | rfl | rfl
  · exact keyed_withTags.2 (keyed_record _ (by simp [Builtin.number, keyed_plain]))
  · exact keyed_media _ (by simp [Builtin.number, keyed_plain])
  · have hs : Builtin.size.Keyed := keyed_record _ (by simp [Builtin.number, keyed_plain])
    exact keyed_media _ (by simp [hs, Builtin.number, keyed_plain])
  · exact .unknown _

theorem keyed_mapClosed : MapClosed Keyed where
  basic h := by
    cases h with
    | plain p => exact keyed_plain p
    | builtin h => exact keyed_builtin h
    | any => exact .unknown _
  reference _ := .unknown _
  relinked _ h := keyed_withTags.2 h
  array h := .array _ h
  optional h := .optional _ h
  union _ h := .union _ h
  record policy h := keyed_record policy h

end Node

def Graph.Keyed (graph : Graph) : Prop :=
  (Entries.keys graph.schemas).Nodup ∧ ∀ e ∈ graph.schemas, e.2.Keyed

namespace ContentModel

variable {model : ContentModel} {settings : Settings} {graph : Graph}

theorem keyed_graph (h : model.graph settings = .ok graph) : graph.Keyed :=
  ⟨nodup_keys_graph h, graph_closed Node.keyed_mapClosed h⟩

end ContentModel

end ContentSchema
