import ContentSchema.Proofs.Json.Reading
import ContentSchema.Validator.Reader

/-! # Stored validators

A node that is written and read back is the same node, as long as the room for nested containers
lasts. Its tags and its parts stand in one object and are told apart by key.
-/

namespace ContentSchema

open Json

namespace Node

/-- No object in the node has a key twice. -/
inductive Keyed : Node → Prop
  | primitive (p : Primitive) (tags : Tags) : Keyed (primitive p tags)
  | object {shape : List (String × Node)} (policy : ObjectPolicy) (tags : Tags)
      (hk : (Entries.keys shape).Nodup) (h : ∀ e ∈ shape, Keyed e.2) :
      Keyed (object shape policy tags)
  | array {element : Node} (tags : Tags) (h : Keyed element) : Keyed (array element tags)
  | optional {inner : Node} (tags : Tags) (h : Keyed inner) : Keyed (optional inner tags)
  | union {branches : List Node} (tags : Tags) (h : ∀ b ∈ branches, Keyed b) :
      Keyed (union branches tags)
  | unknown (tags : Tags) : Keyed (unknown tags)

theorem shapeMembers_eq_map (shape : List (String × Node)) :
    shapeMembers shape = shape.map fun e => (e.1, e.2.toValue) := by
  induction shape with
  | nil => rfl
  | cons e rest ih => rw [shapeMembers, ih, List.map_cons]

theorem keys_shapeMembers (shape : List (String × Node)) :
    Entries.keys (shapeMembers shape) = Entries.keys shape := by
  simp [shapeMembers_eq_map, Entries.keys]

theorem branchValues_eq_map (branches : List Node) :
    branchValues branches = branches.map toValue := by
  induction branches with
  | nil => rfl
  | cons b rest ih => rw [branchValues, ih, List.map_cons]

end Node

section Parts

theorem Primitive.plain_toValue (p : Primitive) : p.toValue.Plain := by
  cases p with
  | literal value => exact .object (by simp [Entries.keys]) (by simp [Value.Plain.str])
  | _ => exact .str _

theorem Primitive.read_toValue (p : Primitive) (room : Nat) :
    Primitive.read room (Tree.ofValue p.toValue) = .ok p := by
  cases p <;> rfl

theorem ObjectPolicy.read_name (policy : ObjectPolicy) (room : Nat) :
    ObjectPolicy.read room (Tree.ofValue (.str policy.name)) = .ok policy := by
  cases policy <;> rfl

theorem Target.read_name (target : Target) (origin : Origin) (room : Nat) :
    Target.read origin room (Tree.ofValue (.str target.name)) = .ok target := by
  cases target <;> rfl

theorem NamedReference.plain_toValue (r : NamedReference) : r.toValue.Plain :=
  .object (by simp [Entries.keys]) (by simp [Value.Plain.str])

theorem NamedReference.read_toValue (r : NamedReference) (origin : Origin) {room : Nat}
    (hd : (Tree.ofValue r.toValue).depth ≤ room) :
    (NamedReference.record origin room).read origin room (Tree.ofValue r.toValue) = .ok r := by
  obtain ⟨hr, -⟩ := Tree.depth_object_le_iff.1 hd
  have ht := r.target.read_name origin (room - 1)
  rw [toValue, Tree.ofValue, Record.read, if_neg (Nat.ne_of_gt hr), Tree.ofMembers,
    Tree.ofMembers, Tree.ofMembers,
    Record.readMembers_slot rfl (by simp) rfl,
    Record.readMembers_slot rfl (by simp) (congrArg (Except.map _) ht)]
  rfl

theorem LinkSet.plain_toValue (l : LinkSet) : l.toValue.Plain := by
  have ht : (Value.list (l.targets.map .str)).Plain := .list (by simp [Value.Plain.str])
  exact .object (by simp [Entries.keys]) (by simp [ht, Value.Plain.bool])

theorem LinkSet.read_toValue (l : LinkSet) (origin : Origin) {room : Nat}
    (hd : (Tree.ofValue l.toValue).depth ≤ room) :
    (LinkSet.record room).read origin room (Tree.ofValue l.toValue) = .ok l := by
  obtain ⟨hr, hm⟩ := Tree.depth_object_le_iff.1 hd
  have ht : Reader.list (room - 1) Reader.text (Tree.ofValue (.list (l.targets.map .str))) =
      .ok l.targets := Reader.list_ofValue (hm _ List.mem_cons_self) fun _ _ _ => rfl
  rw [toValue, Tree.ofValue, Record.read, if_neg (Nat.ne_of_gt hr), Tree.ofMembers,
    Tree.ofMembers, Tree.ofMembers, Tree.ofMembers,
    Record.readMembers_slot rfl (by simp) (congrArg (Except.map _) ht),
    Record.readMembers_slot rfl (by simp) rfl,
    Record.readMembers_slot rfl (by simp) rfl]
  rfl

end Parts

namespace Tags

def keys : List String := ["reference", "multiReference", "typeCast"]

theorem keys_members_sublist (tags : Tags) : (Entries.keys tags.members).Sublist keys := by
  rcases tags with ⟨_ | r, _ | l, _ | c⟩ <;> simp [keys, members, Value.optional, Entries.keys]

theorem key_of_mem_members {tags : Tags} {e : String × Value} (h : e ∈ tags.members) :
    e.1 ∈ keys :=
  tags.keys_members_sublist.subset (List.mem_map_of_mem h)

theorem plain_of_mem_members {tags : Tags} {e : String × Value} (h : e ∈ tags.members) :
    e.2.Plain := by
  simp only [members, Value.optional, List.mem_append, List.mem_map, Option.mem_toList,
    Option.map_eq_some_iff] at h
  rcases h with (⟨_, ⟨r, -, rfl⟩, rfl⟩ | ⟨_, ⟨l, -, rfl⟩, rfl⟩) | ⟨_, ⟨c, -, rfl⟩, rfl⟩
  · exact r.plain_toValue
  · exact l.plain_toValue
  · exact .str c

theorem passes_record {origin : Origin} {room : Nat} {e : String × Value} (hk : e.1 ∉ keys)
    (hp : e.2.Plain) (hd : (Tree.ofValue e.2).depth ≤ room) :
    (record origin (room + 1)).Passes e := by
  refine ⟨?_, ?_⟩
  · simp only [keys, List.mem_cons, List.not_mem_nil, or_false, not_or] at hk
    simp [record, Ne.symm hk.1, Ne.symm hk.2.1, Ne.symm hk.2.2]
  · exact if_pos (by rw [Nat.add_sub_cancel, Tree.value?_ofValue hp hd]; rfl)

theorem read_members (tags : Tags) (origin : Origin) {room : Nat}
    (hd : ∀ e ∈ tags.members, (Tree.ofValue e.2).depth ≤ room) :
    (record origin (room + 1)).readMembers [] .empty (Tree.ofMembers tags.members) = .ok tags := by
  obtain ⟨reference, links, cast⟩ := tags
  have hr : ∀ r, reference = some r →
      Reader.optional ((NamedReference.record origin room).read origin room)
        (Tree.ofValue r.toValue) = .ok (some r) := by
    rintro r rfl
    have hm : ("reference", r.toValue) ∈ members ⟨some r, links, cast⟩ := by
      simp [members, Value.optional]
    exact congrArg (Except.map some) (r.read_toValue origin (hd _ hm))
  have hl : ∀ l, links = some l →
      Reader.optional ((LinkSet.record room).read origin room)
        (Tree.ofValue l.toValue) = .ok (some l) := by
    rintro l rfl
    have hm : ("multiReference", l.toValue) ∈ members ⟨reference, some l, cast⟩ := by
      simp [members, Value.optional]
    exact congrArg (Except.map some) (l.read_toValue origin (hd _ hm))
  rw [members, ← List.append_nil (Tree.ofMembers _), Tree.ofMembers_append, Tree.ofMembers_append,
    List.append_assoc, List.append_assoc,
    Record.readMembers_optional (b := ⟨reference, none, none⟩) rfl (by simp) (by rintro rfl; rfl)
      fun r h => Slot.set_defaulted (hr r h) (by rw [h]; rfl),
    Record.readMembers_optional (b := ⟨reference, links, none⟩) rfl (by simp) (by rintro rfl; rfl)
      fun l h => Slot.set_defaulted (hl l h) (by rw [h]),
    Record.readMembers_optional (b := ⟨reference, links, cast⟩) rfl (by simp) (by rintro rfl; rfl)
      fun c h => Slot.set_defaulted (v := some c) rfl (by rw [← h])]
  rfl

end Tags

namespace Node

theorem plain_written {kind : String} {own : List (String × Value)}
    (hk : ("kind" :: Entries.keys own ++ Tags.keys).Nodup) (hp : ∀ e ∈ own, e.2.Plain)
    (tags : Tags) : (written kind own tags).Plain := by
  refine .object (hk.sublist ?_) ?_
  · simpa [Entries.keys] using tags.keys_members_sublist
  · intro e he
    rw [List.mem_append, List.mem_cons] at he
    rcases he with (rfl | he) | he
    · exact .str kind
    · exact hp e he
    · exact Tags.plain_of_mem_members he

theorem plain_shapeMembers {shape : List (String × Node)} (hk : (Entries.keys shape).Nodup)
    (h : ∀ e ∈ shape, e.2.toValue.Plain) : (Value.object (shapeMembers shape)).Plain := by
  refine .object (keys_shapeMembers shape ▸ hk) ?_
  rw [shapeMembers_eq_map, List.forall_mem_map]
  exact h

theorem plain_branchValues {branches : List Node} (h : ∀ b ∈ branches, b.toValue.Plain) :
    (Value.list (branchValues branches)).Plain := by
  refine .list ?_
  rw [branchValues_eq_map, List.forall_mem_map]
  exact h

theorem plain_toValue {node : Node} (h : node.Keyed) : node.toValue.Plain := by
  induction h with
  | primitive p tags =>
    exact plain_written (by simp [Entries.keys, Tags.keys]) (by simp [p.plain_toValue]) tags
  | @object shape policy tags hk _ ih =>
    have hs := plain_shapeMembers hk ih
    exact plain_written (by simp [Entries.keys, Tags.keys]) (by simp [hs, Value.Plain.str]) tags
  | array tags _ ih =>
    exact plain_written (by simp [Entries.keys, Tags.keys]) (by simp [ih]) tags
  | optional tags _ ih =>
    exact plain_written (by simp [Entries.keys, Tags.keys]) (by simp [ih]) tags
  | @union branches tags _ ih =>
    have hb := plain_branchValues ih
    exact plain_written (by simp [Entries.keys, Tags.keys]) (by simp [hb]) tags
  | unknown tags => exact plain_written (by decide) (by simp) tags

section

variable {α β : Type} {blank : α} {slots : List (Slot α)} {own : List (String × Value)}

theorem parts_ofMembers (before own after : List (String × Value))
    (hk : ∀ e ∈ before ++ after, ∀ slot ∈ slots, slot.answers e.1 = false)
    (hp : ∀ e ∈ before ++ after, e.2.Plain) :
    parts blank slots (Tree.ofMembers (before ++ own ++ after)) =
      parts blank slots (Tree.ofMembers own) := by
  have hpass : ∀ e ∈ before ++ after,
      Record.Passes ⟨"NodeKind", blank, slots, .skipped⟩ e := by
    intro e he
    refine ⟨List.find?_eq_none.2 fun slot hs => ?_, if_pos (Tree.grammatical_ofValue (hp e he))⟩
    simp [hk e he slot hs]
  rw [List.forall_mem_append] at hpass
  rw [parts, parts, Tree.ofMembers_append, Record.readMembers_append_of_passes hpass.2,
    Tree.ofMembers_append, Record.readMembers_of_passes hpass.1]

theorem parts_needed {key : String} {read : Reader β} {put : α → β → α} {v : Value} {b : β}
    (h : read (Tree.ofValue v) = .ok b) :
    parts blank [.needed key read put] (Tree.ofMembers [(key, v)]) = .ok (put blank b) := by
  have hf : [Slot.needed key read put].find? (·.answers key) = some (.needed key read put) :=
    List.find?_cons_of_pos (by simp)
  rw [parts, Tree.ofMembers, Record.readMembers_slot hf (by simp) (Slot.set_needed h rfl)]
  simp [Tree.ofMembers, Record.readMembers]

theorem parts_written {name : String} {tags : Tags}
    (hs : ∀ slot ∈ slots, ∀ k ∈ "kind" :: Tags.keys, slot.answers k = false) :
    parts blank slots (Tree.ofMembers ([("kind", .str name)] ++ own ++ tags.members)) =
      parts blank slots (Tree.ofMembers own) := by
  refine parts_ofMembers _ _ _ ?_ ?_
  · intro e he slot hslot
    rw [List.singleton_append, List.mem_cons] at he
    rcases he with rfl | he
    · exact hs slot hslot _ List.mem_cons_self
    · exact hs slot hslot _ (List.mem_cons_of_mem _ (Tags.key_of_mem_members he))
  · intro e he
    rw [List.singleton_append, List.mem_cons] at he
    rcases he with rfl | he
    · exact .str name
    · exact Tags.plain_of_mem_members he

theorem readParts_written {name : String} {tags : Tags} {room : Nat} {inner : Reader Node}
    (kind : Kind) :
    readParts room inner (Tree.ofMembers ([("kind", .str name)] ++ own ++ tags.members)) tags kind =
      readParts room inner (Tree.ofMembers own) tags kind := by
  cases kind <;> simp only [readParts] <;> rw [parts_written (by simp [Tags.keys])]

theorem read_object {members : List (Tree × Tree)} {tags : Tags} {kind : Kind} {origin : Origin}
    {room : Nat} (ht : (Tags.record origin (room + 1)).readMembers [] .empty members = .ok tags)
    (hk : Node.kind members = .ok kind) :
    read origin (room + 1) (.object members) =
      readParts (room + 1) (read .setAside room) members tags kind := by
  rw [read, ht]
  simp only [bind, Except.bind, hk]

theorem read_written {name : String} {tags : Tags} {origin : Origin} {room : Nat} (kind : Kind)
    (hn : Kind.read (.str (some name)) = .ok kind) (hk : ∀ e ∈ own, e.1 ∉ "kind" :: Tags.keys)
    (hp : ∀ e ∈ own, e.2.Plain) (hd : (Tree.ofValue (written name own tags)).depth ≤ room + 1) :
    read origin (room + 1) (Tree.ofValue (written name own tags)) =
      readParts (room + 1) (read .setAside room) (Tree.ofMembers own) tags kind := by
  obtain ⟨-, hm⟩ := Tree.depth_object_le_iff.1 hd
  have ht : (Tags.record origin (room + 1)).readMembers [] .empty
      (Tree.ofMembers ([("kind", .str name)] ++ own ++ tags.members)) = .ok tags := by
    have hpass : ∀ e ∈ [("kind", Value.str name)] ++ own,
        (Tags.record origin (room + 1)).Passes e := by
      intro e he
      have hde := hm e (List.mem_append_left _ he)
      rw [List.singleton_append, List.mem_cons] at he
      rcases he with rfl | he
      · exact Tags.passes_record (by simp [Tags.keys]) (.str name) hde
      · exact Tags.passes_record (fun h => hk e he (List.mem_cons_of_mem _ h)) (hp e he) hde
    rw [Tree.ofMembers_append, Record.readMembers_of_passes hpass]
    exact tags.read_members origin fun e he => hm e (List.mem_append_right _ he)
  have hkind : Node.kind (Tree.ofMembers ([("kind", .str name)] ++ own ++ tags.members)) =
      .ok kind := by
    refine (parts_ofMembers [] [("kind", .str name)] (own ++ tags.members) ?_ ?_).trans
      (parts_needed hn)
    · intro e he slot hslot
      rw [List.mem_singleton] at hslot
      have hne : e.1 ≠ "kind" := by
        rw [List.nil_append, List.mem_append] at he
        rcases he with he | he
        · intro h
          exact hk e he (h ▸ List.mem_cons_self)
        · intro h
          exact absurd (Tags.key_of_mem_members he) (by simp [h, Tags.keys])
      simp [hslot, Ne.symm hne]
    · intro e he
      rw [List.nil_append, List.mem_append] at he
      exact he.elim (hp e) Tags.plain_of_mem_members
  rw [← readParts_written kind]
  exact read_object ht hkind

end

theorem read_shapeMembers {shape : List (String × Node)} {room : Nat} {inner : Reader Node}
    (hd : (Tree.ofValue (.object (shapeMembers shape))).depth ≤ room)
    (hk : (Entries.keys shape).Nodup)
    (h : ∀ e ∈ shape, (Tree.ofValue e.2.toValue).depth ≤ room - 1 →
      inner (Tree.ofValue e.2.toValue) = .ok e.2) :
    Reader.map room inner (Tree.ofValue (.object (shapeMembers shape))) = .ok shape := by
  rw [shapeMembers_eq_map] at hd ⊢
  exact Reader.map_ofValue hd hk h

/-- A node in which keys differ is read back from its written form. -/
theorem read_toValue {node : Node} (h : node.Keyed) {origin : Origin} {room : Nat}
    (hd : (Tree.ofValue node.toValue).depth ≤ room) :
    read origin room (Tree.ofValue node.toValue) = .ok node := by
  -- the tags are read alike for all kinds, so that each case is about the parts of its kind
  induction h generalizing origin room with
  | primitive p tags =>
    obtain ⟨hr, -⟩ := Tree.depth_object_le_iff.1 hd
    obtain ⟨room, rfl⟩ := Nat.exists_eq_add_one.2 hr
    rw [toValue, read_written .primitive rfl (by simp [Tags.keys])
      (by simp [p.plain_toValue]) hd, readParts, parts_needed (p.read_toValue _)]
    rfl
  | @object shape policy tags hk hs ih =>
    obtain ⟨hr, hm⟩ := Tree.depth_object_le_iff.1 hd
    obtain ⟨room, rfl⟩ := Nat.exists_eq_add_one.2 hr
    have hds : (Tree.ofValue (.object (shapeMembers shape))).depth ≤ room :=
      hm ("shape", .object (shapeMembers shape)) (by simp)
    have hps := plain_shapeMembers hk fun e he => plain_toValue (hs e he)
    have hshape : Reader.map room (read .setAside room)
        (Tree.ofValue (.object (shapeMembers shape))) = .ok shape :=
      read_shapeMembers hds hk fun e he hde => ih e he (Nat.le_trans hde (Nat.sub_le room 1))
    rw [toValue, read_written .object rfl (by simp [Tags.keys])
      (by simp [hps, Value.Plain.str]) hd, readParts, parts, Tree.ofMembers, Tree.ofMembers,
      Tree.ofMembers, Record.readMembers_slot rfl (by simp) (Slot.set_needed hshape rfl),
      Record.readMembers_slot rfl (by simp) (Slot.set_needed (policy.read_name _) rfl)]
    rfl
  | @array element tags h ih =>
    obtain ⟨hr, hm⟩ := Tree.depth_object_le_iff.1 hd
    obtain ⟨room, rfl⟩ := Nat.exists_eq_add_one.2 hr
    have he : read .setAside room (Tree.ofValue element.toValue) = .ok element :=
      ih (hm ("element", element.toValue) (by simp))
    rw [toValue, read_written .array rfl (by simp [Tags.keys])
      (by simp [plain_toValue h]) hd, readParts, parts_needed he]
    rfl
  | @optional inner tags h ih =>
    obtain ⟨hr, hm⟩ := Tree.depth_object_le_iff.1 hd
    obtain ⟨room, rfl⟩ := Nat.exists_eq_add_one.2 hr
    have hi : read .setAside room (Tree.ofValue inner.toValue) = .ok inner :=
      ih (hm ("inner", inner.toValue) (by simp))
    rw [toValue, read_written .optional rfl (by simp [Tags.keys])
      (by simp [plain_toValue h]) hd, readParts, parts_needed hi]
    rfl
  | @union branches tags h ih =>
    obtain ⟨hr, hm⟩ := Tree.depth_object_le_iff.1 hd
    obtain ⟨room, rfl⟩ := Nat.exists_eq_add_one.2 hr
    have hdb : (Tree.ofValue (.list (branchValues branches))).depth ≤ room :=
      hm ("branches", .list (branchValues branches)) (by simp)
    have hpb := plain_branchValues fun b hb => plain_toValue (h b hb)
    have hbranches : Reader.list room (read .setAside room)
        (Tree.ofValue (.list (branchValues branches))) = .ok branches := by
      rw [branchValues_eq_map] at hdb ⊢
      exact Reader.list_ofValue hdb fun b hb hde => ih b hb (Nat.le_trans hde (Nat.sub_le room 1))
    rw [toValue, read_written .union rfl (by simp [Tags.keys]) (by simp [hpb]) hd,
      readParts, Nat.add_sub_cancel, parts_needed hbranches]
    rfl
  | unknown tags =>
    obtain ⟨hr, -⟩ := Tree.depth_object_le_iff.1 hd
    obtain ⟨room, rfl⟩ := Nat.exists_eq_add_one.2 hr
    rw [toValue, read_written .unknown rfl (by simp) (by simp) hd]
    rfl

end Node

end ContentSchema
