import ContentSchema.Proofs.Json.TextRoundTrip

/-! # Reading what was written

The tree of a plain value nests as deep as the value, keeps to the grammar and holds the value. A
record that is read from it looks at its own members and passes over the others.
-/

namespace ContentSchema.Json

namespace Tree

open Value (Plain)

theorem ofMembers_append (a b : List (String × Value)) :
    ofMembers (a ++ b) = ofMembers a ++ ofMembers b := by
  simp only [ofMembers_eq_map, List.map_append]

theorem itemsDepth_le_iff {items : List Tree} {n : Nat} :
    itemsDepth items ≤ n ↔ ∀ t ∈ items, t.depth ≤ n := by
  induction items with
  | nil => simp [itemsDepth]
  | cons t rest ih => simp only [itemsDepth, Nat.max_le, ih, List.forall_mem_cons]

theorem membersDepth_le_iff {members : List (Tree × Tree)} {n : Nat} :
    membersDepth members ≤ n ↔ ∀ m ∈ members, m.2.depth ≤ n := by
  induction members with
  | nil => simp [membersDepth]
  | cons m rest ih => simp only [membersDepth, Nat.max_le, ih, List.forall_mem_cons]

theorem depth_list_le_iff {items : List Value} {room : Nat} :
    (ofValue (.list items)).depth ≤ room ↔
      0 < room ∧ ∀ v ∈ items, (ofValue v).depth ≤ room - 1 := by
  have h : (ofValue (.list items)).depth ≤ room ↔
      0 < room ∧ itemsDepth (ofItems items) ≤ room - 1 := by
    rw [ofValue, depth]
    omega
  rw [h, itemsDepth_le_iff, ofItems_eq_map, List.forall_mem_map]

theorem depth_object_le_iff {members : List (String × Value)} {room : Nat} :
    (ofValue (.object members)).depth ≤ room ↔
      0 < room ∧ ∀ e ∈ members, (ofValue e.2).depth ≤ room - 1 := by
  have h : (ofValue (.object members)).depth ≤ room ↔
      0 < room ∧ membersDepth (ofMembers members) ≤ room - 1 := by
    rw [ofValue, depth]
    omega
  rw [h, membersDepth_le_iff, ofMembers_eq_map, List.forall_mem_map]

theorem grammatical_ofValue {v : Value} (h : v.Plain) : (ofValue v).grammatical = true :=
  (whole_ofValue h).grammatical

theorem itemValues?_ofItems {items : List Value} {room : Nat}
    (h : ∀ v ∈ items, (ofValue v).value? room = some v) :
    itemValues? room (ofItems items) = some items := by
  induction items with
  | nil => rfl
  | cons v rest ih =>
    simp only [List.forall_mem_cons] at h
    simp [ofItems, itemValues?, h.1, ih h.2]

theorem memberValues?_ofMembers {members : List (String × Value)} {room : Nat}
    (h : ∀ e ∈ members, (ofValue e.2).value? room = some e.2) :
    memberValues? room (ofMembers members) = some members := by
  induction members with
  | nil => rfl
  | cons e rest ih =>
    simp only [List.forall_mem_cons] at h
    simp [ofMembers, memberValues?, h.1, ih h.2]

theorem value?_ofValue {v : Value} (h : v.Plain) {room : Nat} (hd : (ofValue v).depth ≤ room) :
    (ofValue v).value? room = some v := by
  induction h generalizing room with
  | null => rfl
  | bool b => rfl
  | str s => rfl
  | list _ ih =>
    obtain ⟨hr, hi⟩ := depth_list_le_iff.1 hd
    rw [ofValue, value?, if_neg (Nat.ne_of_gt hr),
      itemValues?_ofItems fun v hv => ih v hv (hi v hv)]
    rfl
  | object hk _ ih =>
    obtain ⟨hr, hm⟩ := depth_object_le_iff.1 hd
    rw [ofValue, value?, if_neg (Nat.ne_of_gt hr),
      memberValues?_ofMembers fun e he => ih e he (hm e he), Option.map_some,
      Entries.ofList_eq_self hk]

theorem itemValues?_of_mem {items : List Value} {v : Value} {room : Nat} (hm : v ∈ items)
    (h : (ofValue v).value? room = none) : itemValues? room (ofItems items) = none := by
  induction items with
  | nil => cases hm
  | cons w rest ih =>
    rcases List.mem_cons.1 hm with rfl | hm
    · simp [ofItems, itemValues?, h]
    · simp [ofItems, itemValues?, ih hm]

theorem memberValues?_of_mem {members : List (String × Value)} {e : String × Value} {room : Nat}
    (hm : e ∈ members) (h : (ofValue e.2).value? room = none) :
    memberValues? room (ofMembers members) = none := by
  induction members with
  | nil => cases hm
  | cons m rest ih =>
    rcases List.mem_cons.1 hm with rfl | hm
    · simp [ofMembers, memberValues?, h]
    · simp [ofMembers, memberValues?, ih hm]

/-- A value that nests deeper than there is room for is not read. -/
theorem value?_of_lt_depth {v : Value} (h : v.Plain) {room : Nat} (hd : room < (ofValue v).depth) :
    (ofValue v).value? room = none := by
  induction h generalizing room with
  | null => cases hd
  | bool b => cases hd
  | str s => cases hd
  | @list items _ ih =>
    rw [ofValue, value?]
    split
    · rfl
    · next hr =>
      -- if the list is too deep, so is one of its items for the room inside
      have hdeep : ¬ ∀ v ∈ items, (ofValue v).depth ≤ room - 1 := fun hall =>
        Nat.not_le.2 hd (depth_list_le_iff.2 ⟨Nat.pos_of_ne_zero hr, hall⟩)
      obtain ⟨v, hdeep⟩ := not_forall.1 hdeep
      obtain ⟨hv, hdv⟩ := Classical.not_imp.1 hdeep
      rw [itemValues?_of_mem hv (ih v hv (Nat.not_le.1 hdv))]
      rfl
  | @object members _ _ ih =>
    rw [ofValue, value?]
    split
    · rfl
    · next hr =>
      have hdeep : ¬ ∀ e ∈ members, (ofValue e.2).depth ≤ room - 1 := fun hall =>
        Nat.not_le.2 hd (depth_object_le_iff.2 ⟨Nat.pos_of_ne_zero hr, hall⟩)
      obtain ⟨e, hdeep⟩ := not_forall.1 hdeep
      obtain ⟨he, hde⟩ := Classical.not_imp.1 hdeep
      rw [memberValues?_of_mem he (ih e he (Nat.not_le.1 hde))]
      rfl

end Tree

namespace Reader

variable {α : Type} {read : Reader α} {room : Nat}

theorem mapM_map_eq_pure {m : Type → Type} [Monad m] [LawfulMonad m] {β : Type} {f : β → m α}
    {g : α → β} {as : List α} (h : ∀ a ∈ as, f (g a) = pure a) : (as.map g).mapM f = pure as := by
  induction as with
  | nil => rfl
  | cons a rest ih =>
    rw [List.forall_mem_cons] at h
    rw [List.map_cons, List.mapM_cons, h.1, ih h.2, pure_bind, pure_bind]

theorem list_ofValue {write : α → Value} {as : List α}
    (hd : (Tree.ofValue (.list (as.map write))).depth ≤ room)
    (h : ∀ a ∈ as, (Tree.ofValue (write a)).depth ≤ room - 1 →
      read (Tree.ofValue (write a)) = .ok a) :
    list room read (Tree.ofValue (.list (as.map write))) = .ok as := by
  obtain ⟨hr, hm⟩ := Tree.depth_list_le_iff.1 hd
  rw [Tree.ofValue, list, if_neg (Nat.ne_of_gt hr), Tree.ofItems_eq_map, List.map_map]
  exact mapM_map_eq_pure fun a ha => h a ha (hm _ (List.mem_map_of_mem ha))

theorem map_ofValue {write : α → Value} {entries : List (String × α)}
    (hd : (Tree.ofValue (.object (entries.map fun e => (e.1, write e.2)))).depth ≤ room)
    (hk : (Entries.keys entries).Nodup)
    (h : ∀ e ∈ entries, (Tree.ofValue (write e.2)).depth ≤ room - 1 →
      read (Tree.ofValue (write e.2)) = .ok e.2) :
    map room read (Tree.ofValue (.object (entries.map fun e => (e.1, write e.2)))) =
      .ok entries := by
  obtain ⟨hr, hm⟩ := Tree.depth_object_le_iff.1 hd
  have he : (Tree.ofMembers (entries.map fun e => (e.1, write e.2))).mapM (entry read) =
      .ok entries := by
    rw [Tree.ofMembers_eq_map, List.map_map]
    apply mapM_map_eq_pure
    intro e he
    simp only [Function.comp_apply, entry, h e he (hm _ (List.mem_map_of_mem he))]
    rfl
  rw [Tree.ofValue, map, if_neg (Nat.ne_of_gt hr), he]
  exact congrArg Except.ok (Entries.ofList_eq_self hk)

end Reader

namespace Slot

variable {α β : Type} (key : String) (read : Reader β) (put : α → β → α)

@[simp] theorem key_needed : (needed key read put).key = key := rfl

@[simp] theorem key_defaulted : (defaulted key read put).key = key := rfl

@[simp] theorem answers_needed (k : String) : (needed key read put).answers k = (key == k) := by
  simp [answers, needed]

@[simp] theorem answers_defaulted (k : String) :
    (defaulted key read put).answers k = (key == k) := by
  simp [answers, defaulted, needed]

variable {key read put} {t : Tree} {a b : α} {v : β}

theorem set_needed (h : read t = .ok v) (hb : put a v = b) :
    (needed key read put).set a t = .ok b :=
  hb ▸ congrArg (Except.map (put a)) h

theorem set_defaulted (h : read t = .ok v) (hb : put a v = b) :
    (defaulted key read put).set a t = .ok b :=
  hb ▸ congrArg (Except.map (put a)) h

end Slot

namespace Record

variable {α : Type} {record : Record α}

/-- A member that is none of the record's own and does not hinder its reading. -/
def Passes (record : Record α) (member : String × Value) : Prop :=
  record.slots.find? (·.answers member.1) = none ∧
    record.readOther member.1 (Tree.ofValue member.2) = .ok ()

theorem readMembers_of_passes {members : List (String × Value)} (h : ∀ e ∈ members, record.Passes e)
    (seen : List String) (a : α) (rest : List (Tree × Tree)) :
    record.readMembers seen a (Tree.ofMembers members ++ rest) =
      record.readMembers seen a rest := by
  induction members with
  | nil => rfl
  | cons e others ih =>
    rw [List.forall_mem_cons] at h
    obtain ⟨⟨hf, ho⟩, hr⟩ := h
    simp [Tree.ofMembers, readMembers, Reader.key, hf, ho, ih hr, bind, Except.bind]

theorem readMembers_append_of_passes {members : List (String × Value)}
    (h : ∀ e ∈ members, record.Passes e) (seen : List String) (a : α)
    (before : List (Tree × Tree)) :
    record.readMembers seen a (before ++ Tree.ofMembers members) =
      record.readMembers seen a before := by
  induction before generalizing seen a with
  | nil => simpa using readMembers_of_passes h seen a []
  | cons m rest ih => simp only [List.cons_append, readMembers, ih]

theorem readMembers_slot {key : String} {t : Tree} {slot : Slot α} {seen : List String} {a b : α}
    {rest : List (Tree × Tree)} (hf : record.slots.find? (·.answers key) = some slot)
    (hs : slot.key ∉ seen) (hb : slot.set a t = .ok b) :
    record.readMembers seen a ((.str (some key), t) :: rest) =
      record.readMembers (slot.key :: seen) b rest := by
  simp [readMembers, Reader.key, hf, hs, hb, bind, Except.bind]

theorem readMembers_optional {β : Type} {key : String} {value : Option β} {write : β → Value}
    {slot : Slot α} {seen : List String} {a b : α} {rest : List (Tree × Tree)}
    (hf : record.slots.find? (·.answers key) = some slot) (hs : slot.key ∉ seen)
    (hn : value = none → a = b)
    (hb : ∀ v, value = some v → slot.set a (Tree.ofValue (write v)) = .ok b) :
    record.readMembers seen a
        (Tree.ofMembers (Value.optional key (value.map write)) ++ rest) =
      record.readMembers ((value.map fun _ => slot.key).toList ++ seen) b rest := by
  cases value with
  | none =>
    rw [hn rfl]
    rfl
  | some v => exact readMembers_slot hf hs (hb v rfl)

end Record

end ContentSchema.Json
