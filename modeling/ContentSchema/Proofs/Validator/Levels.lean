import ContentSchema.Proofs.Validator.Inlining
import ContentSchema.Proofs.Validator.Stored

/-! # Levels of stored validators

How deep the stored form of a node nests. Each part of a node lies one level or two below the node,
and the tags of a node take three levels at most.
-/

namespace ContentSchema

open Json

def Tags.levels (tags : Tags) : Nat := (Tree.ofValue (.object tags.members)).depth

theorem Tags.levels_pos (tags : Tags) : 0 < tags.levels := Nat.succ_pos _

theorem Tags.levels_le (tags : Tags) : tags.levels ≤ 3 := by
  have hlist (texts : List String) : (Tree.ofValue (.list (texts.map .str))).depth ≤ 1 := by
    refine Tree.depth_list_le_iff.2 ⟨Nat.one_pos, ?_⟩
    simp [Tree.ofValue, Tree.depth]
  refine Tree.depth_object_le_iff.2 ⟨by omega, ?_⟩
  intro e he
  simp only [members, Value.optional, List.mem_append, List.mem_map, Option.mem_toList,
    Option.map_eq_some_iff] at he
  rcases he with (⟨_, ⟨r, -, rfl⟩, rfl⟩ | ⟨_, ⟨l, -, rfl⟩, rfl⟩) | ⟨_, ⟨c, -, rfl⟩, rfl⟩
  · refine Tree.depth_object_le_iff.2 ⟨by omega, ?_⟩
    simp [Tree.ofValue, Tree.depth]
  · refine Tree.depth_object_le_iff.2 ⟨by omega, ?_⟩
    simpa [Tree.ofValue, Tree.depth] using hlist l.targets
  · exact Nat.zero_le _

namespace Node

/-- The levels that the stored form of a node takes. -/
def levels (node : Node) : Nat := (Tree.ofValue node.toValue).depth

/-- Whether the parts of a node fit into so many levels with the node. -/
def PartsFit (n : Nat) : Node → Prop
  | primitive p _ => (Tree.ofValue p.toValue).depth + 1 ≤ n
  | object shape _ _ => 2 ≤ n ∧ ∀ e ∈ shape, e.2.levels + 2 ≤ n
  | array element _ => element.levels + 1 ≤ n
  | optional inner _ => inner.levels + 1 ≤ n
  | union branches _ => 2 ≤ n ∧ ∀ b ∈ branches, b.levels + 2 ≤ n
  | unknown _ => True

variable {node : Node} {n : Nat}

theorem partsFit_withTags (tags : Tags) : (node.withTags tags).PartsFit n ↔ node.PartsFit n := by
  cases node <;> rfl

theorem depth_written_le_iff {kind : String} {parts : List (String × Value)} {tags : Tags} :
    (Tree.ofValue (written kind parts tags)).depth ≤ n ↔
      tags.levels ≤ n ∧ ∀ e ∈ parts, (Tree.ofValue e.2).depth + 1 ≤ n := by
  rw [written, Tree.depth_object_le_iff, Tags.levels, Tree.depth_object_le_iff]
  simp only [List.cons_append, List.forall_mem_cons, List.forall_mem_append]
  constructor
  · rintro ⟨hn, -, hparts, htags⟩
    refine ⟨⟨hn, htags⟩, ?_⟩
    intro e he
    have hd := hparts e he
    omega
  · rintro ⟨⟨hn, htags⟩, hparts⟩
    refine ⟨hn, Nat.zero_le _, ?_, htags⟩
    intro e he
    have hd := hparts e he
    omega

theorem depth_shapeMembers_le_iff {shape : List (String × Node)} :
    (Tree.ofValue (.object (shapeMembers shape))).depth ≤ n ↔
      0 < n ∧ ∀ e ∈ shape, e.2.levels + 1 ≤ n := by
  rw [Tree.depth_object_le_iff, shapeMembers_eq_map, List.forall_mem_map]
  refine and_congr_right fun hn => forall₂_congr fun e _ => ?_
  simp only [levels]
  omega

theorem depth_branchValues_le_iff {branches : List Node} :
    (Tree.ofValue (.list (branchValues branches))).depth ≤ n ↔
      0 < n ∧ ∀ b ∈ branches, b.levels + 1 ≤ n := by
  rw [Tree.depth_list_le_iff, branchValues_eq_map, List.forall_mem_map]
  refine and_congr_right fun hn => forall₂_congr fun b _ => ?_
  rw [levels]
  omega

/-- The levels of a node are those of its tags and of its parts. -/
theorem levels_le_iff : node.levels ≤ n ↔ node.tags.levels ≤ n ∧ node.PartsFit n := by
  have below {m : Nat} : m + 1 ≤ n ↔ m ≤ n - 1 ∧ 0 < n := by omega
  rw [levels]
  cases node with
  | primitive p tags =>
    rw [toValue, depth_written_le_iff, List.forall_mem_singleton]
    rfl
  | object shape policy tags =>
    rw [toValue, depth_written_le_iff, List.forall_mem_cons, List.forall_mem_singleton, below,
      depth_shapeMembers_le_iff]
    refine and_congr_right fun ht => ?_
    have hpolicy : (Tree.ofValue (.str policy.name)).depth = 0 := rfl
    simp only [PartsFit, hpolicy]
    constructor
    · rintro ⟨⟨⟨hn, hall⟩, -⟩, -⟩
      refine ⟨by omega, fun e he => ?_⟩
      have hle := hall e he
      omega
    · rintro ⟨hn, hall⟩
      refine ⟨⟨⟨by omega, fun e he => ?_⟩, by omega⟩, by omega⟩
      have hle := hall e he
      omega
  | array element tags =>
    rw [toValue, depth_written_le_iff, List.forall_mem_singleton]
    rfl
  | optional inner tags =>
    rw [toValue, depth_written_le_iff, List.forall_mem_singleton]
    rfl
  | union branches tags =>
    rw [toValue, depth_written_le_iff, List.forall_mem_singleton, below,
      depth_branchValues_le_iff]
    refine and_congr_right fun ht => ?_
    simp only [PartsFit]
    constructor
    · rintro ⟨⟨hn, hall⟩, -⟩
      refine ⟨by omega, fun b hb => ?_⟩
      have hle := hall b hb
      omega
    · rintro ⟨hn, hall⟩
      refine ⟨⟨by omega, fun b hb => ?_⟩, by omega⟩
      have hle := hall b hb
      omega
  | unknown tags =>
    rw [toValue, depth_written_le_iff]
    simp [PartsFit, Node.tags]

theorem levels_pos (node : Node) : 0 < node.levels :=
  Nat.lt_of_lt_of_le node.tags.levels_pos (levels_le_iff.1 (Nat.le_refl _)).1

theorem levels_withTags_le {tags : Tags} (h : node.levels ≤ n) (hn : 3 ≤ n) :
    (node.withTags tags).levels ≤ n := by
  refine levels_le_iff.2 ⟨?_, (partsFit_withTags tags).2 (levels_le_iff.1 h).2⟩
  have ht := (node.withTags tags).tags.levels_le
  omega

theorem levels_le_levels_withTags (h : node.tags = .empty) (tags : Tags) :
    node.levels ≤ (node.withTags tags).levels := by
  obtain ⟨ht, hp⟩ := levels_le_iff.1 (Nat.le_refl (node.withTags tags).levels)
  refine levels_le_iff.2 ⟨?_, (partsFit_withTags tags).1 hp⟩
  have hone : node.tags.levels = 1 := by
    rw [h]
    rfl
  have hpos := levels_pos (node.withTags tags)
  omega

theorem levels_child_lt {child : Node} (h : child ∈ node.children) :
    child.levels < node.levels := by
  have hp := (levels_le_iff.1 (Nat.le_refl node.levels)).2
  cases node with
  | primitive p tags => cases h
  | object shape policy tags =>
    obtain ⟨e, he, rfl⟩ := List.mem_map.1 h
    have hle := hp.2 e he
    omega
  | array element tags => exact List.mem_singleton.1 h ▸ hp
  | optional inner tags => exact List.mem_singleton.1 h ▸ hp
  | union branches tags =>
    have hle := hp.2 child h
    omega
  | unknown tags => cases h

theorem levels_object_le_iff {shape : List (String × Node)} {policy : ObjectPolicy} :
    (object shape policy .empty).levels ≤ n ↔ 2 ≤ n ∧ ∀ e ∈ shape, e.2.levels + 2 ≤ n := by
  have hempty : Tags.empty.levels = 1 := rfl
  rw [levels_le_iff]
  simp only [tags, hempty, PartsFit]
  refine ⟨fun h => h.2, fun h => ⟨by omega, h⟩⟩

theorem levels_part {shape : List (String × Node)} (policy : ObjectPolicy) {key : String}
    {part : Node} (h : (key, part) ∈ shape) :
    part.levels + 2 ≤ (object shape policy .empty).levels :=
  (levels_object_le_iff.1 (Nat.le_refl _)).2 _ h

theorem levels_listed_le (h : node.levels ≤ n) (hn : 3 ≤ n) : node.listed.levels ≤ n + 1 := by
  refine levels_le_iff.2 ⟨?_, Nat.succ_le_succ (levels_withTags_le h hn)⟩
  have ht := node.listed.tags.levels_le
  omega

theorem levels_wrapped_le (h : node.levels ≤ n) (hn : 3 ≤ n) : node.wrapped.levels ≤ n + 1 := by
  refine levels_le_iff.2 ⟨?_, Nat.succ_le_succ (levels_withTags_le h hn)⟩
  have ht := node.wrapped.tags.levels_le
  omega

theorem levels_openLink : openLink.levels = 6 := by decide

theorem levels_link_le {copies : Option (List (String × Node))} {targets : List String}
    (h : ∀ t ∈ targets, (linkTarget copies t).levels ≤ n) (hn : 4 ≤ n) :
    (link targets copies).levels ≤ n + 2 := by
  match targets with
  | [] =>
    have ho := levels_openLink
    rw [link]
    omega
  | [t] =>
    have ht := h t List.mem_cons_self
    exact levels_withTags_le (by omega) (by omega)
  | a :: b :: rest =>
    have hu : (union ((a :: b :: rest).map (linkTarget copies)) .empty).levels ≤ n + 2 := by
      refine levels_le_iff.2 ⟨?_, (by omega : 2 ≤ n + 2), ?_⟩
      · exact Nat.le_trans (Tags.levels_le _) (by omega)
      · rw [List.forall_mem_map]
        intro t ht
        exact Nat.add_le_add_right (h t ht) 2
    rw [link_cons_cons]
    exact levels_withTags_le hu (by omega)

end Node

end ContentSchema
