import ContentSchema.Proofs.Graph.Coverage

/-! # Sorted content types

Content types are put in order just where no links lead from a position back to it, ids that are
used more than once included. The order then has each position once, and after those that it links
to.
-/

namespace ContentSchema

namespace Order

variable {n : Nat} {links : Fin n → List (Fin n)} {done : List (Fin n)}

theorem Ordered.idxOf_lt (h : Ordered links done) {i j : Fin n} (hi : i ∈ done) (hj : j ∈ links i) :
    done.idxOf j < done.idxOf i := by
  induction h with
  | nil => cases hi
  | @snoc done last h hlast hl ih =>
    rcases List.mem_append.1 hi with hi | hi
    · rw [List.idxOf_append_of_mem hi, List.idxOf_append_of_mem (h.mem_of_mem_links hi hj)]
      exact ih hi
    · obtain rfl := List.mem_singleton.1 hi
      rw [List.idxOf_append_of_mem (hl j hj), List.idxOf_append_of_notMem hlast]
      exact Nat.lt_add_right _ (List.idxOf_lt_length_of_mem (hl j hj))

end Order

namespace ContentType

variable {types sorted : List ContentType} {id : String} {i j : Fin types.length}
  {places : List (Fin types.length)}

/-- The content type at `i` links to the one at `j`, which is the last of its id. -/
def LinksTo (types : List ContentType) (i j : Fin types.length) : Prop :=
  (types.get j).id ∈ (types.get i).dependencies ∧ ∀ k, j < k → (types.get k).id ≠ (types.get j).id

instance : Decidable (LinksTo types i j) := inferInstanceAs (Decidable (_ ∧ _))

theorem position?_eq_some_iff_last :
    position? types id = some i ↔ (types.get i).id = id ∧ ∀ k, i < k → (types.get k).id ≠ id := by
  have hd : (List.finRange types.length).reverse.Pairwise (· > ·) :=
    List.pairwise_reverse.2 (List.pairwise_lt_finRange _)
  have hall (k : Fin types.length) : k ∈ (List.finRange types.length).reverse := by simp
  rw [position?, List.find?_eq_some_iff_append]
  constructor
  · rintro ⟨hi, later, earlier, hs, hl⟩
    refine ⟨beq_iff_eq.1 hi, fun k hk => ?_⟩
    rw [hs, List.pairwise_append, List.pairwise_cons] at hd
    rcases List.mem_append.1 (hs ▸ hall k) with hm | hm
    · simpa using hl k hm
    · rcases List.mem_cons.1 hm with rfl | hm
      · exact absurd hk (Nat.lt_irrefl _)
      · exact absurd hk (Nat.lt_asymm (hd.2.1.1 k hm))
  · rintro ⟨hi, hl⟩
    obtain ⟨later, earlier, hs⟩ := List.append_of_mem (hall i)
    refine ⟨beq_iff_eq.2 hi, later, earlier, hs, fun k hk => ?_⟩
    rw [hs, List.pairwise_append] at hd
    simpa using hl k (hd.2.2 k hk i List.mem_cons_self)

/-- The links that the order follows, whether or not an id is used more than once. -/
theorem leads_iff_linksTo : Order.Leads (links types) i j ↔ LinksTo types i j := by
  simp only [Order.Leads, links, List.mem_filterMap, position?_eq_some_iff_last]
  constructor
  · rintro ⟨id, hid, rfl, hl⟩
    exact ⟨hid, hl⟩
  · rintro ⟨hid, hl⟩
    exact ⟨_, hid, rfl, hl⟩

theorem leads_eq_linksTo : Order.Leads (links types) = LinksTo types := by
  funext i j
  exact propext leads_iff_linksTo

theorem order_of_positions (h : Order.positions (links types) = .ok places) :
    order types = .ok (places.map types.get) := by
  rw [order, h]
  rfl

theorem exists_positions (h : order types = .ok sorted) :
    ∃ places, Order.positions (links types) = .ok places ∧ sorted = places.map types.get := by
  unfold order at h
  cases hp : Order.positions (links types) with
  | error circle => simp [hp] at h
  | ok places =>
    rw [hp] at h
    exact ⟨places, rfl, (Except.ok.inj h).symm⟩

theorem exists_order_iff :
    (∃ sorted, order types = .ok sorted) ↔ ∀ i, ¬ Relation.TransGen (LinksTo types) i i := by
  rw [← leads_eq_linksTo]
  constructor
  · rintro ⟨sorted, h⟩
    exact acyclic_of_order_ok h
  · intro hc
    cases hp : Order.positions (links types) with
    | ok places => exact ⟨_, order_of_positions hp⟩
    | error circle => exact absurd (Order.positions_error hp).transGen (hc circle.first)

theorem exists_places (h : order types = .ok sorted) :
    ∃ places : List (Fin types.length), sorted = places.map types.get ∧ places.Nodup ∧
      (∀ i, i ∈ places) ∧ ∀ i j, LinksTo types i j → places.idxOf j < places.idxOf i := by
  obtain ⟨places, hp, rfl⟩ := exists_positions h
  obtain ⟨ho, hm⟩ := Order.positions_ok hp
  refine ⟨places, rfl, ho.nodup, hm, fun i j hl => ?_⟩
  exact ho.idxOf_lt (hm i) (leads_iff_linksTo.2 hl)

end ContentType

/-- The content types of a list can be put in order if and only if none of their links lead from a
position back to it. An order has each position of the list once, and after all those that it links
to. A link leads to the last content type of its id. -/
theorem types_sorted (types : List ContentType) :
    ((∃ sorted, ContentType.order types = .ok sorted) ↔
      ∀ i, ¬ Relation.TransGen (ContentType.LinksTo types) i i) ∧
    ∀ sorted, ContentType.order types = .ok sorted →
      ∃ places : List (Fin types.length), sorted = places.map types.get ∧ places.Nodup ∧
        (∀ i, i ∈ places) ∧
        ∀ i j, ContentType.LinksTo types i j → places.idxOf j < places.idxOf i :=
  ⟨ContentType.exists_order_iff, fun _ => ContentType.exists_places⟩

/-- The first content type links to its own id, but the last one of that id is another. -/
theorem types_sorted_repeated :
    ContentType.order [linking "a" 0 ["a"], linking "a" 0 []] =
        .ok [linking "a" 0 [], linking "a" 0 ["a"]] ∧
      (∃ places : List (Fin 2), places.map [linking "a" 0 ["a"], linking "a" 0 []].get =
          [linking "a" 0 [], linking "a" 0 ["a"]] ∧ places.idxOf 1 < places.idxOf 0) ∧
      ¬ Relation.TransGen (ContentType.LinksTo [linking "a" 0 ["a"], linking "a" 0 []]) 0 0 ∧
      ¬ ∃ sorted, ContentType.order [linking "a" 0 [], linking "a" 0 ["a"]] = .ok sorted := by
  have h : ContentType.order [linking "a" 0 ["a"], linking "a" 0 []] =
      .ok [linking "a" 0 [], linking "a" 0 ["a"]] := by cbv
  obtain ⟨hiff, hsorted⟩ := types_sorted [linking "a" 0 ["a"], linking "a" 0 []]
  obtain ⟨places, hp, -, -, hl⟩ := hsorted _ h
  refine ⟨h, ⟨places, hp.symm, hl 0 1 (by decide)⟩, hiff.1 ⟨_, h⟩ 0, ?_⟩
  rw [(types_sorted [linking "a" 0 [], linking "a" 0 ["a"]]).1]
  intro hc
  exact hc 1 (.single (by decide))

end ContentSchema
