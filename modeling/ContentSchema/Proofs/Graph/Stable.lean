import ContentSchema.Proofs.Graph.Sorted
import Mathlib.Data.List.Sort

/-! # Stability of the order

A visit adds to the list only what it leads to. So a content type is listed ahead of an earlier one
only where it is needed up to there, and what is in order already stays as it is.
-/

namespace ContentSchema

namespace Order

variable {n : Nat} {links : Fin n → List (Fin n)}

/-- The list so far is kept as it is, and what comes after it is reached from `starts`. -/
structure Appends (links : Fin n → List (Fin n)) (starts : Fin n → Prop)
    (done done' : List (Fin n)) : Prop where
  kept : done <+: done'
  reached : ∀ i ∈ done', i ∈ done ∨ ∃ k, starts k ∧ Relation.ReflTransGen (Leads links) k i

namespace Appends

variable {starts starts' : Fin n → Prop} {done done' done'' : List (Fin n)}

theorem refl : Appends links starts done done := ⟨List.prefix_rfl, fun _ => .inl⟩

theorem trans (h : Appends links starts done done') (h' : Appends links starts done' done'') :
    Appends links starts done done'' :=
  ⟨h.kept.trans h'.kept, fun i hi => (h'.reached i hi).elim (h.reached i) .inr⟩

theorem mono (h : Appends links starts done done')
    (hs : ∀ k, starts k → ∃ k', starts' k' ∧ Relation.ReflTransGen (Leads links) k' k) :
    Appends links starts' done done' := by
  refine ⟨h.kept, fun i hi => (h.reached i hi).imp_right ?_⟩
  rintro ⟨k, hk, hr⟩
  obtain ⟨k', hk', hr'⟩ := hs k hk
  exact ⟨k', hk', hr'.trans hr⟩

end Appends

variable {off way done done' : List (Fin n)} {here : Fin n}

theorem visit_appends (h : visit links off way done here = .ok done') :
    Appends links (· = here) done done' := by
  induction off, way, done, here using visit.induct generalizing done' with
  | case1 off way done here hd =>
    rw [visit_of_mem_done hd] at h
    obtain rfl := Except.ok.inj h
    exact .refl
  | case2 off way done here hd ho ih =>
    rw [visit_of_mem_off hd ho] at h
    obtain ⟨d, hf, h⟩ := bind_eq_ok.1 h
    obtain rfl := Except.ok.inj h
    -- what is reached from a position that `here` links to is reached from `here`
    have step (next : Fin n) (hn : next ∈ links here) (d d' : List (Fin n))
        (hv : visit links (off.erase here) (way ++ [here]) d next = .ok d') :
        Appends links (· = here) d d' ∧ True := by
      refine ⟨(ih d next hv).mono ?_, trivial⟩
      rintro _ rfl
      exact ⟨here, rfl, .single hn⟩
    obtain ⟨hx, -⟩ := foldlM_ok (R := Appends links (· = here)) (M := fun _ _ => True)
      (fun _ => .refl) .trans (fun _ => id) step hf
    refine hx.trans ⟨List.prefix_append d [here], fun i hi => ?_⟩
    refine (List.mem_append.1 hi).imp_right fun hi => ?_
    exact ⟨here, rfl, List.mem_singleton.1 hi ▸ .refl⟩
  | case3 off way done here hd ho =>
    rw [visit_of_not_mem hd ho] at h
    cases h

/-- When a position has been visited, the list holds it, and nothing but what is reached from the
positions up to there. -/
theorem exists_prefix_of_positions {places : List (Fin n)} (h : positions links = .ok places)
    (a : Fin n) :
    ∃ done, done <+: places ∧ a ∈ done ∧
      ∀ i ∈ done, ∃ k ≤ a, Relation.ReflTransGen (Leads links) k i := by
  have hsorted := List.pairwise_lt_finRange n
  obtain ⟨before, after, hs⟩ := List.append_of_mem (List.mem_finRange a)
  rw [hs, List.pairwise_append] at hsorted
  have hstarts : ∀ k ∈ before ++ [a], k ≤ a := by
    intro k hk
    rcases List.mem_append.1 hk with hk | hk
    · exact (hsorted.2.2 k hk a List.mem_cons_self).le
    · exact (List.mem_singleton.1 hk).le
  have hsplit : List.finRange n = (before ++ [a]) ++ after := by simp [hs]
  have step (as : List (Fin n)) (a : Fin n) (ha : a ∈ as) (d d' : List (Fin n))
      (hv : visit links (List.finRange n) [] d a = .ok d') :
      Appends links (· ∈ as) d d' ∧ a ∈ d' := by
    refine ⟨(visit_appends hv).mono ?_, (visit_ok (List.nodup_finRange n) hv).2⟩
    rintro _ rfl
    exact ⟨_, ha, .refl⟩
  rw [positions] at h
  generalize hv : visit links (List.finRange n) [] = v at h step
  -- the run is cut where `a` has just been visited
  rw [hsplit, List.foldlM_append] at h
  obtain ⟨done, hd, h⟩ := bind_eq_ok.1 h
  obtain ⟨hx, hm⟩ := foldlM_ok (R := Appends links (· ∈ before ++ [a])) (M := (· ∈ ·))
    (fun _ => .refl) .trans (fun hx hi => hx.kept.subset hi) (step _) hd
  obtain ⟨hx', -⟩ := foldlM_ok (R := Appends links (· ∈ after)) (M := (· ∈ ·))
    (fun _ => .refl) .trans (fun hx hi => hx.kept.subset hi) (step _) h
  refine ⟨done, hx'.kept, hm a (by simp), fun i hi => ?_⟩
  obtain ⟨k, hk, hr⟩ := (hx.reached i hi).resolve_left List.not_mem_nil
  exact ⟨k, hstarts k hk, hr⟩

theorem exists_leads_of_idxOf_lt {places : List (Fin n)} (h : positions links = .ok places)
    {a b : Fin n} (hab : a < b) (hl : places.idxOf b < places.idxOf a) :
    ∃ k ≤ a, Relation.TransGen (Leads links) k b := by
  obtain ⟨done, ⟨later, rfl⟩, ha, hr⟩ := exists_prefix_of_positions h a
  have hb : b ∈ done := by
    by_contra hb
    rw [List.idxOf_append_of_mem ha, List.idxOf_append_of_notMem hb] at hl
    have := List.idxOf_lt_length_of_mem ha
    omega
  obtain ⟨k, hk, hr⟩ := hr b hb
  refine ⟨k, hk, (Relation.reflTransGen_iff_eq_or_transGen.1 hr).resolve_left ?_⟩
  rintro rfl
  exact absurd hk (not_le.2 hab)

end Order

namespace ContentType

variable {types sorted : List ContentType}

theorem lt_of_transGen (hl : ∀ i j, LinksTo types i j → j < i) {i j : Fin types.length}
    (h : Relation.TransGen (LinksTo types) i j) : j < i := by
  induction h with
  | single h => exact hl _ _ h
  | tail _ h ih => exact (hl _ _ h).trans ih

theorem order_eq_self (hl : ∀ i j, LinksTo types i j → j < i) : order types = .ok types := by
  obtain ⟨sorted, h⟩ := exists_order_iff.2 fun i hc => lt_irrefl i (lt_of_transGen hl hc)
  obtain ⟨places, hp, rfl⟩ := exists_positions h
  obtain ⟨ho, hm⟩ := Order.positions_ok hp
  have hperm : places.Perm (List.finRange types.length) :=
    (List.perm_ext_iff_of_nodup ho.nodup (List.nodup_finRange _)).2 (by simpa using hm)
  have hle : places.Pairwise (· ≤ ·) := by
    rw [List.pairwise_iff_getElem]
    intro p q hp' hq hpq
    by_contra hlt
    obtain ⟨k, hk, hr⟩ := Order.exists_leads_of_idxOf_lt hp (not_le.1 hlt)
      (by rwa [ho.nodup.idxOf_getElem, ho.nodup.idxOf_getElem])
    rw [leads_eq_linksTo] at hr
    exact absurd ((lt_of_transGen hl hr).trans_le hk) (lt_asymm (not_le.1 hlt))
  have heq : places = List.finRange types.length :=
    hperm.eq_of_pairwise (fun _ _ _ _ => le_antisymm) hle
      ((List.pairwise_lt_finRange _).imp le_of_lt)
  rw [h, heq]
  simp

theorem lt_of_linksTo_order (hn : (types.map (·.id)).Nodup) (h : order types = .ok sorted)
    (i j : Fin sorted.length) (hl : LinksTo sorted i j) : j < i := by
  obtain ⟨places, rfl, hnodup, -, hlt⟩ := exists_places h
  have hi : i.val < places.length := by simpa using i.isLt
  have hj : j.val < places.length := by simpa using j.isLt
  have hlinks : LinksTo types places[i.val] places[j.val] := by
    rw [← leads_iff_linksTo]
    exact (mem_links_iff hn).2 (by simpa using hl.1)
  have := hlt _ _ hlinks
  rwa [hnodup.idxOf_getElem, hnodup.idxOf_getElem] at this

end ContentType

/-- In an order, a content type comes ahead of an earlier one only where a content type up to there
leads to it. So content types that come after all that they link to stay as they are, and where ids
are unique, so does every order. -/
theorem order_stable (types : List ContentType) :
    (∀ sorted, ContentType.order types = .ok sorted →
      ∃ places, Order.positions (ContentType.links types) = .ok places ∧
        sorted = places.map types.get ∧ places.Nodup ∧ (∀ i, i ∈ places) ∧
        ∀ a b, a < b → places.idxOf b < places.idxOf a →
          ∃ k ≤ a, Relation.TransGen (ContentType.LinksTo types) k b) ∧
    ((∀ i j, ContentType.LinksTo types i j → j < i) → ContentType.order types = .ok types) ∧
    ((types.map (·.id)).Nodup → ∀ sorted, ContentType.order types = .ok sorted →
      ContentType.order sorted = .ok sorted) := by
  refine ⟨fun sorted h => ?_, ContentType.order_eq_self, fun hn sorted h => ?_⟩
  · obtain ⟨places, hp, rfl⟩ := ContentType.exists_positions h
    obtain ⟨ho, hm⟩ := Order.positions_ok hp
    refine ⟨places, hp, rfl, ho.nodup, hm, fun a b hab hl => ?_⟩
    rw [← ContentType.leads_eq_linksTo]
    exact Order.exists_leads_of_idxOf_lt hp hab hl
  · exact ContentType.order_eq_self (ContentType.lt_of_linksTo_order hn h)

/-- The last content type moves to the front, as the first one links to it, and the second one stays
behind the first. -/
theorem order_stable_linking :
    ContentType.order [linking "a" 0 ["c"], linking "b" 0 [], linking "c" 0 []] =
        .ok [linking "c" 0 [], linking "a" 0 ["c"], linking "b" 0 []] ∧
      (∃ places : List (Fin 3), places = [2, 0, 1] ∧ places.idxOf 2 < places.idxOf 0 ∧
        ∃ k ≤ 0, Relation.TransGen (ContentType.LinksTo
          [linking "a" 0 ["c"], linking "b" 0 [], linking "c" 0 []]) k 2) ∧
      ContentType.order [linking "c" 0 [], linking "a" 0 ["c"], linking "b" 0 []] =
        .ok [linking "c" 0 [], linking "a" 0 ["c"], linking "b" 0 []] ∧
      ContentType.order [linking "b" 0 [], linking "a" 0 ["b"]] =
        .ok [linking "b" 0 [], linking "a" 0 ["b"]] := by
  have h : ContentType.order [linking "a" 0 ["c"], linking "b" 0 [], linking "c" 0 []] =
      .ok [linking "c" 0 [], linking "a" 0 ["c"], linking "b" 0 []] := by cbv
  have hp : Order.positions (ContentType.links
      [linking "a" 0 ["c"], linking "b" 0 [], linking "c" 0 []]) = .ok [2, 0, 1] := by cbv
  obtain ⟨hmoved, -, hordered⟩ :=
    order_stable [linking "a" 0 ["c"], linking "b" 0 [], linking "c" 0 []]
  obtain ⟨places, hplaces, -, -, -, hlead⟩ := hmoved _ h
  obtain rfl := Except.ok.inj (hp.symm.trans hplaces)
  refine ⟨h, ⟨_, rfl, by decide, hlead 0 2 (by decide) (by decide)⟩, hordered (by decide) _ h, ?_⟩
  exact (order_stable [linking "b" 0 [], linking "a" 0 ["b"]]).2.1 (by decide)

end ContentSchema
