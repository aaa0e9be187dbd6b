import ContentSchema.Graph.Order
import Mathlib.Data.List.Chain
import Mathlib.Data.List.Nodup
import Mathlib.Logic.Relation

/-! # Dependency order

A walk that succeeds lists each position once and after those that it links to, so that there is no
circle of links. A walk that fails has found such a circle: each visit is made at the end of a way
that follows links and holds just the positions in progress, and the circle is cut out of it.
-/

namespace ContentSchema

/-- Each leads to the next by `R`, and the last one to the first. -/
def Circle.Closed {α : Type} (R : α → α → Prop) (circle : Circle α) : Prop :=
  (circle.first :: circle.later ++ [circle.first]).IsChain R

theorem transGen_of_isChain {α : Type} {R : α → α → Prop} {a b : α} {between : List α}
    (h : (a :: between ++ [b]).IsChain R) : Relation.TransGen R a b := by
  induction between generalizing a with
  | nil => exact .single (List.isChain_pair.1 h)
  | cons c rest ih =>
    obtain ⟨hac, hc⟩ := List.isChain_cons_cons.1 h
    exact .head hac (ih hc)

theorem transGen_of_mem_isChain {α : Type} {R : α → α → Prop} {a : α} {way : List α} (ha : a ∈ way)
    (h : (way ++ [a]).IsChain R) : Relation.TransGen R a a := by
  obtain ⟨before, after, rfl⟩ := List.append_of_mem ha
  rw [List.append_assoc] at h
  exact transGen_of_isChain (List.isChain_append.1 h).2.1

theorem Circle.Closed.transGen {α : Type} {R : α → α → Prop} {circle : Circle α}
    (h : circle.Closed R) : Relation.TransGen R circle.first circle.first :=
  transGen_of_isChain h

theorem exists_transGen {α β : Type} {f : α → β} {R : α → α → Prop} {S : β → β → Prop}
    (step : ∀ a y, S (f a) y → ∃ b, f b = y ∧ R a b) {a : α} {y : β}
    (h : Relation.TransGen S (f a) y) : ∃ b, f b = y ∧ Relation.TransGen R a b := by
  induction h with
  | single hs =>
    obtain ⟨b, hb, hr⟩ := step a _ hs
    exact ⟨b, hb, .single hr⟩
  | tail _ hs ih =>
    obtain ⟨b, rfl, hr⟩ := ih
    obtain ⟨c, hc, hrc⟩ := step b _ hs
    exact ⟨c, hc, hr.tail hrc⟩

namespace Order

section

variable {α β ε : Type} {f : β → α → Except ε β} {as : List α} {start : β}

/-- What is made so is in line with what was there, and every step leaves its mark. -/
theorem foldlM_ok {R : β → β → Prop} {M : α → β → Prop} {b : β} (refl : ∀ b, R b b)
    (trans : ∀ {b c d}, R b c → R c d → R b d) (keep : ∀ {a b c}, R b c → M a b → M a c)
    (step : ∀ a ∈ as, ∀ b c, f b a = .ok c → R b c ∧ M a c) (h : as.foldlM f start = .ok b) :
    R start b ∧ ∀ a ∈ as, M a b := by
  induction as generalizing start with
  | nil =>
    obtain rfl : start = b := Except.ok.inj h
    exact ⟨refl _, fun _ ha => absurd ha List.not_mem_nil⟩
  | cons a rest ih =>
    rw [List.forall_mem_cons] at step
    rw [List.foldlM_cons] at h
    cases hc : f start a with
    | error e => simp [hc, bind, Except.bind] at h
    | ok c =>
      obtain ⟨hr, hm⟩ := step.1 _ _ hc
      obtain ⟨hr', hm'⟩ := ih step.2 (by simpa [hc, bind, Except.bind] using h)
      exact ⟨trans hr hr', List.forall_mem_cons.2 ⟨keep hr' hm, hm'⟩⟩

theorem exists_append_of_foldlM_error {e : ε} (h : as.foldlM f start = .error e) :
    ∃ before a after b, as = before ++ a :: after ∧ before.foldlM f start = .ok b ∧
      f b a = .error e := by
  induction as generalizing start with
  | nil => cases h
  | cons a rest ih =>
    rw [List.foldlM_cons] at h
    cases hc : f start a with
    | error e' =>
      obtain rfl : e' = e := by simpa [hc, bind, Except.bind] using h
      exact ⟨[], a, rest, start, rfl, rfl, hc⟩
    | ok c =>
      obtain ⟨before, a', after, b, rfl, hb, he⟩ := ih (by simpa [hc, bind, Except.bind] using h)
      refine ⟨a :: before, a', after, b, rfl, ?_, he⟩
      rw [List.foldlM_cons, hc]
      exact hb

end

variable {n : Nat} {links : Fin n → List (Fin n)}

def Leads (links : Fin n → List (Fin n)) (i j : Fin n) : Prop := j ∈ links i

/-- A list of positions that names none twice, and each after those that it links to. -/
inductive Ordered (links : Fin n → List (Fin n)) : List (Fin n) → Prop
  | nil : Ordered links []
  | snoc {done : List (Fin n)} {i : Fin n} (h : Ordered links done) (hi : i ∉ done)
      (hl : ∀ j ∈ links i, j ∈ done) : Ordered links (done ++ [i])

namespace Ordered

variable {done : List (Fin n)} {i j : Fin n}

theorem nodup (h : Ordered links done) : done.Nodup := by
  induction h with
  | nil => exact .nil
  | snoc _ hi _ ih => exact List.concat_eq_append ▸ ih.concat hi

theorem mem_of_mem_links (h : Ordered links done) (hi : i ∈ done) (hj : j ∈ links i) :
    j ∈ done := by
  induction h with
  | nil => cases hi
  | snoc _ _ hl ih =>
    rcases List.mem_append.1 hi with hi | hi
    · exact List.mem_append_left _ (ih hi)
    · obtain rfl := List.mem_singleton.1 hi
      exact List.mem_append_left _ (hl _ hj)

theorem mem_of_leads (h : Ordered links done) (hi : i ∈ done)
    (hj : Relation.ReflTransGen (Leads links) i j) : j ∈ done := by
  induction hj with
  | refl => exact hi
  | tail _ hl ih => exact h.mem_of_mem_links ih hl

/-- What is in order does not link in a circle. -/
theorem acyclic (h : Ordered links done) (hi : i ∈ done) :
    ¬ Relation.TransGen (Leads links) i i := by
  induction h with
  | nil => cases hi
  | @snoc done k h hk hl ih =>
    intro hc
    rcases List.mem_append.1 hi with hi | hi
    · exact ih hi hc
    · obtain rfl := List.mem_singleton.1 hi
      obtain ⟨j, hj, hr⟩ := Relation.TransGen.head'_iff.1 hc
      exact hk (h.mem_of_leads (hl j hj) hr)

end Ordered

structure Extends (links : Fin n → List (Fin n)) (off done done' : List (Fin n)) : Prop where
  ordered : Ordered links done → Ordered links done'
  keeps : ∀ i ∈ done, i ∈ done'
  adds : ∀ i ∈ done', i ∈ done ∨ i ∈ off

namespace Extends

variable {off done done' done'' : List (Fin n)}

theorem refl : Extends links off done done := ⟨id, fun _ => id, fun _ => .inl⟩

theorem trans (h : Extends links off done done') (h' : Extends links off done' done'') :
    Extends links off done done'' :=
  ⟨fun ho => h'.ordered (h.ordered ho), fun i hi => h'.keeps i (h.keeps i hi),
    fun i hi => (h'.adds i hi).elim (h.adds i) .inr⟩

end Extends

section

variable {off way done done' : List (Fin n)} {here : Fin n}

theorem visit_of_mem_done (h : here ∈ done) : visit links off way done here = .ok done := by
  rw [visit, if_pos h]

theorem visit_of_mem_off (h : here ∉ done) (ho : here ∈ off) :
    visit links off way done here =
      (do
        let done ← (links here).foldlM (visit links (off.erase here) (way ++ [here])) done
        return done ++ [here]) := by
  rw [visit, if_neg h, dif_pos ho]

theorem visit_of_not_mem (h : here ∉ done) (ho : here ∉ off) :
    visit links off way done here = .error ⟨here, (way.dropWhile (· != here)).drop 1⟩ := by
  rw [visit, if_neg h, dif_neg ho]

theorem visit_ok (hn : off.Nodup) (h : visit links off way done here = .ok done') :
    Extends links off done done' ∧ here ∈ done' := by
  induction off, way, done, here using visit.induct generalizing done' with
  | case1 off way done here hd =>
    rw [visit_of_mem_done hd] at h
    obtain rfl := Except.ok.inj h
    exact ⟨.refl, hd⟩
  | case2 off way done here hd ho ih =>
    rw [visit_of_mem_off hd ho] at h
    cases hf : (links here).foldlM (visit links (off.erase here) (way ++ [here])) done with
    | error c => simp [hf, bind, Except.bind] at h
    | ok d =>
      obtain rfl : d ++ [here] = done' := by
        simpa [hf, bind, Except.bind, pure, Except.pure] using h
      obtain ⟨hx, hl⟩ := foldlM_ok (R := Extends links (off.erase here)) (M := (· ∈ ·))
        (fun _ => .refl) .trans (fun hx => hx.keeps _)
        (fun _ _ _ _ hv => ih _ _ (hn.erase here) hv) hf
      -- the links are visited with this position on the way, and so do not add it
      have hnot : here ∉ d := fun hm =>
        (hx.adds here hm).elim hd fun he => (hn.mem_erase_iff.1 he).1 rfl
      refine ⟨⟨?_, ?_, ?_⟩, ?_⟩
      · intro hdone
        exact .snoc (hx.ordered hdone) hnot hl
      · intro i hi
        exact List.mem_append_left _ (hx.keeps i hi)
      · intro i hi
        rcases List.mem_append.1 hi with hi | hi
        · exact (hx.adds i hi).imp_right List.mem_of_mem_erase
        · exact .inr (List.mem_singleton.1 hi ▸ ho)
      · exact List.mem_append_right _ (List.mem_singleton_self here)
  | case3 off way done here hd ho =>
    rw [visit_of_not_mem hd ho] at h
    cases h

theorem exists_dropWhile_eq (h : here ∈ way) :
    ∃ rest, way.dropWhile (· != here) = here :: rest := by
  induction way with
  | nil => cases h
  | cons i way ih =>
    by_cases hi : i = here
    · exact ⟨way, by simp [hi]⟩
    · obtain ⟨rest, hr⟩ := ih ((List.mem_cons.1 h).resolve_left (Ne.symm hi))
      exact ⟨rest, by simpa [hi] using hr⟩

/-- The visits that a run makes: one of each position in turn, and within one that is not listed and
off the way, one of each position that it links to in turn. -/
inductive Visits (links : Fin n → List (Fin n)) :
    List (Fin n) → List (Fin n) → List (Fin n) → Fin n → Prop
  | start {before after done : List (Fin n)} {here : Fin n}
      (hs : List.finRange n = before ++ here :: after)
      (h : before.foldlM (visit links (List.finRange n) []) [] = .ok done) :
      Visits links (List.finRange n) [] done here
  | step {off way done : List (Fin n)} {here : Fin n} (hv : Visits links off way done here)
      (hd : here ∉ done) (ho : here ∈ off) {before after done' : List (Fin n)} {next : Fin n}
      (hs : links here = before ++ next :: after)
      (h : before.foldlM (visit links (off.erase here) (way ++ [here])) done = .ok done') :
      Visits links (off.erase here) (way ++ [here]) done' next

/-- The way to a position is the chain of the positions in progress. -/
structure OnWay (links : Fin n → List (Fin n)) (off way : List (Fin n)) (here : Fin n) : Prop where
  nodup_off : off.Nodup
  nodup : way.Nodup
  mem_iff : ∀ i, i ∈ way ↔ i ∉ off
  chain : (way ++ [here]).IsChain (Leads links)

theorem OnWay.step (h : OnWay links off way here) (ho : here ∈ off) {next : Fin n}
    (hn : next ∈ links here) : OnWay links (off.erase here) (way ++ [here]) next where
  nodup_off := h.nodup_off.erase here
  nodup := by
    rw [← List.concat_eq_append]
    exact h.nodup.concat fun hm => (h.mem_iff here).1 hm ho
  mem_iff i := by
    rw [List.mem_append, List.mem_singleton, h.mem_iff, h.nodup_off.mem_erase_iff]
    tauto
  chain := by
    rw [List.append_assoc, List.singleton_append, List.isChain_append_cons_cons]
    exact ⟨h.chain, hn, List.isChain_singleton next⟩

theorem Visits.onWay (h : Visits links off way done here) : OnWay links off way here := by
  induction h with
  | start hs _ => exact ⟨List.nodup_finRange n, .nil, by simp, List.isChain_singleton _⟩
  | step _ _ ho hs _ ih => exact ih.step ho (hs ▸ List.mem_append_right _ List.mem_cons_self)

/-- A visit of a run that finds its position in progress. -/
structure Closes (links : Fin n → List (Fin n)) (off way done : List (Fin n)) (here : Fin n) :
    Prop where
  visited : Visits links off way done here
  unlisted : here ∉ done
  inProgress : here ∉ off

theorem Closes.mem_way (h : Closes links off way done here) : here ∈ way :=
  (h.visited.onWay.mem_iff here).2 h.inProgress

theorem exists_closes_of_visit {circle : Circle (Fin n)} (hv : Visits links off way done here)
    (h : visit links off way done here = .error circle) :
    ∃ off way done, Closes links off way done circle.first ∧
      circle.later = (way.dropWhile (· != circle.first)).drop 1 := by
  induction off, way, done, here using visit.induct with
  | case1 off way done here hd =>
    rw [visit_of_mem_done hd] at h
    cases h
  | case2 off way done here hd ho ih =>
    rw [visit_of_mem_off hd ho] at h
    cases hf : (links here).foldlM (visit links (off.erase here) (way ++ [here])) done with
    | ok d => simp [hf, bind, Except.bind, pure, Except.pure] at h
    | error c =>
      obtain rfl : c = circle := by simpa [hf, bind, Except.bind] using h
      obtain ⟨before, next, after, d, hs, hb, he⟩ := exists_append_of_foldlM_error hf
      exact ih d next (hv.step hd ho hs hb) he
  | case3 off way done here hd ho =>
    rw [visit_of_not_mem hd ho] at h
    obtain rfl := Except.error.inj h
    exact ⟨off, way, done, ⟨hv, hd, ho⟩, rfl⟩

theorem exists_closes {circle : Circle (Fin n)} (h : positions links = .error circle) :
    ∃ off way done, Closes links off way done circle.first ∧
      circle.later = (way.dropWhile (· != circle.first)).drop 1 := by
  obtain ⟨before, here, after, done, hs, hb, he⟩ := exists_append_of_foldlM_error h
  exact exists_closes_of_visit (.start hs hb) he

/-- A circle that is found is the end of the way, from the position to which the way comes back. -/
theorem exists_way_of_error {circle : Circle (Fin n)} (h : positions links = .error circle) :
    ∃ off before done,
      Closes links off (before ++ circle.first :: circle.later) done circle.first := by
  obtain ⟨off, way, done, hc, hl⟩ := exists_closes h
  obtain ⟨rest, hr⟩ := exists_dropWhile_eq hc.mem_way
  have hw : way = way.takeWhile (· != circle.first) ++ circle.first :: circle.later := by
    rw [hl, hr, List.drop_one, List.tail_cons, ← hr, List.takeWhile_append_dropWhile]
  exact ⟨off, _, done, hw ▸ hc⟩

end

theorem positions_ok {sorted : List (Fin n)} (h : positions links = .ok sorted) :
    Ordered links sorted ∧ ∀ i, i ∈ sorted := by
  obtain ⟨hx, hm⟩ := foldlM_ok (R := Extends links (List.finRange n)) (M := (· ∈ ·))
    (fun _ => .refl) .trans (fun hx => hx.keeps _)
    (fun _ _ _ _ hv => visit_ok (List.nodup_finRange n) hv) h
  exact ⟨hx.ordered .nil, fun i => hm i (List.mem_finRange i)⟩

theorem positions_error {circle : Circle (Fin n)} (h : positions links = .error circle) :
    circle.Closed (Leads links) := by
  obtain ⟨off, before, done, hc⟩ := exists_way_of_error h
  have hchain := hc.visited.onWay.chain
  rw [List.append_assoc] at hchain
  exact hchain.suffix (List.suffix_append _ _)

end Order

namespace ContentType

variable {types sorted : List ContentType} {id : String} {i j : Fin types.length}

def Depends (types : List ContentType) (a b : ContentType) : Prop :=
  a ∈ types ∧ b ∈ types ∧ b.id ∈ a.dependencies

/-- Content types with different ids, each after those that it links to, as far as they are
known. -/
inductive Ordered (known : List String) : List ContentType → Prop
  | nil : Ordered known []
  | snoc {before : List ContentType} {ct : ContentType} (h : Ordered known before)
      (hi : ct.id ∉ before.map (·.id))
      (hd : ∀ t ∈ ct.dependencies, t ∈ known → t ∈ before.map (·.id)) :
      Ordered known (before ++ [ct])

theorem id_of_position? (h : position? types id = some i) : (types.get i).id = id := by
  have hb := List.find?_some h
  exact beq_iff_eq.1 hb

theorem eq_of_id_eq (hn : (types.map (·.id)).Nodup) (h : (types.get i).id = (types.get j).id) :
    i = j := by
  have he : types.get i = types.get j :=
    List.inj_on_of_nodup_map hn (List.get_mem _ _) (List.get_mem _ _) h
  exact List.nodup_iff_injective_get.1 hn.of_map he

theorem position?_eq_some_iff (hn : (types.map (·.id)).Nodup) :
    position? types id = some i ↔ (types.get i).id = id := by
  constructor
  · exact id_of_position?
  · intro h
    cases hp : position? types id with
    | none =>
      have hi := List.find?_eq_none.1 hp i (by simp)
      exact absurd (beq_iff_eq.2 h) hi
    | some j => rw [eq_of_id_eq hn ((id_of_position? hp).trans h.symm)]

theorem mem_links_iff (hn : (types.map (·.id)).Nodup) :
    j ∈ links types i ↔ (types.get j).id ∈ (types.get i).dependencies := by
  simp [links, List.mem_filterMap, position?_eq_some_iff hn]

theorem leads_iff (hn : (types.map (·.id)).Nodup) :
    Order.Leads (links types) i j ↔ Depends types (types.get i) (types.get j) := by
  simp [Order.Leads, Depends, mem_links_iff hn]

theorem ordered_map (hn : (types.map (·.id)).Nodup) {done : List (Fin types.length)}
    (h : Order.Ordered (links types) done) :
    Ordered (types.map (·.id)) (done.map types.get) := by
  induction h with
  | nil => exact .nil
  | @snoc done i _ hi hl ih =>
    rw [List.map_append, List.map_singleton]
    refine .snoc ih ?_ ?_
    · rw [List.map_map]
      intro hm
      obtain ⟨j, hj, he⟩ := List.mem_map.1 hm
      exact hi (eq_of_id_eq hn he ▸ hj)
    · intro t ht hk
      obtain ⟨ct, hct, rfl⟩ := List.mem_map.1 hk
      obtain ⟨k, hlt, rfl⟩ := List.getElem_of_mem hct
      have hj := hl ⟨k, hlt⟩ ((mem_links_iff hn).2 ht)
      exact List.mem_map_of_mem (List.mem_map.2 ⟨_, hj, rfl⟩)

/-- The order holds the same content types, each after those that it links to. -/
theorem order_ok (hn : (types.map (·.id)).Nodup) (h : order types = .ok sorted) :
    Ordered (types.map (·.id)) sorted ∧ sorted.Perm types := by
  unfold order at h
  cases hp : Order.positions (links types) with
  | error circle => simp [hp] at h
  | ok done =>
    obtain rfl : done.map (types[·]) = sorted := by simpa [hp] using h
    obtain ⟨ho, hm⟩ := Order.positions_ok hp
    have hperm : done.Perm (List.finRange types.length) :=
      (List.perm_ext_iff_of_nodup ho.nodup (List.nodup_finRange _)).2 (by simpa using hm)
    refine ⟨ordered_map hn ho, ?_⟩
    simpa using hperm.map (types[·])

theorem order_error (hn : (types.map (·.id)).Nodup) {circle : Circle ContentType}
    (h : order types = .error circle) : circle.Closed (Depends types) := by
  unfold order at h
  cases hp : Order.positions (links types) with
  | ok done => simp [hp] at h
  | error circle' =>
    obtain rfl : circle'.map (types[·]) = circle := by simpa [hp] using h
    have hc : (circle'.first :: circle'.later ++ [circle'.first]).IsChain
        (Order.Leads (links types)) := Order.positions_error hp
    have hm : ((circle'.first :: circle'.later ++ [circle'.first]).map (types[·])).IsChain
        (Depends types) := (List.isChain_map _).2 (hc.imp fun i j => (leads_iff hn).1)
    simpa [Circle.Closed, Circle.map] using hm

theorem acyclic_of_order_ok (h : order types = .ok sorted) (i : Fin types.length) :
    ¬ Relation.TransGen (Order.Leads (links types)) i i := by
  unfold order at h
  cases hp : Order.positions (links types) with
  | error circle => simp [hp] at h
  | ok done =>
    obtain ⟨ho, hm⟩ := Order.positions_ok hp
    exact ho.acyclic (hm i)

theorem acyclic_depends (hn : (types.map (·.id)).Nodup) (h : order types = .ok sorted)
    (ct : ContentType) : ¬ Relation.TransGen (Depends types) ct ct := by
  intro hc
  obtain ⟨_, ⟨hct, -⟩, -⟩ := Relation.TransGen.head'_iff.1 hc
  obtain ⟨i, rfl⟩ := List.mem_iff_get.1 hct
  have step (i : Fin types.length) (b : ContentType) (hb : Depends types (types.get i) b) :
      ∃ j, types.get j = b ∧ Order.Leads (links types) i j := by
    obtain ⟨j, rfl⟩ := List.mem_iff_get.1 hb.2.1
    exact ⟨j, rfl, (leads_iff hn).2 hb⟩
  obtain ⟨j, hj, hl⟩ := exists_transGen step hc
  obtain rfl : j = i := eq_of_id_eq hn (congrArg (·.id) hj)
  exact acyclic_of_order_ok h j hl

end ContentType

end ContentSchema
