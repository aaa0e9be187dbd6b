import ContentSchema.Graph.Assembly
import ContentSchema.Proofs.Graph.Sorted

/-! # Circles that are reported

Where content types cannot be put in order, what is reported is the end of the way on which the walk
was, from the position to which it has come back.
-/

namespace ContentSchema

theorem Failure.message_dependencyCycle (first : String) (later : List String) :
    (dependencyCycle first later).message =
      "circular dependency error: content type '" ++ first ++ "' depends on itself: " ++
        String.intercalate " -> " (first :: later ++ [first]) := rfl

/-- Where content types cannot be put in order, the message names one of them, and then the content
types on the way that leads from it back to it: each links to the next, and none comes twice. In no
run does a visit close a circle at a position that is not on its way. -/
theorem circle_reported {types : List ContentType} {settings : Settings} {failure : Failure}
    (hf : settings.flat = true) (h : ContentModel.sequence ⟨types⟩ settings = .error failure) :
    (∃ (p : Fin types.length) (later : List (Fin types.length)),
      failure.message =
        "circular dependency error: content type '" ++ (types.get p).id ++
          "' depends on itself: " ++
          String.intercalate " -> " ((p :: later ++ [p]).map fun i => (types.get i).id) ∧
      (p :: later).Nodup ∧ (p :: later ++ [p]).IsChain (ContentType.LinksTo types) ∧
      ∃ off before done, p ∉ before ∧
        Order.Closes (ContentType.links types) off (before ++ p :: later) done p) ∧
    ∀ off way done here, Order.Closes (ContentType.links types) off way done here →
      here ∈ way := by
  refine ⟨?_, fun _ _ _ _ hc => hc.mem_way⟩
  cases hp : Order.positions (ContentType.links types) with
  | ok places => simp [ContentModel.sequence, hf, ContentType.order_of_positions hp] at h
  | error circle =>
    obtain rfl : .dependencyCycle (types.get circle.first).id
        (circle.later.map fun i => (types.get i).id) = failure := by
      simpa [ContentModel.sequence, hf, ContentType.order, hp, Circle.map, Function.comp_def]
        using h
    obtain ⟨off, before, done, hc⟩ := Order.exists_way_of_error hp
    have hn := hc.visited.onWay.nodup
    have hclosed : circle.Closed (ContentType.LinksTo types) :=
      ContentType.leads_eq_linksTo ▸ Order.positions_error hp
    refine ⟨circle.first, circle.later, ?_, hn.of_append_right, hclosed, off, before, done, ?_, hc⟩
    · rw [Failure.message_dependencyCycle, List.map_append, List.map_cons, List.map_singleton]
    · exact fun hm => List.disjoint_of_nodup_append hn hm List.mem_cons_self

/-- The walk starts at the first content type of the id `a`, but the link to `a` leads to the last
one, and from there back to `b`. -/
theorem circle_reported_repeated :
    ∃ failure, flatSettings.flat = true ∧
      ContentModel.sequence
        ⟨[linking "a" 0 ["b"], linking "b" 0 ["gone", "a"], linking "a" 0 ["b"]]⟩ flatSettings =
          .error failure ∧
      failure.message =
        "circular dependency error: content type 'b' depends on itself: b -> a -> b" ∧
      ∃ p later, (p :: later).Nodup ∧ (p :: later ++ [p]).IsChain (ContentType.LinksTo
        [linking "a" 0 ["b"], linking "b" 0 ["gone", "a"], linking "a" 0 ["b"]]) := by
  have h : ContentModel.sequence
      ⟨[linking "a" 0 ["b"], linking "b" 0 ["gone", "a"], linking "a" 0 ["b"]]⟩ flatSettings =
        .error (.dependencyCycle "b" ["a"]) := by cbv
  obtain ⟨⟨p, later, -, hn, hc, -⟩, -⟩ := circle_reported rfl h
  exact ⟨_, rfl, h, by decide +kernel, p, later, hn, hc⟩

end ContentSchema
