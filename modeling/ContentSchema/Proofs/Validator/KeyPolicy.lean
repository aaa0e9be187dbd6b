import ContentSchema.Proofs.Validator.Acceptance
import Mathlib.Data.List.Basic

/-! # Key policies

What the objects of a node do with keys outside their shapes can be changed with all else left as it
is. As long as no object is made strict, what was accepted before is accepted still.
-/

namespace ContentSchema

/-- What lets further keys pass where they were refused. -/
def ObjectPolicy.loosened : ObjectPolicy → ObjectPolicy
  | strict => passthrough
  | policy => policy

namespace Node

mutual

def mapPolicies (f : ObjectPolicy → ObjectPolicy) : Node → Node
  | primitive p tags => primitive p tags
  | object shape policy tags => object (mapShapePolicies f shape) (f policy) tags
  | array element tags => array (element.mapPolicies f) tags
  | optional inner tags => optional (inner.mapPolicies f) tags
  | union branches tags => union (mapBranchPolicies f branches) tags
  | unknown tags => unknown tags

def mapShapePolicies (f : ObjectPolicy → ObjectPolicy) :
    List (String × Node) → List (String × Node)
  | [] => []
  | (key, node) :: rest => (key, node.mapPolicies f) :: mapShapePolicies f rest

def mapBranchPolicies (f : ObjectPolicy → ObjectPolicy) : List Node → List Node
  | [] => []
  | node :: rest => node.mapPolicies f :: mapBranchPolicies f rest

end

def policy? : Node → Option ObjectPolicy
  | object _ policy _ => some policy
  | _ => none

variable {f : ObjectPolicy → ObjectPolicy} {node : Node} {schemas : List (String × Node)}

theorem mapShapePolicies_eq_map (shape : List (String × Node)) :
    mapShapePolicies f shape = shape.map fun e => (e.1, e.2.mapPolicies f) := by
  induction shape with
  | nil => rfl
  | cons e rest ih => rw [mapShapePolicies, ih, List.map_cons]

theorem mapBranchPolicies_eq_map (branches : List Node) :
    mapBranchPolicies f branches = branches.map (mapPolicies f) := by
  induction branches with
  | nil => rfl
  | cons b rest ih => rw [mapBranchPolicies, ih, List.map_cons]

@[simp] theorem tags_mapPolicies : (node.mapPolicies f).tags = node.tags := by
  cases node <;> rfl

theorem mapPolicies_withTags (tags : Tags) :
    (node.withTags tags).mapPolicies f = (node.mapPolicies f).withTags tags := by
  cases node <;> rfl

theorem policy?_mapPolicies : (node.mapPolicies f).policy? = node.policy?.map f := by
  cases node <;> rfl

theorem children_mapPolicies :
    (node.mapPolicies f).children = node.children.map (mapPolicies f) := by
  cases node <;>
    simp [mapPolicies, children, mapShapePolicies_eq_map, mapBranchPolicies_eq_map,
      Function.comp_def]

theorem walk_mapPolicies : (node.mapPolicies f).walk = node.walk.map (mapPolicies f) := by
  induction node using induct with
  | step node ih =>
    have hc : (node.children.map (mapPolicies f)).flatMap walk =
        node.children.flatMap fun child => child.walk.map (mapPolicies f) := by
      rw [List.flatMap_map]
      exact List.flatMap_congr ih
    rw [walk_eq, walk_eq node, children_mapPolicies, hc, List.map_cons, List.map_flatMap]

theorem exists_of_policy?_mapPolicies {n : Node} {policy : ObjectPolicy}
    (hn : n ∈ (node.mapPolicies f).walk) (h : n.policy? = some policy) :
    ∃ m ∈ node.walk, ∃ p, m.policy? = some p ∧ f p = policy := by
  rw [walk_mapPolicies] at hn
  obtain ⟨m, hm, rfl⟩ := List.mem_map.1 hn
  rw [policy?_mapPolicies] at h
  obtain ⟨p, hp, hf⟩ := Option.map_eq_some_iff.1 h
  exact ⟨m, hm, p, hp, hf⟩

theorem mapPolicies_listed : node.listed.mapPolicies f = (node.mapPolicies f).listed := by
  simp only [listed, takeLinks, mapPolicies, mapPolicies_withTags, tags_mapPolicies]

theorem mapPolicies_wrapped : node.wrapped.mapPolicies f = (node.mapPolicies f).wrapped := by
  simp only [wrapped, takeLinks, mapPolicies, mapPolicies_withTags, tags_mapPolicies]

theorem mapPolicies_record (entries : List (String × Node)) (policy : ObjectPolicy) :
    (record entries policy).mapPolicies f =
      record (entries.map fun e => (e.1, e.2.mapPolicies f)) (f policy) := by
  rw [record, mapPolicies, mapShapePolicies_eq_map, Entries.map_ofList, record]

section

variable (hf : f .strip = .strip)

include hf

theorem mapPolicies_part (entries : List (String × Node)) :
    (Builtin.part entries).mapPolicies f =
      Builtin.part (entries.map fun e => (e.1, e.2.mapPolicies f)) := by
  rw [Builtin.part, mapPolicies_record, hf, Builtin.part]

theorem mapPolicies_media {name : String} {details : List (String × Node)}
    (hd : ∀ e ∈ details, e.2.mapPolicies f = e.2) :
    (Builtin.media name details).node.mapPolicies f = (Builtin.media name details).node := by
  have hd : details.map (fun e => (e.1, e.2.mapPolicies f)) = details :=
    (List.map_congr_left fun e he => congrArg (Prod.mk e.1) (hd e he)).trans (List.map_id _)
  simp only [Builtin.media, Builtin.file, withReference, mapPolicies_withTags,
    mapPolicies_part hf, List.map_cons, List.map_nil, hd]
  rfl

theorem mapPolicies_builtin {b : Builtin} (h : b ∈ Builtin.all) : b.node.mapPolicies f = b.node := by
  rcases Builtin.mem_all_iff.1 h with rfl | rfl | rfl | rfl
  · simp only [Builtin.location, withReference, mapPolicies_withTags, mapPolicies_part hf]
    rfl
  · exact mapPolicies_media hf (List.forall_mem_singleton.2 rfl)
  · have hs : Builtin.size.mapPolicies f = Builtin.size := mapPolicies_part hf _
    refine mapPolicies_media hf ?_
    simp only [List.forall_mem_cons]
    exact ⟨rfl, hs, by simp⟩
  · rfl

theorem mapPolicies_openLink : openLink.mapPolicies f = openLink := by
  simp only [openLink, mapPolicies_record, hf, List.map_cons, List.map_nil]
  rfl

theorem mapPolicies_linkTarget (copies : Option (List (String × Node))) (target : String) :
    (linkTarget copies target).mapPolicies f =
      linkTarget (copies.map (·.map fun e => (e.1, e.2.mapPolicies f))) target := by
  cases copies with
  | none => rfl
  | some made =>
    simp only [linkTarget, Option.map_some, Entries.lookup_map]
    cases made.lookup target with
    | none => exact mapPolicies_openLink hf
    | some node => rfl

theorem mapPolicies_link (copies : Option (List (String × Node))) (targets : List String) :
    (link targets copies).mapPolicies f =
      link targets (copies.map (·.map fun e => (e.1, e.2.mapPolicies f))) := by
  have ht := mapPolicies_linkTarget hf copies
  match targets with
  | [] => exact mapPolicies_openLink hf
  | [target] =>
    rw [link, withLinks, mapPolicies_withTags, tags_mapPolicies.symm.trans (by rw [ht]), ht]
    rfl
  | a :: b :: rest =>
    rw [link_cons_cons, link_cons_cons, withLinks, mapPolicies_withTags, mapPolicies,
      mapBranchPolicies_eq_map, List.map_map]
    simp only [Function.comp_def, ht]
    rfl

theorem standsFor_mapPolicies {body : Node} (h : StandsFor schemas node body) :
    StandsFor (schemas.map fun e => (e.1, e.2.mapPolicies f)) (node.mapPolicies f)
      (body.mapPolicies f) := by
  induction h with
  | itself h => exact .itself (by rwa [tags_mapPolicies])
  | builtin h hb =>
    rw [mapPolicies_builtin hf (List.mem_of_find?_eq_some hb)]
    exact .builtin (by rwa [tags_mapPolicies]) hb
  | contentType h ht _ ih =>
    refine .contentType (by rwa [tags_mapPolicies]) ?_ ih
    rw [Entries.lookup_map, ht, Option.map_some]

/-- Where no object is made strict, all values are accepted that were accepted before. -/
theorem accepts_mapPolicies (hs : ∀ p, f p = .strict → p = .strict) {v : Option Json.Value}
    (h : Accepts schemas node v) :
    Accepts (schemas.map fun e => (e.1, e.2.mapPolicies f)) (node.mapPolicies f) v := by
  induction h with
  | unknown h => exact .unknown (standsFor_mapPolicies hf h)
  | primitive h hp => exact .primitive (standsFor_mapPolicies hf h) hp
  | absent h => exact .absent (standsFor_mapPolicies hf h)
  | present h _ ih => exact .present (standsFor_mapPolicies hf h) ih
  | array h _ ih => exact .array (standsFor_mapPolicies hf h) ih
  | @union node branch branches tags v h hm _ ih =>
    have hu := standsFor_mapPolicies hf h
    rw [mapPolicies, mapBranchPolicies_eq_map] at hu
    exact .union hu (List.mem_map_of_mem hm) ih
  | @object node shape policy tags members h hk _ ih =>
    have ho := standsFor_mapPolicies hf h
    rw [mapPolicies, mapShapePolicies_eq_map] at ho
    refine .object ho ?_ (List.forall_mem_map.2 ih)
    intro hp key hkey
    rw [Entries.keys_map]
    exact hk (hs policy hp) key hkey

end

end Node

end ContentSchema
