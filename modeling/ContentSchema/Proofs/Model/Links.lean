import ContentSchema.Model.Links
import Mathlib.Data.List.Nodup

/-! # Links at any depth

A list may hold lists of links, while the dependencies of a content type are read off single links
and lists of links alone.
-/

namespace ContentSchema

theorem nodup_eraseDups {α : Type} [BEq α] [LawfulBEq α] (as : List α) : as.eraseDups.Nodup := by
  match as with
  | [] => exact List.nodup_nil
  | a :: rest =>
    rw [List.eraseDups_cons, List.nodup_cons]
    exact ⟨by simp [List.mem_eraseDups], nodup_eraseDups _⟩
termination_by as.length
decreasing_by exact Nat.lt_succ_of_le (List.length_filter_le _ _)

theorem eraseDups_map {α β : Type} [BEq α] [LawfulBEq α] [BEq β] [LawfulBEq β] {f : α → β}
    {as : List α} (hf : ∀ a ∈ as, ∀ b ∈ as, f a = f b → a = b) :
    (as.map f).eraseDups = as.eraseDups.map f := by
  match as with
  | [] => rfl
  | a :: rest =>
    have hkept : ∀ b ∈ rest, ((fun c => !c == f a) ∘ f) b = !b == a := by
      intro b hb
      have hiff : f b = f a ↔ b = a :=
        ⟨hf b (List.mem_cons_of_mem a hb) a List.mem_cons_self, congrArg f⟩
      rw [Function.comp_apply, Bool.eq_iff_iff]
      simp [hiff]
    have hrest : ∀ b ∈ rest.filter (!· == a), ∀ c ∈ rest.filter (!· == a), f b = f c → b = c := by
      intro b hb c hc
      exact hf b (List.mem_cons_of_mem a (List.mem_of_mem_filter hb)) c
        (List.mem_cons_of_mem a (List.mem_of_mem_filter hc))
    rw [List.map_cons, List.eraseDups_cons, List.eraseDups_cons, List.map_cons, List.filter_map,
      List.filter_congr hkept, eraseDups_map hrest]
termination_by as.length
decreasing_by exact Nat.lt_succ_of_le (List.length_filter_le _ _)

namespace Descriptor

variable {d item : Descriptor} {items : List Descriptor}

theorem nodup_linkTargets (d : Descriptor) (items : List Descriptor) :
    (d.linkTargets items).Nodup := by
  unfold linkTargets
  split
  · exact nodup_eraseDups _
  · exact List.nodup_nil

/-- The targets of the links that are found in what `d` describes, however many lists are around
them. -/
def reached (d : Descriptor) : List Descriptor → List String
  | [] => d.linkTargets []
  | item :: inner =>
    if d.kind = "Array" ∧ ¬ d.isEntryLink (item :: inner) then item.reached inner
    else d.linkTargets (item :: inner)

theorem linkTargets_of_not_isEntryLink (h : ¬ d.isEntryLink items) : d.linkTargets items = [] :=
  if_neg h

theorem reached_of_isEntryLink (h : d.isEntryLink items) :
    d.reached items = d.linkTargets items := by
  cases items with
  | nil => rfl
  | cons item inner => rw [reached, if_neg fun hn => hn.2 h]

theorem reached_of_ne (h : d.kind ≠ "Array") : d.reached items = d.linkTargets items := by
  cases items with
  | nil => rfl
  | cons item inner => rw [reached, if_neg fun hn => h hn.1]

theorem linksTo_of_isEntryLink (h : d.isEntryLink items) (hk : d.kind ≠ "Array") :
    d.linksTo "Entry" := by
  simpa [isEntryLink, hk] using h

/-- Only lists of lists hold links that are not the links of the descriptor. -/
theorem reached_eq_linkTargets (h : d.kind = "Array" → ∀ item ∈ items.head?, item.kind ≠ "Array") :
    d.reached items = d.linkTargets items := by
  by_cases he : d.isEntryLink items
  · exact reached_of_isEntryLink he
  · by_cases hk : d.kind = "Array"
    · cases items with
      | nil => rfl
      | cons item inner =>
        have hi : item.kind ≠ "Array" := h hk item rfl
        have hn : ¬ item.isEntryLink inner := by
          intro hl
          exact he (by simp [isEntryLink, hk, linksTo_of_isEntryLink hl hi])
        rw [reached, if_pos ⟨hk, he⟩, reached_of_ne hi, linkTargets_of_not_isEntryLink hn,
          linkTargets_of_not_isEntryLink he]
    · exact reached_of_ne hk

end Descriptor

def Field.reached (f : Field) : List String := f.holds.reached f.items

def Field.isNested (f : Field) : Bool :=
  f.holds.kind == "Array" && f.items.head?.any (·.kind == "Array")

theorem Field.reached_eq_linkTargets {f : Field} (h : ¬ f.isNested) :
    f.reached = f.linkTargets := by
  refine Descriptor.reached_eq_linkTargets fun hk item hi hitem => h ?_
  simp_all [isNested]

namespace ContentType

variable {ct : ContentType} {f : Field} {id target : String}

def field? (ct : ContentType) (id : String) : Option Field := ct.fields.reverse.find? (·.id == id)

theorem mem_fields_of_field? (h : ct.field? id = some f) : f ∈ ct.fields :=
  List.mem_reverse.1 (List.mem_of_find?_eq_some h)

theorem id_of_field? (h : ct.field? id = some f) : f.id = id := by
  have hb := List.find?_some h
  exact beq_iff_eq.1 hb

theorem mem_dependencies : target ∈ ct.dependencies ↔ ∃ f ∈ ct.fields, target ∈ f.linkTargets := by
  simp [dependencies]

theorem field?_of_nodup (hn : (ct.fields.map (·.id)).Nodup) (hf : f ∈ ct.fields) :
    ct.field? f.id = some f := by
  cases h : ct.field? f.id with
  | none =>
    have hne := List.find?_eq_none.1 h f (List.mem_reverse.2 hf)
    exact absurd (beq_iff_eq.2 rfl) hne
  | some g => rw [List.inj_on_of_nodup_map hn hf (mem_fields_of_field? h) (id_of_field? h).symm]

/-- The known content types that the last fields of all ids lead to. -/
def Reaches (ct : ContentType) (known : List String) (target : String) : Prop :=
  target ∈ known ∧ ∃ id f, ct.field? id = some f ∧ target ∈ f.reached

/-- All that the content type leads to is among its dependencies. -/
def Covered (ct : ContentType) (known : List String) : Prop :=
  ∀ target, ct.Reaches known target → target ∈ ct.dependencies

theorem covered_of_not_nested (h : ∀ f ∈ ct.fields, ¬ f.isNested) (known : List String) :
    ct.Covered known := by
  rintro target ⟨-, id, f, hf, ht⟩
  have hm := mem_fields_of_field? hf
  rw [Field.reached_eq_linkTargets (h f hm)] at ht
  exact mem_dependencies.2 ⟨f, hm, ht⟩

theorem reaches_of_mem_dependencies (hn : (ct.fields.map (·.id)).Nodup) {known : List String}
    (ht : target ∈ ct.dependencies) (hk : target ∈ known) : ct.Reaches known target := by
  obtain ⟨f, hf, ht⟩ := mem_dependencies.1 ht
  refine ⟨hk, f.id, f, field?_of_nodup hn hf, ?_⟩
  by_cases he : f.holds.isEntryLink f.items
  · rwa [Field.reached, Descriptor.reached_of_isEntryLink he]
  · rw [Field.linkTargets, Descriptor.linkTargets_of_not_isEntryLink he] at ht
    cases ht

end ContentType

end ContentSchema
