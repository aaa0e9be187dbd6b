import ContentSchema.Proofs.Naming.Table
import ContentSchema.Validator.Builtin

/-! # Names by the standard rules

The constant of a schema ends in `Schema`, perhaps with a number, and begins as the id does unless
that is no identifier.
-/

namespace ContentSchema

namespace Numbered

variable {base name : String}

theorem isPrefix (h : Numbered base name) : base.toList <+: name.toList := by
  rcases h with rfl | ⟨n, rfl⟩
  · exact List.prefix_refl _
  · rw [String.toList_append]
    exact List.prefix_append _ _

theorem eq_of_not_isDigit (h : Numbered base name)
    (hd : name.toList.getLast?.any Char.isDigit = false) : name = base := by
  rcases h with rfl | ⟨n, rfl⟩
  · rfl
  · have hne : (toString n).toList ≠ [] := by
      rw [Nat.toString_eq_repr, Nat.toList_repr]
      exact Nat.toDigits_ne_nil
    obtain ⟨c, hc⟩ := Option.isSome_iff_exists.1 (List.getLast?_isSome.2 hne)
    have hm := List.mem_of_getLast? hc
    rw [Nat.toString_eq_repr, Nat.toList_repr] at hm
    have hdigit := Nat.isDigit_of_mem_toDigits (by omega) (by omega) hm
    rw [String.toList_append, List.getLast?_append, hc, Option.some_or, Option.any_some,
      hdigit] at hd
    cases hd

end Numbered

theorem prefix_of_prefix_append {α : Type} {start before later : List α} {a : α} (ha : a ∉ start)
    (h : start <+: before ++ a :: later) : start <+: before := by
  induction start generalizing before with
  | nil => exact List.nil_prefix
  | cons b rest ih =>
    rw [List.mem_cons, not_or] at ha
    cases before with
    | nil =>
      rw [List.nil_append, List.cons_prefix_cons] at h
      exact absurd h.1.symm ha.1
    | cons c before =>
      rw [List.cons_append, List.cons_prefix_cons] at h
      rw [List.cons_prefix_cons]
      exact ⟨h.1, ih ha.2 h.2⟩

namespace Naming

variable {id : String}

theorem exists_camelCase_eq (id : String) :
    ∃ c rest, (camelCase id).toList = c :: rest ∧ c.isAlphanum = true := by
  unfold camelCase
  split
  · exact ⟨'c', _, rfl, rfl⟩
  · next first later hr =>
    have hm : first ∈ Text.runs Char.isAlphanum id.toList := hr ▸ List.mem_cons_self
    obtain ⟨hne, hk⟩ := Text.keep_of_mem_runs hm
    obtain ⟨c, rest, rfl⟩ := List.exists_cons_of_ne_nil hne
    rw [String.toList_ofList]
    split
    · exact ⟨'c', _, rfl, rfl⟩
    · exact ⟨c, _, rfl, hk c List.mem_cons_self⟩

theorem toList_schemaName (id : String) :
    (standard.schemaName id).toList =
      (if Text.isIdentifier id then id else camelCase id).toList ++ "Schema".toList :=
  String.toList_append

theorem length_lt_of_numbered {name : String} (h : Numbered (standard.schemaName id) name) :
    5 < name.toList.length := by
  have hl := h.isPrefix.length_le
  rw [toList_schemaName, List.length_append] at hl
  have hs : "Schema".toList.length = 6 := rfl
  omega

/-- A constant is named like a base only if the id is. -/
theorem base_prefix_of_numbered {name : String} (h : Numbered (standard.schemaName id) name)
    (hb : "_base".toList <+: name.toList) : "_base".toList <+: id.toList := by
  obtain ⟨tail, ht⟩ := h.isPrefix
  rw [← ht, toList_schemaName] at hb
  have hs : "Schema".toList = 'S' :: "chema".toList := rfl
  rw [hs, List.append_assoc, List.cons_append] at hb
  have hp := prefix_of_prefix_append (by decide) hb
  split at hp
  · exact hp
  · obtain ⟨c, rest, hc, ha⟩ := exists_camelCase_eq id
    rw [hc] at hp
    have hu : '_' = c := (List.cons_prefix_cons.1 hp).1
    rw [← hu] at ha
    exact absurd ha (by decide)

theorem not_base_prefix_builtin {b : Builtin} (h : b ∈ Builtin.all) :
    ¬ "_base".toList <+: b.name.toList := by
  rcases Builtin.mem_all_iff.1 h with rfl | rfl | rfl | rfl <;> decide

theorem typeName_builtin_ne_document {b : Builtin} (h : b ∈ Builtin.all) :
    standard.typeName b.name ≠ "Document" := by
  rcases Builtin.mem_all_iff.1 h with rfl | rfl | rfl | rfl <;> decide +kernel

end Naming

end ContentSchema
