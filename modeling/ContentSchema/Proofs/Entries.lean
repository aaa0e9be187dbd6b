import ContentSchema.Entries

/-! # Entries by key

Of the entries that are put in, the last one of each key is kept. Where no key is there twice, to be
among the entries is to be found by key.
-/

namespace ContentSchema.Entries

variable {α : Type}

theorem mem_of_mem_put {key : String} {a : α} {e : String × α} {entries : List (String × α)}
    (h : e ∈ put key a entries) : e = (key, a) ∨ e ∈ entries := by
  induction entries with
  | nil => exact .inl (List.mem_singleton.1 h)
  | cons f rest ih =>
    rw [put] at h
    split at h
    · next hk =>
      rcases List.mem_cons.1 h with rfl | h
      · exact .inl (by rw [hk])
      · exact .inr (List.mem_cons_of_mem _ h)
    · rcases List.mem_cons.1 h with rfl | h
      · exact .inr List.mem_cons_self
      · exact (ih h).imp_right (List.mem_cons_of_mem _)

theorem mem_of_mem_ofList {e : String × α} {entries : List (String × α)} (h : e ∈ ofList entries) :
    e ∈ entries := by
  suffices ∀ kept, e ∈ entries.foldl (fun kept entry => put entry.1 entry.2 kept) kept →
      e ∈ kept ∨ e ∈ entries from (this [] h).resolve_left (by simp)
  clear h
  induction entries with
  | nil =>
    intro kept h
    exact .inl h
  | cons f rest ih =>
    intro kept h
    rcases ih _ h with h | h
    · exact (mem_of_mem_put h).elim (fun h => .inr (h ▸ List.mem_cons_self)) .inl
    · exact .inr (List.mem_cons_of_mem f h)

theorem mem_of_lookup {key : String} {a : α} {entries : List (String × α)}
    (h : entries.lookup key = some a) : (key, a) ∈ entries := by
  obtain ⟨before, after, rfl, -⟩ := List.lookup_eq_some_iff.1 h
  simp

theorem lookup_cons (key : String) (e : String × α) (rest : List (String × α)) :
    (e :: rest).lookup key = if key = e.1 then some e.2 else rest.lookup key := by
  rw [List.lookup_cons]
  by_cases h : key = e.1
  · simp [h]
  · simp [h, beq_eq_false_iff_ne.2 h]

theorem lookup_isSome_iff {key : String} {entries : List (String × α)} :
    (entries.lookup key).isSome ↔ key ∈ keys entries := by
  induction entries with
  | nil => simp
  | cons e rest ih =>
    rw [lookup_cons, keys_cons, List.mem_cons, ← ih]
    split <;> simp [*]

theorem lookup_eq_none_iff {key : String} {entries : List (String × α)} :
    entries.lookup key = none ↔ key ∉ keys entries := by
  rw [← lookup_isSome_iff, Bool.not_eq_true, Option.isSome_eq_false_iff, Option.isNone_iff_eq_none]

theorem mem_iff_lookup {key : String} {a : α} {entries : List (String × α)}
    (h : (keys entries).Nodup) : (key, a) ∈ entries ↔ entries.lookup key = some a := by
  constructor
  · intro hm
    induction entries with
    | nil => cases hm
    | cons e rest ih =>
      rw [keys_cons, List.nodup_cons] at h
      rw [lookup_cons]
      rcases List.mem_cons.1 hm with rfl | hm
      · exact if_pos rfl
      · have hk : key ∈ keys rest := List.mem_map_of_mem (f := Prod.fst) hm
        have hne : key ≠ e.1 := fun he => h.1 (he ▸ hk)
        rw [if_neg hne]
        exact ih h.2 hm
  · exact mem_of_lookup

theorem eq_of_mem {key : String} {a b : α} {entries : List (String × α)}
    (h : (keys entries).Nodup) (ha : (key, a) ∈ entries) (hb : (key, b) ∈ entries) : a = b :=
  Option.some.inj (((mem_iff_lookup h).1 ha).symm.trans ((mem_iff_lookup h).1 hb))

theorem filter_eq_singleton {key : String} {a : α} {entries : List (String × α)}
    (h : (keys entries).Nodup) (hm : (key, a) ∈ entries) :
    entries.filter (·.1 == key) = [(key, a)] := by
  induction entries with
  | nil => cases hm
  | cons e rest ih =>
    rw [keys_cons, List.nodup_cons] at h
    rcases List.mem_cons.1 hm with rfl | hm
    · have hn : rest.filter (·.1 == key) = [] := by
        refine List.filter_eq_nil_iff.2 fun e he hk => h.1 ?_
        exact List.mem_map.2 ⟨e, he, beq_iff_eq.1 hk⟩
      rw [List.filter_cons_of_pos (by simp), hn]
    · have hk : key ∈ keys rest := List.mem_map_of_mem (f := Prod.fst) hm
      have hne : e.1 ≠ key := fun he => h.1 (he ▸ hk)
      rw [List.filter_cons_of_neg (by simpa using hne), ih h.2 hm]

theorem filter_filterMap_eq {β : Type} {g : α → Option β} {key : String} {a : α}
    {entries : List (String × α)} (h : (keys entries).Nodup) (hm : (key, a) ∈ entries) :
    (entries.filterMap fun e => (g e.2).map (e.1, ·)).filter (·.1 == key) =
      ((g a).map (key, ·)).toList := by
  have hg : (fun e : String × α => ((g e.2).map (e.1, ·)).filter (·.1 == key)) =
      fun e => if e.1 == key then (g e.2).map (e.1, ·) else none := by
    funext e
    cases g e.2 with
    | none => simp
    | some b => rfl
  rw [List.filter_filterMap, hg, ← List.filterMap_filter, filter_eq_singleton h hm]
  cases hb : g a <;> simp [hb]

theorem lookup_append_of_not_mem {key : String} {before after : List (String × α)}
    (h : key ∉ keys before) : (before ++ after).lookup key = after.lookup key := by
  rw [List.lookup_append, lookup_eq_none_iff.2 h, Option.none_or]

theorem lookup_remove (key k : String) (entries : List (String × α)) :
    (remove key entries).lookup k = if k = key then none else entries.lookup k := by
  induction entries with
  | nil => simp [remove]
  | cons e rest ih =>
    rw [remove] at ih ⊢
    by_cases he : e.1 = key
    · rw [List.filter_cons_of_neg (by simp [he]), ih, lookup_cons, he]
      split <;> rfl
    · rw [List.filter_cons_of_pos (by simp [he]), lookup_cons, lookup_cons, ih]
      by_cases h : k = e.1
      · simp [h, he]
      · simp [h]

/-- The last entry of a key is the one that is found. -/
theorem lookup_ofList (key : String) (entries : List (String × α)) :
    (ofList entries).lookup key = entries.reverse.lookup key := by
  suffices ∀ kept : List (String × α),
      (entries.foldl (fun kept entry => put entry.1 entry.2 kept) kept).lookup key =
        (entries.reverse.lookup key).or (kept.lookup key) by simpa [ofList] using this []
  induction entries with
  | nil =>
    intro _
    exact rfl
  | cons e rest ih =>
    intro kept
    rw [List.foldl_cons, ih, lookup_put, List.reverse_cons, List.lookup_append, Option.or_assoc,
      lookup_cons]
    split <;> rfl

theorem mem_keys_ofList {key : String} {entries : List (String × α)} :
    key ∈ keys (ofList entries) ↔ key ∈ keys entries := by
  rw [← lookup_isSome_iff, lookup_ofList, lookup_isSome_iff, keys, List.map_reverse,
    List.mem_reverse, keys]

section

variable {β : Type} (f : α → β)

theorem keys_map (entries : List (String × α)) :
    keys (entries.map fun e => (e.1, f e.2)) = keys entries := by
  simp [keys]

theorem lookup_map (key : String) (entries : List (String × α)) :
    (entries.map fun e => (e.1, f e.2)).lookup key = (entries.lookup key).map f := by
  induction entries with
  | nil => rfl
  | cons e rest ih =>
    rw [List.map_cons, lookup_cons, lookup_cons, ih]
    split <;> rfl

theorem map_put (key : String) (a : α) (entries : List (String × α)) :
    (put key a entries).map (fun e => (e.1, f e.2)) =
      put key (f a) (entries.map fun e => (e.1, f e.2)) := by
  induction entries with
  | nil => rfl
  | cons e rest ih =>
    rw [put, List.map_cons, put]
    split
    · rfl
    · rw [List.map_cons, ih]

theorem map_ofList (entries : List (String × α)) :
    (ofList entries).map (fun e => (e.1, f e.2)) = ofList (entries.map fun e => (e.1, f e.2)) := by
  suffices ∀ kept : List (String × α),
      (entries.foldl (fun kept entry => put entry.1 entry.2 kept) kept).map
          (fun e => (e.1, f e.2)) =
        (entries.map fun e => (e.1, f e.2)).foldl (fun kept entry => put entry.1 entry.2 kept)
          (kept.map fun e => (e.1, f e.2)) from this []
  induction entries with
  | nil =>
    intro _
    exact rfl
  | cons e rest ih =>
    intro kept
    rw [List.foldl_cons, ih, map_put, List.map_cons, List.foldl_cons]

end

end ContentSchema.Entries
