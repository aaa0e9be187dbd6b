/-! # Ordered entries

Keyed entries in a list: a key stands where it first came and holds what came last.
-/

namespace ContentSchema.Entries

variable {α : Type}

def put (key : String) (a : α) : List (String × α) → List (String × α)
  | [] => [(key, a)]
  | (k, b) :: rest => if k = key then (k, a) :: rest else (k, b) :: put key a rest

def ofList (entries : List (String × α)) : List (String × α) :=
  entries.foldl (fun kept entry => put entry.1 entry.2 kept) []

def keys (entries : List (String × α)) : List String := entries.map (·.1)

def remove (key : String) (entries : List (String × α)) : List (String × α) :=
  entries.filter (·.1 != key)

@[simp] theorem keys_nil : keys ([] : List (String × α)) = [] := rfl

@[simp] theorem keys_cons (e : String × α) (rest : List (String × α)) :
    keys (e :: rest) = e.1 :: keys rest := rfl

theorem mem_keys_put {key k : String} {a : α} {entries : List (String × α)} :
    k ∈ keys (put key a entries) ↔ k = key ∨ k ∈ keys entries := by
  induction entries with
  | nil => simp [put]
  | cons e rest ih =>
    by_cases h : e.1 = key
    · simp [put, h]
    · simp only [put, h, if_false, keys_cons, List.mem_cons, ih]
      exact or_left_comm

theorem nodup_keys_put {key : String} {a : α} {entries : List (String × α)}
    (h : (keys entries).Nodup) : (keys (put key a entries)).Nodup := by
  induction entries with
  | nil => simp [put]
  | cons e rest ih =>
    rw [keys_cons, List.nodup_cons] at h
    by_cases hk : e.1 = key
    · simpa only [put, hk, if_true, keys_cons, List.nodup_cons] using hk ▸ h
    · simp only [put, hk, if_false, keys_cons, List.nodup_cons, mem_keys_put, false_or]
      exact ⟨h.1, ih h.2⟩

theorem nodup_keys_ofList (entries : List (String × α)) : (keys (ofList entries)).Nodup := by
  suffices ∀ kept : List (String × α), (keys kept).Nodup →
      (keys (entries.foldl (fun kept entry => put entry.1 entry.2 kept) kept)).Nodup from
    this [] (by simp)
  induction entries with
  | nil => exact fun _ h => h
  | cons e rest ih => exact fun kept h => ih _ (nodup_keys_put h)

theorem put_of_not_mem {key : String} {a : α} {entries : List (String × α)}
    (h : key ∉ keys entries) : put key a entries = entries ++ [(key, a)] := by
  induction entries with
  | nil => rfl
  | cons e rest ih =>
    rw [keys_cons, List.mem_cons, not_or] at h
    simp [put, Ne.symm h.1, ih h.2]

theorem ofList_eq_self {entries : List (String × α)} (h : (keys entries).Nodup) :
    ofList entries = entries := by
  suffices ∀ kept : List (String × α), (keys (kept ++ entries)).Nodup →
      entries.foldl (fun kept entry => put entry.1 entry.2 kept) kept = kept ++ entries from
    this [] h
  clear h
  induction entries with
  | nil => simp
  | cons e rest ih =>
    intro kept h
    have hm : e.1 ∉ keys kept := by
      intro hm
      rw [keys, List.map_append, List.map_cons, List.nodup_append] at h
      exact h.2.2 _ hm _ List.mem_cons_self rfl
    rw [List.foldl_cons, put_of_not_mem hm, ih _ (by simpa using h), List.append_assoc,
      List.singleton_append]

theorem lookup_put (key k : String) (a : α) (entries : List (String × α)) :
    (put key a entries).lookup k = if k = key then some a else entries.lookup k := by
  have ne {x y : String} (h : x ≠ y) : (x == y) = false := beq_eq_false_iff_ne.2 h
  induction entries with
  | nil => by_cases h : k = key <;> simp [put, List.lookup_cons, h, ne]
  | cons e rest ih =>
    obtain ⟨k', b⟩ := e
    by_cases he : k' = key
    · by_cases h : k = key <;> simp [put, List.lookup_cons, he, h, ne]
    · by_cases hk : k = k'
      · simp [put, he, hk]
      · simp [put, List.lookup_cons, he, ne hk, ih]

theorem length_remove_lt {key : String} {a : α} {entries : List (String × α)}
    (h : entries.lookup key = some a) : (remove key entries).length < entries.length := by
  induction entries with
  | nil => simp at h
  | cons e rest ih =>
    have hle := List.length_filter_le (fun e : String × α => e.1 != key) rest
    obtain ⟨k, b⟩ := e
    by_cases hk : key = k
    · simpa [remove, hk, Nat.lt_succ_iff] using hk ▸ hle
    · rw [List.lookup_cons, beq_eq_false_iff_ne.2 hk] at h
      simpa [remove, Ne.symm hk] using ih h

end ContentSchema.Entries
