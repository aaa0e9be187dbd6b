import ContentSchema.Json.Reader
import ContentSchema.Proofs.Report
import Mathlib.Data.List.Perm.Basic
import Mathlib.Data.List.Pairwise

/-! # The members of a record

A record is read member by member. If its slots set different parts of it, the order of the members
is without meaning.
-/

namespace ContentSchema.Json

namespace Slot

variable {α : Type}

/-- It is the same to set one slot before the other or after it. -/
def Commutes (s s' : Slot α) : Prop :=
  ∀ a t t' c, (∃ b, s.set a t = .ok b ∧ s'.set b t' = .ok c) ↔
    ∃ b, s'.set a t' = .ok b ∧ s.set b t = .ok c

instance : Std.Symm (Commutes (α := α)) := ⟨fun _ _ h a t t' c => (h a t' t c).symm⟩

theorem commutes_of_put {β γ : Type} {s s' : Slot α} {read : Reader β} {put : α → β → α}
    {read' : Reader γ} {put' : α → γ → α} (hs : s.set = setWith read put)
    (hs' : s'.set = setWith read' put') (h : ∀ a b c, put' (put a b) c = put (put' a c) b) :
    Commutes s s' := by
  intro a t t' c
  rw [hs, hs']
  unfold setWith
  cases read t with
  | error e => cases read' t' <;> simp [Except.map]
  | ok b => cases read' t' <;> simp [Except.map, h]

end Slot

namespace Record

variable {α : Type} {record : Record α} {seen seen' : List String} {a b : α}

/-- From the record `a` with the slots `seen` set, a member is read to what comes after. -/
inductive Takes (record : Record α) (seen : List String) (a : α) :
    Tree × Tree → List String → α → Prop
  | other {key : String} {t : Tree} (hf : record.slots.find? (·.answers key) = none)
      (ht : record.readOther key t = .ok ()) : Takes record seen a (.str (some key), t) seen a
  | slot {key : String} {t : Tree} {slot : Slot α} {b : α}
      (hf : record.slots.find? (·.answers key) = some slot) (hn : slot.key ∉ seen)
      (ht : slot.set a t = .ok b) : Takes record seen a (.str (some key), t) (slot.key :: seen) b

theorem readMembers_cons_eq_ok {m : Tree × Tree} {rest : List (Tree × Tree)} :
    record.readMembers seen a (m :: rest) = .ok b ↔
      ∃ seen' a', record.Takes seen a m seen' a' ∧ record.readMembers seen' a' rest = .ok b := by
  obtain ⟨k, t⟩ := m
  constructor
  · intro h
    obtain ⟨key, hk, hm⟩ := bind_eq_ok.1 h
    obtain ⟨rfl⟩ : k = .str (some key) := by
      unfold Reader.key at hk
      split at hk <;> cases hk
      rfl
    split at hm
    · next hf =>
      obtain ⟨_, ht, hr⟩ := bind_eq_ok.1 hm
      exact ⟨seen, a, .other hf ht, hr⟩
    · next slot hf =>
      split at hm
      · cases hm
      · next hn =>
        obtain ⟨a', ht, hr⟩ := bind_eq_ok.1 hm
        exact ⟨_, a', .slot hf (by simpa using hn) ht, hr⟩
  · rintro ⟨_, _, ht, hr⟩
    cases ht with
    | other hf ht => simp [readMembers, Reader.key, hf, ht, hr, bind, Except.bind]
    | slot hf hn ht => simp [readMembers, Reader.key, hf, hn, ht, hr, bind, Except.bind]

theorem readMembers_congr (h : ∀ key, key ∈ seen ↔ key ∈ seen') (members : List (Tree × Tree)) :
    record.readMembers seen a members = record.readMembers seen' a members := by
  induction members generalizing seen seen' a with
  | nil => simp [readMembers, h]
  | cons m rest ih =>
    have hi : ∀ slot : Slot α, ∀ a, record.readMembers (slot.key :: seen) a rest =
        record.readMembers (slot.key :: seen') a rest := fun slot a => ih (by simp [h])
    simp only [readMembers, List.contains_iff_mem, h, ih h, hi]

theorem Takes.swap {m n : Tree × Tree} {seen₁ seen₂ : List String} {a₁ a₂ : α}
    (hc : record.slots.Pairwise Slot.Commutes) (hm : record.Takes seen a m seen₁ a₁)
    (hn : record.Takes seen₁ a₁ n seen₂ a₂) :
    ∃ seen₃ a₃ seen₄, record.Takes seen a n seen₃ a₃ ∧ record.Takes seen₃ a₃ m seen₄ a₂ ∧
      ∀ key, key ∈ seen₂ ↔ key ∈ seen₄ := by
  cases hm with
  | other hf ht =>
    cases hn with
    | other hf' ht' => exact ⟨_, _, _, .other hf' ht', .other hf ht, fun _ => Iff.rfl⟩
    | slot hf' hn' ht' => exact ⟨_, _, _, .slot hf' hn' ht', .other hf ht, fun _ => Iff.rfl⟩
  | @slot key t s b hf hs ht =>
    cases hn with
    | other hf' ht' => exact ⟨_, _, _, .other hf' ht', .slot hf hs ht, fun _ => Iff.rfl⟩
    | @slot key' t' s' c hf' hs' ht' =>
      -- The second slot is not the first, which is set by then, so the two commute.
      rw [List.mem_cons, not_or] at hs'
      have hne : s ≠ s' := fun h => hs'.1 (h ▸ rfl)
      have hss : s.Commutes s' := hc.forall
        (List.mem_of_find?_eq_some hf) (List.mem_of_find?_eq_some hf') hne
      obtain ⟨b', hb', hb⟩ := (hss a t t' a₂).1 ⟨a₁, ht, ht'⟩
      refine ⟨_, _, _, .slot hf' hs'.2 hb', .slot hf ?_ hb, by simp [or_left_comm]⟩
      rw [List.mem_cons, not_or]
      exact ⟨Ne.symm hs'.1, hs⟩

/-- Members may come in any order. -/
theorem readMembers_perm {members members' : List (Tree × Tree)} (hp : members.Perm members')
    (hc : record.slots.Pairwise Slot.Commutes) (h : record.readMembers seen a members = .ok b) :
    record.readMembers seen a members' = .ok b := by
  induction hp generalizing seen a with
  | nil => exact h
  | cons m _ ih =>
    obtain ⟨seen', a', ht, hr⟩ := readMembers_cons_eq_ok.1 h
    exact readMembers_cons_eq_ok.2 ⟨seen', a', ht, ih hr⟩
  | swap m n rest =>
    obtain ⟨seen₁, a₁, hn, h⟩ := readMembers_cons_eq_ok.1 h
    obtain ⟨seen₂, a₂, hm, hr⟩ := readMembers_cons_eq_ok.1 h
    obtain ⟨seen₃, a₃, seen₄, hm', hn', hs⟩ := hn.swap hc hm
    rw [readMembers_congr hs] at hr
    exact readMembers_cons_eq_ok.2
      ⟨seen₃, a₃, hm', readMembers_cons_eq_ok.2 ⟨seen₄, a₂, hn', hr⟩⟩
  | trans _ _ ih ih' => exact ih' (ih h)

theorem readMembers_append_mono {before rest rest' : List (Tree × Tree)}
    (hr : ∀ seen a, record.readMembers seen a rest = .ok b →
      record.readMembers seen a rest' = .ok b)
    (h : record.readMembers seen a (before ++ rest) = .ok b) :
    record.readMembers seen a (before ++ rest') = .ok b := by
  induction before generalizing seen a with
  | nil => exact hr seen a h
  | cons m before ih =>
    obtain ⟨seen', a', ht, h⟩ := readMembers_cons_eq_ok.1 h
    exact readMembers_cons_eq_ok.2 ⟨seen', a', ht, ih h⟩

end Record

end ContentSchema.Json
