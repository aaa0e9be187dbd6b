import ContentSchema.Proofs.Json.Members
import ContentSchema.Proofs.Json.Parsed
import ContentSchema.Proofs.Json.Reading
import Mathlib.Logic.Relation

/-! # Edits of documents

Records are read from documents of several forms, where a form tells which parts its records have.
A document may be edited in all that its form does not tell of; its reader follows the edit if it
reads the same from both.
-/

namespace ContentSchema.Json

/-- What a part of a record holds: a value without parts, a record, or a list of records. -/
inductive Held (F : Type) where
  | leaf
  | one (form : F)
  | list (form : F)

/-- A part of a record, which goes by some keys. -/
structure Portion (F : Type) where
  names : List String
  held : Held F

section Edit

variable {F : Type} (parts : F → List (Portion F))

def part? (form : F) (key : String) : Option (Portion F) :=
  (parts form).find? (·.names.contains key)

/-- The members of a record are reordered, or members that its form does not know are added or
removed, in the document itself or in one of its parts. -/
inductive Edit : Held F → Tree → Tree → Prop
  | reorder {form : F} {members members' : List (Tree × Tree)} (h : members.Perm members') :
    Edit (.one form) (.object members) (.object members')
  | add {form : F} {before after : List (Tree × Tree)} {key : String} {v : Tree}
      (hk : part? parts form key = none) (hv : v.Whole) :
    Edit (.one form) (.object (before ++ after))
      (.object (before ++ (.str (some key), v) :: after))
  | remove {form : F} {before after : List (Tree × Tree)} {key : String} {v : Tree}
      (hk : part? parts form key = none) :
    Edit (.one form) (.object (before ++ (.str (some key), v) :: after))
      (.object (before ++ after))
  | member {form : F} {before after : List (Tree × Tree)} {key : String} {part : Portion F}
      {v v' : Tree} (hk : part? parts form key = some part) (h : Edit part.held v v') :
    Edit (.one form) (.object (before ++ (.str (some key), v) :: after))
      (.object (before ++ (.str (some key), v') :: after))
  | position {form : F} {before after : List Tree} {part : Portion F} {v v' : Tree}
      (hp : (parts form)[before.length]? = some part) (h : Edit part.held v v') :
    Edit (.one form) (.list (before ++ v :: after)) (.list (before ++ v' :: after))
  | item {form : F} {before after : List Tree} {v v' : Tree} (h : Edit (.one form) v v') :
    Edit (.list form) (.list (before ++ v :: after)) (.list (before ++ v' :: after))

end Edit

/-- The reader takes nothing with a broken part, and reads the same after a step of `E`. -/
structure Reader.Follows {α : Type} (E : Tree → Tree → Prop) (read : Reader α) : Prop where
  grammatical {t : Tree} {a : α} : read t = .ok a → t.grammatical = true
  keeps {t t' : Tree} {a : α} : E t t' → read t = .ok a → read t' = .ok a

namespace Reader.Follows

open Json.Reader

variable {F : Type} {parts : F → List (Portion F)} {held : Held F} {form : F} {α β : Type}
  {read : Reader α}

theorem map {E : Tree → Tree → Prop} (h : Follows E read) (f : α → β) :
    Follows E fun t => (read t).map f where
  grammatical {t b} hr := by
    obtain ⟨a, ht, -⟩ := map_eq_ok.1 hr
    exact h.grammatical ht
  keeps {t t' b} he hr := by
    obtain ⟨a, ht, hb⟩ := map_eq_ok.1 hr
    exact map_eq_ok.2 ⟨a, h.keeps he ht, hb⟩

theorem leaf (h : ∀ t a, read t = .ok a → t.grammatical = true) :
    Follows (Edit parts .leaf) read where
  grammatical hr := h _ _ hr
  keeps he := nomatch he

theorem text : Follows (Edit parts .leaf) Reader.text := by
  refine leaf fun t a h => ?_
  unfold Reader.text Reader.string at h
  split at h
  · rfl
  · cases h

theorem bool : Follows (Edit parts .leaf) Reader.bool := by
  refine leaf fun t a h => ?_
  unfold Reader.bool at h
  split at h
  · rfl
  · cases h

theorem optional (h : Follows (Edit parts held) read) :
    Follows (Edit parts held) (optional read) where
  grammatical {t a} hr := by
    unfold Reader.optional at hr
    split at hr
    · rfl
    · exact (h.map some).grammatical hr
  keeps {t t' a} he hr := by
    have ht : Reader.optional read t = (read t).map some := by cases he <;> rfl
    have ht' : Reader.optional read t' = (read t').map some := by cases he <;> rfl
    rw [ht] at hr
    rw [ht']
    exact (h.map some).keeps he hr

theorem list (h : Follows (Edit parts (.one form)) read) (room : Nat) :
    Follows (Edit parts (.list form)) (list room read) where
  grammatical {t as} hr := by
    unfold Reader.list at hr
    split at hr
    · refine Tree.grammaticalItems_iff.2 fun t ht => ?_
      obtain ⟨a, ha⟩ := exists_ok_of_mapM (ite_error_eq_ok.1 hr).2 t ht
      exact h.grammatical ha
    · cases hr
  keeps {t t' as} he hr := by
    cases he with
    | @item _ before after v v' he =>
      obtain ⟨hroom, hr⟩ := ite_error_eq_ok.1 hr
      refine ite_error_eq_ok.2 ⟨hroom, ?_⟩
      rw [List.mapM_append, List.mapM_cons] at hr ⊢
      obtain ⟨bs, -, hn⟩ := bind_eq_ok.1 hr
      obtain ⟨cs, hc, -⟩ := bind_eq_ok.1 hn
      obtain ⟨c, hv, -⟩ := bind_eq_ok.1 hc
      rw [h.keeps he hv, ← hv]
      exact hr

end Reader.Follows

/-- The slot is read from the part of a form. -/
structure Slot.Fits {F α : Type} (parts : F → List (Portion F)) (part : Portion F) (slot : Slot α) :
    Prop where
  names (key : String) : key ∈ part.names ↔ slot.answers key = true
  follows (a : α) : Reader.Follows (Edit parts part.held) (slot.set a)

namespace Slot.Fits

variable {F : Type} {parts : F → List (Portion F)} {held : Held F} {α β : Type} {read : Reader β}
  (key : String) (put : α → β → α)

theorem needed (h : Reader.Follows (Edit parts held) read) :
    Fits parts ⟨[key], held⟩ (needed key read put) where
  names k := by rw [answers_needed, List.mem_singleton, beq_iff_eq, eq_comm]
  follows a := h.map (put a)

theorem defaulted (h : Reader.Follows (Edit parts held) read) :
    Fits parts ⟨[key], held⟩ (defaulted key read put) where
  names k := by rw [answers_defaulted, List.mem_singleton, beq_iff_eq, eq_comm]
  follows a := h.map (put a)

theorem also {slot : Slot α} (h : Fits parts ⟨[key], held⟩ slot) (name : String) :
    Fits parts ⟨[key, name], held⟩ (slot.also name) where
  names k := by
    have hk := h.names k
    rw [List.mem_singleton] at hk
    simp [Slot.answers, Slot.also, hk, or_comm, or_left_comm]
  follows a := h.follows a

end Slot.Fits

/-- The record is read from documents of a form. -/
structure Record.Fits {F α : Type} (parts : F → List (Portion F)) (form : F) (record : Record α) :
    Prop where
  slots : List.Forall₂ (Slot.Fits parts) (parts form) record.slots
  commutes : record.slots.Pairwise Slot.Commutes
  others : record.others = .skipped

namespace Record

variable {F α : Type} {parts : F → List (Portion F)} {form : F} {record : Record α}
  {ps : List (Portion F)} {slots : List (Slot α)} {seen : List String} {a b : α}

theorem find?_of_fits (h : List.Forall₂ (Slot.Fits parts) ps slots) (key : String) :
    Option.Rel (Slot.Fits parts) (ps.find? (·.names.contains key))
      (slots.find? (·.answers key)) := by
  induction h with
  | nil => exact .none
  | @cons part slot ps slots hs _ ih =>
    have hn : part.names.contains key = slot.answers key := by
      rw [Bool.eq_iff_iff, List.contains_iff_mem, hs.names]
    rw [List.find?_cons, List.find?_cons, hn]
    split
    · exact .some hs
    · exact ih

namespace Fits

variable (h : record.Fits parts form)

include h

theorem find?_none {key : String} (hk : part? parts form key = none) :
    record.slots.find? (·.answers key) = none := by
  have hr := find?_of_fits h.slots key
  rw [show (parts form).find? _ = none from hk] at hr
  generalize record.slots.find? (·.answers key) = found at hr
  cases hr
  rfl

theorem exists_slot {key : String} {part : Portion F} (hk : part? parts form key = some part) :
    ∃ slot, record.slots.find? (·.answers key) = some slot ∧ Slot.Fits parts part slot := by
  have hr := find?_of_fits h.slots key
  rw [show (parts form).find? _ = some part from hk] at hr
  generalize record.slots.find? (·.answers key) = found at hr
  cases hr with
  | some hs => exact ⟨_, rfl, hs⟩

theorem grammatical_of_takes {m : Tree × Tree} {seen' : List String} {a' : α}
    (ht : record.Takes seen a m seen' a') : m.2.grammatical = true := by
  cases ht with
  | other hf ht =>
    unfold Record.readOther Reader.skip at ht
    rw [h.others] at ht
    dsimp only at ht
    split at ht
    · assumption
    · cases ht
  | slot hf _ ht =>
    obtain ⟨part, -, hs⟩ := Report.exists_of_mem_right h.slots (List.mem_of_find?_eq_some hf)
    exact (hs.follows a).grammatical ht

theorem grammatical_members {members : List (Tree × Tree)}
    (hr : record.readMembers seen a members = .ok b) :
    ∀ m ∈ members, m.2.grammatical = true := by
  induction members generalizing seen a with
  | nil => simp
  | cons m rest ih =>
    obtain ⟨seen', a', ht, hr⟩ := readMembers_cons_eq_ok.1 hr
    exact List.forall_mem_cons.2 ⟨h.grammatical_of_takes ht, ih hr⟩

theorem keeps_members {members members' : List (Tree × Tree)}
    (he : Edit parts (.one form) (.object members) (.object members'))
    (hr : record.readMembers seen a members = .ok b) :
    record.readMembers seen a members' = .ok b := by
  cases he with
  | reorder hp => exact readMembers_perm hp h.commutes hr
  | @add _ before after key v hk hv =>
    refine readMembers_append_mono (fun seen a hr => ?_) hr
    refine readMembers_cons_eq_ok.2 ⟨seen, a, .other (h.find?_none hk) ?_, hr⟩
    simp [readOther, h.others, Reader.skip, hv.grammatical]
  | @remove _ before after key v hk =>
    refine readMembers_append_mono (fun seen a hr => ?_) hr
    obtain ⟨seen', a', ht, hr⟩ := readMembers_cons_eq_ok.1 hr
    cases ht with
    | other => exact hr
    | slot hf => rw [h.find?_none hk] at hf; cases hf
  | @member _ before after key part v v' hk he =>
    refine readMembers_append_mono (fun seen a hr => ?_) hr
    obtain ⟨slot, hf, hs⟩ := h.exists_slot hk
    obtain ⟨seen', a', ht, hr⟩ := readMembers_cons_eq_ok.1 hr
    cases ht with
    | other hf' => rw [hf] at hf'; cases hf'
    | slot hf' hn ht =>
      obtain rfl := Option.some.inj (hf ▸ hf')
      exact readMembers_cons_eq_ok.2 ⟨_, _, .slot hf hn ((hs.follows a).keeps he ht), hr⟩

end Fits

variable {origin : Origin} {n : Nat}

theorem grammatical_items {items : List Tree} (h : List.Forall₂ (Slot.Fits parts) ps slots)
    (hr : record.readItems origin n a slots items = .ok b) :
    ∀ t ∈ items, t.grammatical = true := by
  induction items generalizing n a ps slots with
  | nil => simp
  | cons t rest ih =>
    cases h with
    | nil => cases hr
    | cons hs h =>
      obtain ⟨a', ht, hr⟩ := bind_eq_ok.1 hr
      exact List.forall_mem_cons.2 ⟨(hs.follows a).grammatical ht, ih h hr⟩

theorem keeps_items {before after : List Tree} {part : Portion F} {v v' : Tree}
    (h : List.Forall₂ (Slot.Fits parts) ps slots) (hp : ps[before.length]? = some part)
    (he : Edit parts part.held v v')
    (hr : record.readItems origin n a slots (before ++ v :: after) = .ok b) :
    record.readItems origin n a slots (before ++ v' :: after) = .ok b := by
  induction before generalizing n a ps slots with
  | nil =>
    cases h with
    | nil => cases hp
    | cons hs h =>
      obtain rfl := Option.some.inj hp
      obtain ⟨a', ht, hr⟩ := bind_eq_ok.1 hr
      exact bind_eq_ok.2 ⟨a', (hs.follows a).keeps he ht, hr⟩
  | cons t before ih =>
    cases h with
    | nil => cases hp
    | cons hs h =>
      obtain ⟨a', ht, hr⟩ := bind_eq_ok.1 hr
      exact bind_eq_ok.2 ⟨a', ht, ih h hp hr⟩

/-- A record follows all edits of its documents. -/
theorem Fits.follows (h : record.Fits parts form) (origin : Origin) (room : Nat) :
    Reader.Follows (Edit parts (.one form)) (record.read origin room) where
  grammatical {t a} hr := by
    unfold Record.read at hr
    split at hr
    · exact Tree.grammaticalMembers_iff.2 (h.grammatical_members (ite_error_eq_ok.1 hr).2)
    · exact Tree.grammaticalItems_iff.2 (grammatical_items h.slots (ite_error_eq_ok.1 hr).2)
    · cases hr
  keeps {t t' a} he hr := by
    cases t with
    | object members =>
      obtain ⟨members', rfl⟩ : ∃ members', t' = .object members' := by
        cases he <;> exact ⟨_, rfl⟩
      obtain ⟨hroom, hr⟩ := ite_error_eq_ok.1 hr
      exact ite_error_eq_ok.2 ⟨hroom, h.keeps_members he hr⟩
    | list items =>
      cases he with
      | position hp he =>
        obtain ⟨hroom, hr⟩ := ite_error_eq_ok.1 hr
        exact ite_error_eq_ok.2 ⟨hroom, keeps_items h.slots hp he hr⟩
    | _ => cases he

end Record

namespace Document

variable {α : Type} {E : Tree → Tree → Prop} {read : Reader α} {text text' : String} {t t' : Tree}
  {a : α}

theorem read_eq_ok_iff {document : Document} :
    document.read read = .ok a ↔ read document.root = .ok a ∧ document.trailing = false := by
  rw [Document.read, bind_eq_ok]
  cases document.trailing <;> simp [bind, Except.bind, pure, Except.pure, throw, throwThe,
    MonadExceptOf.throw]

theorem exists_spelledBy (hf : read.Follows E) (h : (ofText text).read read = .ok a) :
    ∃ t : Tree, t.SpelledBy text := by
  obtain ⟨hr, ht⟩ := read_eq_ok_iff.1 h
  exact ⟨_, spelledBy_iff.2 ⟨ht ▸ rfl, hf.grammatical hr⟩⟩

/-- After any number of steps a text is read as it was before. -/
theorem read_of_steps (hf : read.Follows E) (hs : t.SpelledBy text)
    (he : Relation.ReflTransGen E t t') (hs' : t'.SpelledBy text')
    (h : (ofText text).read read = .ok a) : (ofText text').read read = .ok a := by
  rw [ofText_of_spelledBy hs] at h
  have hr : read t' = .ok a := by
    clear hs'
    induction he with
    | refl => exact (read_eq_ok_iff.1 h).1
    | tail _ he ih => exact hf.keeps he ih
  rw [ofText_of_spelledBy hs']
  exact read_eq_ok_iff.2 ⟨hr, rfl⟩

end Document

end ContentSchema.Json
