import ContentSchema.Proofs.Json.Cutting
import ContentSchema.Proofs.Text.Spelling

/-! # Texts told apart

A part of a text is told from what comes after it by how it ends: a list by what closes it, a quoted
string by its second quote, a name by the first character that no name has.
-/

namespace ContentSchema.Text

theorem separator_append_intercalate (separator : String) {parts : List String} (h : parts ≠ []) :
    separator.toList ++ (separator.intercalate parts).toList =
      parts.flatMap fun part => separator.toList ++ part.toList := by
  induction parts with
  | nil => exact absurd rfl h
  | cons part rest ih =>
    cases rest with
    | nil => simp
    | cons next later =>
      rw [String.intercalate_cons_cons, String.toList_append, String.toList_append, List.flatMap_cons,
        ← ih (List.cons_ne_nil _ _)]
      simp only [List.append_assoc]

/-- Lists of parts that are told apart one by one are told apart by what closes them. `R` is what
may come after a part. -/
theorem eq_of_flatMap_append {α : Type} {P : α → Prop} {R : List Char → Prop} {f : α → List Char}
    (close : List Char) (hclose : ∀ rest, R (close ++ rest))
    (hpart : ∀ a, P a → ∀ rest, R (f a ++ rest) ∧ ∀ rest', f a ++ rest ≠ close ++ rest')
    {as bs : List α} (ha : ∀ a ∈ as, P a) (hb : ∀ b ∈ bs, P b)
    (h : ∀ a ∈ as, ∀ b ∈ bs, ∀ rest rest', R rest → R rest' → f a ++ rest = f b ++ rest' →
      a = b ∧ rest = rest') {rest rest' : List Char}
    (heq : as.flatMap f ++ (close ++ rest) = bs.flatMap f ++ (close ++ rest')) :
    as = bs ∧ rest = rest' := by
  -- after a part comes another one or what closes them
  have hafter (cs : List α) (hc : ∀ c ∈ cs, P c) (rest : List Char) :
      R (cs.flatMap f ++ (close ++ rest)) := by
    cases cs with
    | nil => exact hclose rest
    | cons c cs =>
      rw [List.flatMap_cons, List.append_assoc]
      exact (hpart c (hc c List.mem_cons_self) _).1
  induction as generalizing bs with
  | nil =>
    cases bs with
    | nil => exact ⟨rfl, List.append_cancel_left heq⟩
    | cons b bs =>
      rw [List.flatMap_cons, List.append_assoc] at heq
      exact absurd heq.symm ((hpart b (hb b List.mem_cons_self) _).2 rest)
  | cons a as ih =>
    rw [List.forall_mem_cons] at ha h
    rw [List.flatMap_cons, List.append_assoc] at heq
    cases bs with
    | nil => exact absurd heq ((hpart a ha.1 _).2 rest')
    | cons b bs =>
      rw [List.forall_mem_cons] at hb
      rw [List.flatMap_cons, List.append_assoc] at heq
      obtain ⟨rfl, hlater⟩ := h.1 b List.mem_cons_self _ _ (hafter as ha.2 rest)
        (hafter bs hb.2 rest') heq
      obtain ⟨rfl, rfl⟩ := ih ha.2 hb.2 (fun a ha b hb => h.2 a ha b (List.mem_cons_of_mem _ hb))
        hlater
      exact ⟨rfl, rfl⟩

theorem eq_of_append_mark {mark : Char} {cs ds rest rest' : List Char} (hc : mark ∉ cs)
    (hd : mark ∉ ds) (h : cs ++ mark :: rest = ds ++ mark :: rest') : cs = ds ∧ rest = rest' := by
  refine eq_of_flatMap_append (P := (· ≠ mark)) (R := fun _ => True) (f := fun c => [c])
    [mark] (fun _ => trivial) ?_ (fun c hm => ne_of_mem_of_not_mem hm hc)
    (fun d hm => ne_of_mem_of_not_mem hm hd) ?_ (by simpa using h)
  · intro c hc rest
    exact ⟨trivial, fun rest' he => hc (List.cons.inj he).1⟩
  · intro c _ d _ rest rest' _ _ he
    exact List.cons.inj he

theorem eq_of_quote_append {s t : String} {rest rest' : List Char}
    (h : (Json.quote s).toList ++ rest = (Json.quote t).toList ++ rest') :
    s = t ∧ rest = rest' := by
  have hq : "\"".toList = ['"'] := rfl
  simp only [Json.quote, String.toList_append, String.toList_ofList, List.append_assoc, hq,
    List.cons_append, List.nil_append] at h
  have hu := congrArg Json.Token.units (List.cons.inj h).2
  rw [Json.Token.units_flatMap_escape, Json.Token.units_flatMap_escape] at hu
  obtain ⟨hs, rfl⟩ := Prod.mk.inj (Option.some.inj hu)
  have hc := congrArg Json.Token.characters hs
  rw [Json.Token.characters_toNat, Json.Token.characters_toNat] at hc
  exact ⟨String.toList_inj.1 (Option.some.inj hc), rfl⟩

/-- The quotes in a text are told from the one that closes it by what stands before them. -/
theorem eq_of_escapeQuotes_append {s t : String} {rest rest' : List Char}
    (h : (escapeQuotes s).toList ++ '"' :: rest = (escapeQuotes t).toList ++ '"' :: rest') :
    s = t ∧ rest = rest' := by
  have hchar (c d : Char) (rest rest' : List Char)
      (h : (if c = '\\' ∨ c = '"' then ['\\', c] else [c]) ++ rest =
        (if d = '\\' ∨ d = '"' then ['\\', d] else [d]) ++ rest') : c = d ∧ rest = rest' := by
    split at h
    · split at h
      · exact List.cons.inj (List.cons.inj h).2
      · next hd => exact absurd (.inl (List.cons.inj h).1.symm) hd
    · next hc =>
      split at h
      · exact absurd (.inl (List.cons.inj h).1) hc
      · exact List.cons.inj h
  have hclose (c : Char) (rest rest' : List Char) :
      (if c = '\\' ∨ c = '"' then ['\\', c] else [c]) ++ rest ≠ ['"'] ++ rest' := by
    intro h
    split at h
    · exact absurd (List.cons.inj h).1 (by decide)
    · next hc => exact hc (.inr (List.cons.inj h).1)
  simp only [escapeQuotes, String.toList_ofList] at h
  obtain ⟨hs, hr⟩ := eq_of_flatMap_append (P := fun _ => True) (R := fun _ => True)
    ['"'] (fun _ => trivial) (fun c _ rest => ⟨trivial, hclose c rest⟩)
    (fun _ _ => trivial) (fun _ _ => trivial)
    (fun c _ d _ rest rest' _ _ => hchar c d rest rest') h
  exact ⟨String.toList_inj.1 hs, hr⟩

theorem eq_of_propertyName_append {s t : String} {rest rest' : List Char}
    (h : (propertyName s).toList ++ ':' :: rest = (propertyName t).toList ++ ':' :: rest') :
    s = t ∧ rest = rest' := by
  have hquoted (s : String) (rest : List Char) :
      ("\"" ++ escapeQuotes s ++ "\"").toList ++ ':' :: rest =
        '"' :: ((escapeQuotes s).toList ++ '"' :: ':' :: rest) := by
    have hq : "\"".toList = ['"'] := rfl
    simp [String.toList_append, hq]
  have hcolon {s : String} (hs : isIdentifier s = true) : ':' ∉ s.toList :=
    (isIdentifier_iff.1 hs).1.not_mem (by decide)
  unfold propertyName at h
  split at h
  · next hs =>
    split at h
    · next ht =>
      obtain ⟨hc, hr⟩ := eq_of_append_mark (hcolon hs) (hcolon ht) h
      exact ⟨String.toList_inj.1 hc, hr⟩
    · rw [hquoted] at h
      exact absurd h ((isIdentifier_iff.1 hs).1.append_ne_quote _ _)
  · split at h
    · next ht =>
      rw [hquoted] at h
      exact absurd h.symm ((isIdentifier_iff.1 ht).1.append_ne_quote _ _)
    · rw [hquoted, hquoted] at h
      obtain ⟨rfl, hr⟩ := eq_of_escapeQuotes_append (List.cons.inj h).2
      exact ⟨rfl, (List.cons.inj hr).2⟩

end ContentSchema.Text
