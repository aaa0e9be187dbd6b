import ContentSchema.Json.Parser
import ContentSchema.Json.Writer
import Mathlib.Data.List.Forall2

/-! # Cutting written text

Each part that a value is written with is cut into its own tokens, whatever comes after it. A
quoted string comes back character by character.
-/

namespace ContentSchema.Json

namespace Token

theorem cut_nil : cut [] = [] := by
  rw [cut]
  rfl

theorem cut_blank {c : Char} {rest : List Char} (h : isBlank c) : cut (c :: rest) = cut rest := by
  conv => lhs; rw [cut]
  conv => rhs; rw [cut]
  rw [List.dropWhile_cons_of_pos h]

theorem cut_first {c : Char} {rest after : List Char} {t : Token} (hb : isBlank c = false)
    (h : first? (c :: rest) = some (t, after)) : cut (c :: rest) = t :: cut after := by
  have hd : (c :: rest).dropWhile isBlank = c :: rest := by simp [hb]
  rw [cut]
  split
  · simp_all
  · next hc =>
    rw [hd] at hc
    obtain ⟨rfl, rfl⟩ := List.cons.inj hc
    split <;> simp_all

theorem hexDigit?_hexDigit : ∀ n < 16, hexDigit? (hexDigit n) = some n := by decide

theorem units_control {c : Char} (h : c.toNat < 0x20) (rest : List Char) :
    units ('\\' :: 'u' :: '0' :: '0' :: hexDigit (c.toNat / 16) :: hexDigit (c.toNat % 16) ::
        rest) =
      (units rest).map fun (found, after) => (c.toNat :: found, after) := by
  have hq : hexQuad? '0' '0' (hexDigit (c.toNat / 16)) (hexDigit (c.toNat % 16)) =
      some c.toNat := by
    have h0 : hexDigit? '0' = some 0 := by decide
    have hhigh := hexDigit?_hexDigit (c.toNat / 16) (by omega)
    have hlow := hexDigit?_hexDigit (c.toNat % 16) (by omega)
    simp only [hexQuad?, h0, hhigh, hlow, Option.bind_eq_bind, Option.bind_some, Option.pure_def,
      Option.some.injEq]
    omega
  rw [units, hq]
  cases units rest <;> rfl

theorem units_plain {c : Char} (hq : c ≠ '"') (hb : c ≠ '\\') (h : ¬ c.toNat < 0x20)
    (rest : List Char) :
    units (c :: rest) = (units rest).map fun (found, after) => (c.toNat :: found, after) := by
  rw [units.eq_5 _ _ hq (by simp_all) (by simp_all), if_neg h]
  cases units rest <;> rfl

theorem units_escape (c : Char) (rest : List Char) :
    units (escape c ++ rest) =
      (units rest).map fun (found, after) => (c.toNat :: found, after) := by
  unfold escape
  split
  case h_8 =>
    split
    · exact units_control ‹_› rest
    · exact units_plain ‹_› ‹_› ‹_› rest
  all_goals cases h : units rest <;> simp [units, unescape?, h]

theorem units_flatMap_escape (cs rest : List Char) :
    units (cs.flatMap escape ++ '"' :: rest) = some (cs.map Char.toNat, rest) := by
  induction cs with
  | nil => simp [units]
  | cons c cs ih => simp [units_escape, ih]

theorem not_surrogate (c : Char) : ¬ (0xD800 ≤ c.toNat ∧ c.toNat < 0xE000) := by
  have h : c.toNat < 0xD800 ∨ 0xDFFF < c.toNat ∧ c.toNat < 0x110000 := c.valid
  omega

theorem characters_toNat (cs : List Char) : characters (cs.map Char.toNat) = some cs := by
  induction cs with
  | nil => rfl
  | cons c cs ih =>
    have hc := not_surrogate c
    cases cs with
    | nil => simp [characters, hc]
    | cons d cs =>
      have hlow : ¬ (0xDC00 ≤ c.toNat ∧ c.toNat < 0xE000) := by omega
      have hhigh : ¬ (0xD800 ≤ c.toNat ∧ c.toNat < 0xDC00) := by omega
      simp only [List.map_cons] at ih ⊢
      rw [characters, if_neg hlow, if_neg hhigh, ih, Option.map_some, Char.ofNat_toNat]

end Token

open Token

/-- The text is cut into these tokens, and what comes after it on its own. -/
def Gives (text : String) (tokens : List Token) : Prop :=
  ∀ rest, cut (text.toList ++ rest) = tokens ++ cut rest

namespace Gives

theorem append {a b : String} {ts us : List Token} (ha : Gives a ts) (hb : Gives b us) :
    Gives (a ++ b) (ts ++ us) := by
  intro rest
  rw [String.toList_append, List.append_assoc, ha, hb, List.append_assoc]

theorem blanks {text : String} (h : ∀ c ∈ text.toList, isBlank c) : Gives text [] := by
  intro rest
  revert h
  induction text.toList with
  | nil =>
    intro _
    exact rfl
  | cons c cs ih =>
    intro h
    rw [List.cons_append, cut_blank (h c List.mem_cons_self)]
    exact ih fun d hd => h d (List.mem_cons_of_mem c hd)

theorem openList : Gives "[" [.openList] := fun _ => cut_first rfl rfl

theorem closeList : Gives "]" [.closeList] := fun _ => cut_first rfl rfl

theorem openObject : Gives "\x7b" [.openObject] := fun _ => cut_first rfl rfl

theorem closeObject : Gives "\x7d" [.closeObject] := fun _ => cut_first rfl rfl

theorem comma : Gives "," [.comma] := fun _ => cut_first rfl rfl

theorem colon : Gives ":" [.colon] := fun _ => cut_first rfl rfl

theorem null : Gives "null" [.leaf .null] := fun _ => cut_first rfl rfl

theorem bool (b : Bool) : Gives (if b then "true" else "false") [.leaf (.bool b)] := by
  cases b
  · intro _
    exact cut_first rfl rfl
  · intro _
    exact cut_first rfl rfl

theorem quote (s : String) : Gives (quote s) [.leaf (.str (some s))] := by
  intro rest
  have hq : "\"".toList = ['"'] := rfl
  simp only [Json.quote, String.toList_append, String.toList_ofList, List.append_assoc, hq,
    List.cons_append, List.nil_append]
  refine cut_first rfl ?_
  simp only [first?, units_flatMap_escape, characters_toNat, Option.map_some, String.ofList_toList]

theorem indent (level : Nat) : Gives (Text.indent level) [] := by
  apply blanks
  intro c hc
  simp only [Text.indent, String.toList_ofList] at hc
  rw [List.eq_of_mem_replicate hc]
  rfl

theorem intercalate {sep : String} {st : List Token} {parts : List String}
    {tokens : List (List Token)} (hs : Gives sep st) (h : List.Forall₂ Gives parts tokens) :
    Gives (sep.intercalate parts) (st.intercalate tokens) := by
  induction h with
  | nil =>
    intro _
    exact rfl
  | cons hp hps ih =>
    cases hps with
    | nil => simpa using hp
    | cons _ _ =>
      rw [String.intercalate_cons_cons, List.intercalate_cons_cons]
      exact (hp.append hs).append ih

theorem indented (level : Nat) {parts : List String} {tokens : List (List Token)}
    (h : List.Forall₂ Gives parts tokens) :
    List.Forall₂ Gives (parts.map (Text.indent level ++ ·)) tokens := by
  rw [List.forall₂_map_left_iff]
  exact h.imp fun _ _ hp => (indent level).append hp

theorem block {level : Nat} {opening closing : String} {first last : Token} {parts : List String}
    {tokens : List (List Token)} (ho : Gives opening [first]) (hc : Gives closing [last])
    (h : List.Forall₂ Gives parts tokens) :
    Gives (Value.block level opening closing parts)
      (first :: List.intercalate [.comma] tokens ++ [last]) := by
  have newline : Gives "\n" [] := blanks (by simp [isBlank])
  have between : Gives ",\n" [.comma] := comma.append newline
  unfold Value.block
  split
  · next he =>
    obtain rfl := List.isEmpty_iff.1 he
    cases h
    exact ho.append hc
  · have hl := intercalate between (indented (level + 1) h)
    simpa using ((((ho.append newline).append hl).append newline).append (indent level)).append hc

end Gives

end ContentSchema.Json
