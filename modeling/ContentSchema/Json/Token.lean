import ContentSchema.Json.Tree

/-! # Tokens

A JSON text is cut into tokens from the left. The first place that begins none gives a last token
of junk, so that cutting always ends.
-/

namespace ContentSchema.Json

inductive Token where
  | openList
  | closeList
  | openObject
  | closeObject
  | comma
  | colon
  | leaf (value : Tree)
  | junk

namespace Token

def isBlank (c : Char) : Bool := c == ' ' || c == '\n' || c == '\t' || c == '\r'

def hexDigit? (c : Char) : Option Nat :=
  if c.isDigit then some (c.toNat - '0'.toNat)
  else if 'a' ≤ c ∧ c ≤ 'f' then some (c.toNat - 'a'.toNat + 10)
  else if 'A' ≤ c ∧ c ≤ 'F' then some (c.toNat - 'A'.toNat + 10)
  else none

def hexQuad? (a b c d : Char) : Option Nat := do
  let a ← hexDigit? a
  let b ← hexDigit? b
  let c ← hexDigit? c
  let d ← hexDigit? d
  return ((a * 16 + b) * 16 + c) * 16 + d

def unescape? : Char → Option Char
  | '"' => some '"'
  | '\\' => some '\\'
  | '/' => some '/'
  | 'b' => some '\x08'
  | 'f' => some '\x0c'
  | 'n' => some '\n'
  | 'r' => some '\r'
  | 't' => some '\t'
  | _ => none

/-- The code units of a string up to its closing quote, and the text after it. -/
def units : List Char → Option (List Nat × List Char)
  | [] => none
  | '"' :: rest => some ([], rest)
  | '\\' :: 'u' :: a :: b :: c :: d :: rest => do
    let unit ← hexQuad? a b c d
    let (later, rest) ← units rest
    return (unit :: later, rest)
  | '\\' :: c :: rest => do
    let c ← unescape? c
    let (later, rest) ← units rest
    return (c.toNat :: later, rest)
  | c :: rest =>
    if c.toNat < 0x20 then none
    else do
      let (later, rest) ← units rest
      return (c.toNat :: later, rest)

/-- Joins the halves of surrogate pairs; a half that stands alone has no character. -/
def characters : List Nat → Option (List Char)
  | [] => some []
  | [unit] => if 0xD800 ≤ unit ∧ unit < 0xE000 then none else some [Char.ofNat unit]
  | unit :: next :: rest =>
    if 0xDC00 ≤ unit ∧ unit < 0xE000 then none
    else if 0xD800 ≤ unit ∧ unit < 0xDC00 then
      if 0xDC00 ≤ next ∧ next < 0xE000 then
        (characters rest).map
          (Char.ofNat ((unit - 0xD800) * 0x400 + (next - 0xDC00) + 0x10000) :: ·)
      else none
    else (characters (next :: rest)).map (Char.ofNat unit :: ·)

/-- The digits that a text begins with, at least one, and the text after them. -/
def digits (text : List Char) : Option (List Char × List Char) :=
  match text.takeWhile Char.isDigit with
  | [] => none
  | found => some (found, text.dropWhile Char.isDigit)

def fraction (text : List Char) : Option (Option (List Char) × List Char) :=
  match text with
  | '.' :: rest => (digits rest).map fun (found, rest) => (some found, rest)
  | _ => some (none, text)

def natural (digits : List Char) : Nat :=
  digits.foldl (fun n c => n * 10 + (c.toNat - '0'.toNat)) 0

def signed (text : List Char) : Option (Int × List Char) :=
  match text with
  | '+' :: rest => (digits rest).map fun (found, rest) => (natural found, rest)
  | '-' :: rest => (digits rest).map fun (found, rest) => (-natural found, rest)
  | _ => (digits text).map fun (found, rest) => (natural found, rest)

def exponent (text : List Char) : Option (Option Int × List Char) :=
  match text with
  | 'e' :: rest => (signed rest).map fun (n, rest) => (some n, rest)
  | 'E' :: rest => (signed rest).map fun (n, rest) => (some n, rest)
  | _ => some (none, text)

/-- The digits before the point; a zero leads only where it stands alone. -/
def wholeDigits (text : List Char) : Option (List Char × List Char) :=
  (digits text).filter fun (found, _) => found.head? != some '0' || found.length == 1

def numeral (negative : Bool) (text : List Char) : Option (Option Number × List Char) := do
  let (whole, rest) ← wholeDigits text
  let (fraction, rest) ← fraction rest
  let (exponent, rest) ← exponent rest
  return (Number.ofNumeral negative whole fraction exponent, rest)

/-- The token that a text without leading blanks begins with, and the text after it. -/
def first? : List Char → Option (Token × List Char)
  | [] => none
  | '[' :: rest => some (openList, rest)
  | ']' :: rest => some (closeList, rest)
  | '\x7b' :: rest => some (openObject, rest)
  | '\x7d' :: rest => some (closeObject, rest)
  | ',' :: rest => some (comma, rest)
  | ':' :: rest => some (colon, rest)
  | '"' :: rest =>
    (units rest).map fun (found, rest) => (leaf (.str ((characters found).map String.ofList)), rest)
  | 'n' :: 'u' :: 'l' :: 'l' :: rest => some (leaf .null, rest)
  | 't' :: 'r' :: 'u' :: 'e' :: rest => some (leaf (.bool true), rest)
  | 'f' :: 'a' :: 'l' :: 's' :: 'e' :: rest => some (leaf (.bool false), rest)
  | '-' :: rest => (numeral true rest).map fun (n, rest) => (leaf (.num n), rest)
  | text => (numeral false text).map fun (n, rest) => (leaf (.num n), rest)

theorem length_units {text rest : List Char} {found : List Nat}
    (h : units text = some (found, rest)) : rest.length < text.length := by
  fun_induction units text generalizing found rest with
  | case1 => simp at h
  | case2 r => simp at h; simp [h]
  | case3 a b c d r ih =>
    simp only [Option.bind_eq_bind, Option.bind_eq_some_iff, Option.pure_def, Option.some.injEq,
      Prod.mk.injEq] at h
    obtain ⟨_, _, ⟨_, _⟩, hu, _, rfl⟩ := h
    have := ih hu
    simp only [List.length_cons]
    omega
  | case4 c r _ ih =>
    simp only [Option.bind_eq_bind, Option.bind_eq_some_iff, Option.pure_def, Option.some.injEq,
      Prod.mk.injEq] at h
    obtain ⟨_, _, ⟨_, _⟩, hu, _, rfl⟩ := h
    have := ih hu
    simp only [List.length_cons]
    omega
  | case5 => simp at h
  | case6 c r _ _ _ _ ih =>
    simp only [Option.bind_eq_bind, Option.bind_eq_some_iff, Option.pure_def, Option.some.injEq,
      Prod.mk.injEq] at h
    obtain ⟨⟨_, _⟩, hu, _, rfl⟩ := h
    have := ih hu
    simp only [List.length_cons]
    omega

theorem length_digits {text rest found : List Char} (h : digits text = some (found, rest)) :
    rest.length < text.length := by
  unfold digits at h
  split at h
  · simp at h
  · rename_i found' hf
    simp only [Option.some.injEq, Prod.mk.injEq] at h
    obtain ⟨rfl, rfl⟩ := h
    have := congrArg List.length (@List.takeWhile_append_dropWhile _ Char.isDigit text)
    have : 0 < (text.takeWhile Char.isDigit).length := List.length_pos_iff.2 hf
    simp only [List.length_append] at *
    omega

theorem length_fraction {text rest : List Char} {found : Option (List Char)}
    (h : fraction text = some (found, rest)) : rest.length ≤ text.length := by
  unfold fraction at h
  split at h
  · obtain ⟨⟨_, _⟩, hd, he⟩ := Option.map_eq_some_iff.1 h
    simp only [Prod.mk.injEq] at he
    obtain ⟨_, rfl⟩ := he
    have := length_digits hd
    simp only [List.length_cons]
    omega
  · simp_all

theorem length_signed {text rest : List Char} {n : Int} (h : signed text = some (n, rest)) :
    rest.length < text.length := by
  unfold signed at h
  split at h <;>
    · obtain ⟨⟨_, _⟩, hd, he⟩ := Option.map_eq_some_iff.1 h
      obtain ⟨_, rfl⟩ := Prod.mk.injEq .. ▸ he
      have := length_digits hd
      try simp only [List.length_cons]
      omega

theorem length_exponent {text rest : List Char} {n : Option Int}
    (h : exponent text = some (n, rest)) : rest.length ≤ text.length := by
  unfold exponent at h
  split at h
  case h_3 => simp_all
  all_goals
    obtain ⟨⟨_, _⟩, hd, he⟩ := Option.map_eq_some_iff.1 h
    obtain ⟨_, rfl⟩ := Prod.mk.injEq .. ▸ he
    have := length_signed hd
    simp only [List.length_cons]
    omega

theorem length_numeral {negative : Bool} {text rest : List Char} {n : Option Number}
    (h : numeral negative text = some (n, rest)) : rest.length < text.length := by
  simp only [numeral, wholeDigits, Option.bind_eq_bind, Option.bind_eq_some_iff,
    Option.filter_eq_some_iff] at h
  obtain ⟨⟨_, _⟩, ⟨hd, _⟩, ⟨_, _⟩, hf, ⟨_, _⟩, he, hr⟩ := h
  obtain ⟨_, rfl⟩ := Prod.mk.injEq .. ▸ Option.some.inj hr
  have := length_digits hd
  have := length_fraction hf
  have := length_exponent he
  dsimp only at *
  omega

theorem length_first? {text rest : List Char} {t : Token} (h : first? text = some (t, rest)) :
    rest.length < text.length := by
  unfold first? at h
  split at h
  all_goals first
    | simp at h; done
    | obtain ⟨_, rfl⟩ := Prod.mk.injEq .. ▸ Option.some.inj h
      simp only [List.length_cons]
      omega
    | obtain ⟨⟨_, _⟩, hd, he⟩ := Option.map_eq_some_iff.1 h
      obtain ⟨_, rfl⟩ := Prod.mk.injEq .. ▸ he
      have := length_units hd
      simp only [List.length_cons]
      omega
    | obtain ⟨⟨_, _⟩, hd, he⟩ := Option.map_eq_some_iff.1 h
      obtain ⟨_, rfl⟩ := Prod.mk.injEq .. ▸ he
      have := length_numeral hd
      simp only [List.length_cons] at *
      omega

def cut (text : List Char) : List Token :=
  match _ : text.dropWhile isBlank with
  | [] => []
  | c :: rest =>
    match _ : first? (c :: rest) with
    | none => [junk]
    | some (t, rest) => t :: cut rest
termination_by text.length
decreasing_by
  have := length_first? ‹first? _ = some _›
  have := (List.dropWhile_sublist isBlank : (text.dropWhile isBlank).Sublist text).length_le
  rw [‹text.dropWhile isBlank = _ :: _›] at this
  omega

end Token

end ContentSchema.Json
