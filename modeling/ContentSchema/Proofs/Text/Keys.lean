import ContentSchema.Proofs.Json.Cutting
import ContentSchema.Proofs.Text.Spelling

/-! # Keys read back

TypeScript reads a property name from the left: a bare name up to the first character that goes on no
identifier, a text in quotes up to the quote that closes it. Between quotes, a backslash begins an
escape, and the line must not end. Every key is read back from its property name unless it holds the
end of a line, which is written as it is.
-/

namespace ContentSchema.Text

/-- The characters that end a line. Only the last two may stand between quotes as they are. -/
def lineEnds : List Char := ['\n', '\r', '\u2028', '\u2029']

def hexNumber? (digits : List Char) : Option Nat :=
  digits.foldlM (fun n c => (Json.Token.hexDigit? c).map (n * 16 + ·)) 0

/-- What a character stands for after a backslash where it begins no longer escape. -/
def unescaped : Char → Char
  | 'b' => '\x08'
  | 't' => '\t'
  | 'n' => '\n'
  | 'v' => '\x0b'
  | 'f' => '\x0c'
  | 'r' => '\r'
  | c => c

/-- The code units that an escape stands for, and the number of characters after its backslash. The
escaped end of a line stands for nothing. -/
def escapeUnits? : List Char → Option (List Nat × Nat)
  | [] => none
  | 'x' :: a :: b :: _ => (hexNumber? [a, b]).map fun n => ([n], 3)
  | 'u' :: '\x7b' :: rest =>
    let digits := rest.takeWhile (· ≠ '\x7d')
    if digits = [] ∨ digits = rest then none
    else ((hexNumber? digits).filter (· ≤ 0x10FFFF)).map fun n => ([n], digits.length + 3)
  | 'u' :: a :: b :: c :: d :: _ => (hexNumber? [a, b, c, d]).map fun n => ([n], 5)
  | '0' :: rest => if rest.head?.any Char.isDigit then none else some ([0], 1)
  | '\r' :: '\n' :: _ => some ([], 2)
  | c :: _ =>
    if c ∈ lineEnds then some ([], 1)
    else if c.isDigit ∨ c = 'x' ∨ c = 'u' then none
    else some ([(unescaped c).toNat], 1)

/-- The code units of a text between quotes, read after the first of them, and the text after it. A
character that is not escaped counts as one. -/
def literalUnits? (text : List Char) : Option (List Nat × List Char) :=
  match text with
  | [] => none
  | c :: rest =>
    if c = '"' then some ([], rest)
    else if c = '\n' ∨ c = '\r' then none
    else if c = '\\' then do
      let (units, length) ← escapeUnits? rest
      let (later, after) ← literalUnits? (rest.drop length)
      return (units ++ later, after)
    else do
      let (later, after) ← literalUnits? rest
      return (c.toNat :: later, after)
termination_by text.length
decreasing_by
  all_goals
    simp only [List.length_cons, List.length_drop]
    omega

/-- Whether a character may go on a bare name. Beyond ASCII, many do, and a backslash begins an
escape there, too. -/
def continuesName (c : Char) : Bool := continuesIdentifier c || c == '\\' || 128 ≤ c.toNat

/-- The key of the property name that a text begins with, and the text after it. Reserved words are
keys like all others, and of bare names, only those of ASCII characters are read. -/
def propertyKey? (text : List Char) : Option (String × List Char) :=
  match text with
  | '"' :: rest => do
    let (units, after) ← literalUnits? rest
    let key ← Json.Token.characters units
    return (String.ofList key, after)
  | text =>
    let name := text.takeWhile continuesName
    if name.head?.any startsIdentifier && name.all continuesIdentifier then
      some (String.ofList name, text.dropWhile continuesName)
    else none

/-- Escapes by code units, halves of a pair among them, and an escaped line end. -/
example : propertyKey? "\"\\x41\\u\x7b1F600\x7d\\ud83d\\ude00\\t\\\n\\q\": 1".toList =
    some ("A😀😀\tq", ": 1".toList) := by
  cbv

theorem literalUnits?_closed (rest : List Char) : literalUnits? ('"' :: rest) = some ([], rest) := by
  rw [literalUnits?, if_pos rfl]

theorem literalUnits?_plain {c : Char} (hq : c ≠ '"') (hb : c ≠ '\\') (hc : ¬ (c = '\n' ∨ c = '\r'))
    (rest : List Char) :
    literalUnits? (c :: rest) =
      (literalUnits? rest).map fun (later, after) => (c.toNat :: later, after) := by
  rw [literalUnits?, if_neg hq, if_neg hc, if_neg hb]
  cases literalUnits? rest <;> rfl

theorem literalUnits?_escaped {c : Char} (hc : c = '\\' ∨ c = '"') (rest : List Char) :
    literalUnits? ('\\' :: c :: rest) =
      (literalUnits? rest).map fun (later, after) => (c.toNat :: later, after) := by
  have hu : escapeUnits? (c :: rest) = some ([c.toNat], 1) := by
    rcases hc with rfl | rfl
    · rfl
    · rfl
  rw [literalUnits?, if_neg (by decide), if_neg (by decide), if_pos rfl, hu]
  cases h : literalUnits? rest <;> simp [h]

/-- How a character is written between quotes. -/
def quotedChar (c : Char) : List Char := if c = '\\' ∨ c = '"' then ['\\', c] else [c]

theorem toList_escapeQuotes (key : String) :
    (escapeQuotes key).toList = key.toList.flatMap quotedChar := String.toList_ofList

theorem literalUnits?_quotedChar {c : Char} (hc : ¬ (c = '\n' ∨ c = '\r')) (rest : List Char) :
    literalUnits? (quotedChar c ++ rest) =
      (literalUnits? rest).map fun (later, after) => (c.toNat :: later, after) := by
  unfold quotedChar
  split
  · next he => exact literalUnits?_escaped he rest
  · next he =>
    rw [not_or] at he
    exact literalUnits?_plain he.2 he.1 hc rest

theorem literalUnits?_lineEnd {c : Char} (hc : c = '\n' ∨ c = '\r') (rest : List Char) :
    literalUnits? (quotedChar c ++ rest) = none := by
  have hw : quotedChar c = [c] := by
    rcases hc with rfl | rfl
    · rfl
    · rfl
  have hq : c ≠ '"' := by
    rintro rfl
    exact absurd hc (by decide)
  rw [hw, List.singleton_append, literalUnits?, if_neg hq, if_pos hc]

/-- Between quotes, a text is read back character by character, up to the end of a line. -/
theorem literalUnits?_flatMap (cs rest : List Char) :
    literalUnits? (cs.flatMap quotedChar ++ '"' :: rest) =
      if '\n' ∈ cs ∨ '\r' ∈ cs then none else some (cs.map Char.toNat, rest) := by
  induction cs with
  | nil => exact literalUnits?_closed rest
  | cons c cs ih =>
    rw [List.flatMap_cons, List.append_assoc]
    by_cases hc : c = '\n' ∨ c = '\r'
    · rw [literalUnits?_lineEnd hc, if_pos]
      rcases hc with rfl | rfl
      · exact .inl List.mem_cons_self
      · exact .inr List.mem_cons_self
    · rw [literalUnits?_quotedChar hc, ih]
      rw [not_or] at hc
      simp only [List.mem_cons, Ne.symm hc.1, Ne.symm hc.2, false_or]
      split
      · rfl
      · rfl

theorem mem_quotedChar {c d : Char} (hb : c ≠ '\\') : c ∈ quotedChar d ↔ c = d := by
  unfold quotedChar
  split
  · simp [hb]
  · simp

theorem mem_escapeQuotes {c : Char} (hb : c ≠ '\\') (key : String) :
    c ∈ (escapeQuotes key).toList ↔ c ∈ key.toList := by
  rw [toList_escapeQuotes, List.mem_flatMap]
  simp only [mem_quotedChar hb, exists_eq_right']

theorem propertyName_of_not_isIdentifier {key : String} (h : ¬ isIdentifier key = true) :
    (propertyName key).toList = '"' :: ((escapeQuotes key).toList ++ ['"']) := by
  have hq : "\"".toList = ['"'] := rfl
  rw [propertyName, if_neg h, String.toList_append, String.toList_append, hq]
  rfl

theorem mem_propertyName_of_mem_lineEnds {c : Char} (hc : c ∈ lineEnds) (key : String) :
    c ∈ (propertyName key).toList ↔ c ∈ key.toList := by
  by_cases hi : isIdentifier key = true
  · rw [propertyName, if_pos hi]
  · have hb : c ≠ '\\' := by
      rintro rfl
      exact absurd hc (by decide)
    have hq : c ≠ '"' := by
      rintro rfl
      exact absurd hc (by decide)
    rw [propertyName_of_not_isIdentifier hi, List.mem_cons, List.mem_append, List.mem_singleton,
      mem_escapeQuotes hb]
    simp [hq]

/-- A bare name ends where nothing may go on. -/
theorem propertyKey?_bare {key : String} {rest : List Char} (h : Spelled key)
    (hr : rest.head?.any continuesName = false) :
    propertyKey? (key.toList ++ rest) = some (key, rest) := by
  have hq (later : List Char) : key.toList ++ rest ≠ '"' :: later := h.append_ne_quote rest later
  have hname : ∀ c ∈ key.toList, continuesName c = true := by
    intro c hc
    rw [continuesName, h.continues c hc, Bool.true_or, Bool.true_or]
  have hstop : rest.takeWhile continuesName = [] ∧ rest.dropWhile continuesName = rest := by
    cases rest with
    | nil => exact ⟨rfl, rfl⟩
    | cons c cs =>
      have hn : continuesName c = false := hr
      simp [hn]
  rw [propertyKey?.eq_2 _ hq, List.takeWhile_append_of_pos hname,
    List.dropWhile_append_of_pos hname, hstop.1, hstop.2, List.append_nil]
  simp only [h.starts, List.all_eq_true.2 h.continues, Bool.and_self, if_true, String.ofList_toList]

theorem propertyKey?_quoted (key : String) (rest : List Char) :
    propertyKey? ('"' :: ((escapeQuotes key).toList ++ '"' :: rest)) =
      if '\n' ∈ key.toList ∨ '\r' ∈ key.toList then none else some (key, rest) := by
  rw [propertyKey?, toList_escapeQuotes, literalUnits?_flatMap]
  split
  · rfl
  · simp [Json.Token.characters_toNat]

theorem lineEnd_not_mem {key : String} (h : Spelled key) :
    ¬ ('\n' ∈ key.toList ∨ '\r' ∈ key.toList) := by
  rw [not_or]
  exact ⟨h.not_mem (by decide), h.not_mem (by decide)⟩

/-- Wherever no name may go on after it, a property name is read back as the very key that it was
written for, and no further. If the key holds the end of a line that may not stand between quotes, it
is not read at all. The name has the line ends of the key and no others. -/
theorem keys_read_back (key : String) {rest : List Char}
    (hr : rest.head?.any continuesName = false) :
    (propertyKey? ((propertyName key).toList ++ rest) =
      if '\n' ∈ key.toList ∨ '\r' ∈ key.toList then none else some (key, rest)) ∧
    ∀ c ∈ lineEnds, c ∈ (propertyName key).toList ↔ c ∈ key.toList := by
  refine ⟨?_, fun c hc => mem_propertyName_of_mem_lineEnds hc key⟩
  by_cases hi : isIdentifier key = true
  · have hs := (isIdentifier_iff.1 hi).1
    rw [propertyName, if_pos hi, propertyKey?_bare hs hr, if_neg (lineEnd_not_mem hs)]
  · rw [propertyName_of_not_isIdentifier hi, List.cons_append, List.append_assoc]
    exact propertyKey?_quoted key rest

theorem keys_read_back_escaped :
    (": z.string(),".toList.head?.any continuesName = false) ∧
      propertyName "say \"é\"\\" = "\"say \\\"é\\\"\\\\\"" ∧
      propertyKey? ((propertyName "say \"é\"\\").toList ++ ": z.string(),".toList) =
        some ("say \"é\"\\", ": z.string(),".toList) := by
  have hr : ": z.string(),".toList.head?.any continuesName = false := by decide
  refine ⟨hr, by decide +kernel, ?_⟩
  rw [(keys_read_back "say \"é\"\\" hr).1]
  exact if_neg (by decide +kernel)

/-- The end of a line breaks off what is between quotes. -/
theorem line_ends_not_read_back :
    propertyName "a\nb" = "\"a\nb\"" ∧ propertyKey? (propertyName "a\nb").toList = none := by
  constructor
  · decide +kernel
  · rw [propertyName_of_not_isIdentifier (by decide), propertyKey?_quoted]
    exact if_pos (by decide)

end ContentSchema.Text
