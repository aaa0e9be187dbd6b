import ContentSchema.Text.LetterCase.Table

/-! # Letter case

Unicode lower case of a word, and the ASCII part of a character's upper case.
-/

namespace ContentSchema.Text

def lower (c : Char) : List Char :=
  if c = 'İ' then ['i', '\u0307']
  else match CaseRun.lowering.find? (·.covers c) with
    | some run => [Char.ofNat (c.toNat + run.shift).toNat]
    | none => [c]

/-- Whether the letter nearest to a capital sigma on this side belongs to the same word. -/
def meetsLetter (side : List Char) : Bool :=
  ((side.dropWhile CharClass.caseIgnorable.contains).head?.map CharClass.cased.contains).getD false

/-- Lower case of `rest`, which stands after the characters of `before` in reverse. -/
def lowercaseAfter (before : List Char) : List Char → List Char
  | [] => []
  | c :: rest =>
    (if c = 'Σ' then [if meetsLetter before && !meetsLetter rest then 'ς' else 'σ'] else lower c) ++
      lowercaseAfter (c :: before) rest

/-- Lower case of a word; a capital sigma at its end becomes the final form. -/
def lowercase (word : List Char) : List Char := lowercaseAfter [] word

/-- The ASCII characters of the upper-case form. -/
def capitals : Char → List Char
  | 'ı' => ['I']
  | 'ſ' => ['S']
  | 'ß' => ['S', 'S']
  | 'ŉ' => ['N']
  | 'ǰ' => ['J']
  | 'ẖ' => ['H']
  | 'ẗ' => ['T']
  | 'ẘ' => ['W']
  | 'ẙ' => ['Y']
  | 'ẚ' => ['A']
  | 'ﬀ' => ['F', 'F']
  | 'ﬁ' => ['F', 'I']
  | 'ﬂ' => ['F', 'L']
  | 'ﬃ' => ['F', 'F', 'I']
  | 'ﬄ' => ['F', 'F', 'L']
  | 'ﬅ' => ['S', 'T']
  | 'ﬆ' => ['S', 'T']
  | c => if c.toNat < 128 then [c.toUpper] else []

end ContentSchema.Text
