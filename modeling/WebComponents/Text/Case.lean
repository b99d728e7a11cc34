import WebComponents.Text.CaseTable

/-!
# Capital and small letters

Full case mapping: a letter's other form may take several characters (`ß` becomes `SS`), and a
capital sigma becomes the final small sigma at the end of a word.  ASCII letters are mapped by
arithmetic and never reach the tables.
-/

namespace WebComponents.Text

/-- Whether one of the ranges holds the code point. -/
def inRanges (ranges : Array (Nat × Nat)) (code : Nat) : Bool :=
  ranges.any fun (first, last) => first ≤ code && code ≤ last

/-- The first image that one of the runs gives the code point, or the code point itself. -/
def mapByRuns (runs : Array CaseRun) (code : Nat) : Nat :=
  (runs.findSome? (·.image? code)).getD code

/-! ## Single characters -/

/-- The capital form of a character. -/
def upperChar (c : Char) : List Char :=
  if c.toNat < 0x80 then
    [c.toUpper]
  else
    match upperExpansions.find? (·.1 == c.toNat) with
    | some (_, codes) => codes.map Char.ofNat
    | none => [Char.ofNat (mapByRuns upperRuns c.toNat)]

/-- The small form of a character by itself. -/
def lowerChar (c : Char) : List Char :=
  if c.toNat < 0x80 then
    [c.toLower]
  else if c = 'İ' then
    ['i', '\u0307']
  else
    [Char.ofNat (mapByRuns lowerRuns c.toNat)]

/-- Letters that have case, and the signs that count as such. -/
def isCased (c : Char) : Bool :=
  inRanges casedRanges c.toNat

/-- Characters that case rules look through, such as apostrophes and combining marks. -/
def isCaseIgnorable (c : Char) : Bool :=
  inRanges caseIgnorableRanges c.toNat

/-! ## Texts -/

/-- Whether the first character that case rules do not look through is cased. -/
def beginsCased (s : List Char) : Bool :=
  ((s.dropWhile isCaseIgnorable).head?.map isCased).getD false

/-- The small form of a text whose preceding characters, nearest first, are `before`: a capital
sigma is final when a cased letter stands before it and none after it. -/
def lowerAfter (before : List Char) : List Char → List Char
  | [] => []
  | c :: rest =>
    let small :=
      if c = 'Σ' then
        if beginsCased before && !beginsCased rest then ['ς'] else ['σ']
      else
        lowerChar c
    small ++ lowerAfter (c :: before) rest

/-- The small form of a text. -/
def lower (s : List Char) : List Char :=
  lowerAfter [] s

/-- The text with its first character in capital form. -/
def capitalize : List Char → List Char
  | [] => []
  | c :: rest => upperChar c ++ rest

end WebComponents.Text
