/-!
# The scalars of a JSON text

A scalar is read as it is spelled.  A string keeps its `\u` escapes as numbers, and a number keeps
its digits, because their meaning is only asked for when the scalar is used: a lone surrogate or a
number out of range is no fault in a part of a text that nobody looks at.

Reading never fails.  Where the text stops being JSON, the scalar carries the fault, and what
follows is not read.
-/

namespace WebComponents.Json

/-- Why a text stops being JSON at some place. -/
inductive Fault where
  /-- A character that cannot stand there. -/
  | malformed
  /-- The end of the text. -/
  | unfinished
  /-- The end of the text inside a number. -/
  | unfinishedNumber
  deriving DecidableEq, Repr

/-! ## Strings -/

/-- One element of a string: a character, or an escaped code unit of sixteen bits. -/
inductive Glyph where
  | char (c : Char)
  | unit (code : Nat)
  deriving DecidableEq, Repr

/-- A string as it is spelled, up to its closing quote or to the fault that ends it. -/
structure StringLiteral where
  glyphs : List Glyph
  fault? : Option Fault
  deriving DecidableEq, Repr

/-- The literal with one more element in front. -/
def StringLiteral.cons (glyph : Glyph) (literal : StringLiteral) : StringLiteral :=
  { literal with glyphs := glyph :: literal.glyphs }

/-- A literal that is over because of a fault. -/
def StringLiteral.stopped (fault : Fault) : StringLiteral :=
  ⟨[], some fault⟩

/-- The value of a hexadecimal digit. -/
def hexValue? (c : Char) : Option Nat :=
  if c.isDigit then some (c.toNat - '0'.toNat)
  else if 'a' ≤ c ∧ c ≤ 'f' then some (c.toNat - 'a'.toNat + 10)
  else if 'A' ≤ c ∧ c ≤ 'F' then some (c.toNat - 'A'.toNat + 10)
  else none

/-- The number that hexadecimal digits spell. -/
def hexNumber? (digits : List Char) : Option Nat :=
  digits.foldl (fun value? c => do return (← value?) * 16 + (← hexValue? c)) (some 0)

/-- The character that a one-letter escape stands for. -/
def escaped? : Char → Option Char
  | '"' => some '"'
  | '\\' => some '\\'
  | '/' => some '/'
  | 'b' => some '\x08'
  | 'f' => some '\x0C'
  | 'n' => some '\n'
  | 'r' => some '\r'
  | 't' => some '\t'
  | _ => none

/-- The fault of a text too short for four digits: it is cut off when fewer than four bytes are
left. -/
def shortEscapeFault (s : List Char) : Fault :=
  if (String.ofList s).utf8ByteSize < 4 then .unfinished else .malformed

/-- The string whose opening quote has been read, and the text after it. -/
def scanString : List Char → StringLiteral × List Char
  | [] => (.stopped .unfinished, [])
  | '"' :: rest => (⟨[], none⟩, rest)
  | '\\' :: [] => (.stopped .unfinished, [])
  | '\\' :: 'u' :: a :: b :: c :: d :: rest =>
    match hexNumber? [a, b, c, d] with
    | some code =>
      let (literal, after) := scanString rest
      (literal.cons (.unit code), after)
    | none => (.stopped .malformed, rest)
  | '\\' :: 'u' :: rest => (.stopped (shortEscapeFault rest), [])
  | '\\' :: e :: rest =>
    match escaped? e with
    | some c =>
      let (literal, after) := scanString rest
      (literal.cons (.char c), after)
    | none => (.stopped .malformed, rest)
  | c :: rest =>
    if c < ' ' then
      (.stopped .malformed, rest)
    else
      let (literal, after) := scanString rest
      (literal.cons (.char c), after)

theorem scanString_length (s : List Char) : (scanString s).2.length ≤ s.length := by
  fun_induction scanString s <;> simp_all <;> omega

/-- The first halves of a pair of code units. -/
def isLeadUnit (code : Nat) : Bool :=
  0xD800 ≤ code && code ≤ 0xDBFF

/-- The second halves of a pair of code units. -/
def isTrailUnit (code : Nat) : Bool :=
  0xDC00 ≤ code && code ≤ 0xDFFF

/-- The character that a pair of code units stands for. -/
def pairChar (lead trail : Nat) : Char :=
  Char.ofNat (0x10000 + (lead - 0xD800) * 0x400 + (trail - 0xDC00))

/-- The characters that the elements stand for; a half of a pair by itself is a fault.  `final?` is
the fault after the last element. -/
def glyphChars (final? : Option Fault) : List Glyph → Except Fault (List Char)
  | [] =>
    match final? with
    | none => .ok []
    | some fault => .error fault
  | .char c :: rest => return c :: (← glyphChars final? rest)
  | .unit code :: rest =>
    if isTrailUnit code then
      .error .malformed
    else if isLeadUnit code then
      -- the second half has to follow at once
      match rest with
      | .unit trail :: rest =>
        if isTrailUnit trail then
          return pairChar code trail :: (← glyphChars final? rest)
        else
          .error .malformed
      | .char _ :: _ => .error .malformed
      | [] => .error (final?.getD .malformed)
    else
      return Char.ofNat code :: (← glyphChars final? rest)

/-- The text of a string. -/
def StringLiteral.text (literal : StringLiteral) : Except Fault String :=
  return String.ofList (← glyphChars literal.fault? literal.glyphs)

/-! ## Numbers -/

/-- A number as it is spelled. -/
structure Numeral where
  negative : Bool
  whole : List Char
  /-- The digits after the point, if there is one. -/
  fraction? : Option (List Char)
  /-- The sign (`true` for minus) and the digits of the power of ten, if there is one. -/
  exponent? : Option (Bool × List Char)
  deriving DecidableEq, Repr

/-! ## Scalars -/

/-- A JSON value without parts, or the place where one was due and the text stops being JSON. -/
inductive Scalar where
  | null
  | boolean (value : Bool)
  | number (numeral : Numeral)
  | string (literal : StringLiteral)
  | broken (fault : Fault)
  deriving DecidableEq, Repr

/-- Whether the text after the scalar is readable at all. -/
def Scalar.isWhole : Scalar → Bool
  | .broken _ => false
  | .string literal => literal.fault?.isNone
  | _ => true

/-- The fault of a number that lacks a digit before `rest`. -/
def missingDigit (rest : List Char) : Scalar × List Char :=
  (.broken (if rest.isEmpty then .unfinishedNumber else .malformed), rest)

/-- The sign of a power of ten (`true` for minus) and the text after it. -/
def powerSign : List Char → Bool × List Char
  | '+' :: rest => (false, rest)
  | '-' :: rest => (true, rest)
  | rest => (false, rest)

/-- The number with a power of ten whose digits begin the text. -/
def scanPower (numeral : Numeral) (negative : Bool) (s : List Char) : Scalar × List Char :=
  match s.takeWhile Char.isDigit with
  | [] => missingDigit s
  | digits =>
    (.number { numeral with exponent? := some (negative, digits) }, s.dropWhile Char.isDigit)

/-- The number with its power of ten, if the text goes on with one. -/
def scanExponent (numeral : Numeral) : List Char → Scalar × List Char
  | [] => (.number numeral, [])
  | c :: rest =>
    if c = 'e' ∨ c = 'E' then
      scanPower numeral (powerSign rest).1 (powerSign rest).2
    else
      (.number numeral, c :: rest)

/-- The fraction of a number, if the text goes on with one, and what follows it. -/
def scanFraction (numeral : Numeral) : List Char → Scalar × List Char
  | '.' :: rest =>
    match rest.takeWhile Char.isDigit with
    | [] => missingDigit rest
    | fraction =>
      scanExponent { numeral with fraction? := some fraction } (rest.dropWhile Char.isDigit)
  | rest => scanExponent numeral rest

/-- The number with the digits `whole` before any point, and the text after it. -/
def scanNumber (negative : Bool) (whole rest : List Char) : Scalar × List Char :=
  match whole with
  | [] => missingDigit rest
  | '0' :: _ :: _ => (.broken .malformed, rest)
  | whole => scanFraction ⟨negative, whole, none, none⟩ rest

/-- The scalar with the given spelling, if the text goes on with that. -/
def scanWord (value : Scalar) : List Char → List Char → Scalar × List Char
  | [], rest => (value, rest)
  | _ :: _, [] => (.broken .unfinished, [])
  | w :: word, c :: rest =>
    if w = c then scanWord value word rest else (.broken .malformed, rest)

/-- The scalar that begins with the character `c`, and the text after it. -/
def scanScalar (c : Char) (rest : List Char) : Scalar × List Char :=
  if c = '"' then
    let (literal, after) := scanString rest
    (.string literal, after)
  else if c = 'n' then scanWord .null ['u', 'l', 'l'] rest
  else if c = 't' then scanWord (.boolean true) ['r', 'u', 'e'] rest
  else if c = 'f' then scanWord (.boolean false) ['a', 'l', 's', 'e'] rest
  else if c = '-' then
    scanNumber true (rest.takeWhile Char.isDigit) (rest.dropWhile Char.isDigit)
  else if c.isDigit then
    scanNumber false (c :: rest.takeWhile Char.isDigit) (rest.dropWhile Char.isDigit)
  else (.broken .malformed, rest)

/-! ## A scan never lengthens the text -/

private theorem length_dropWhile_le (keeps : Char → Bool) (s : List Char) :
    (s.dropWhile keeps).length ≤ s.length :=
  (List.dropWhile_suffix keeps).length_le

private theorem powerSign_length (s : List Char) : (powerSign s).2.length ≤ s.length := by
  unfold powerSign
  split <;> simp

private theorem scanPower_length (numeral : Numeral) (negative : Bool) (s : List Char) :
    (scanPower numeral negative s).2.length ≤ s.length := by
  unfold scanPower
  split
  · simp [missingDigit]
  · exact length_dropWhile_le _ s

private theorem scanExponent_length (numeral : Numeral) (s : List Char) :
    (scanExponent numeral s).2.length ≤ s.length := by
  fun_cases scanExponent numeral s with
  | case1 => simp
  | case2 c rest _ =>
      have hpower := scanPower_length numeral (powerSign rest).1 (powerSign rest).2
      have hsign := powerSign_length rest
      simp only [List.length_cons]
      omega
  | case3 c rest _ => simp

private theorem scanFraction_length (numeral : Numeral) (s : List Char) :
    (scanFraction numeral s).2.length ≤ s.length := by
  fun_cases scanFraction numeral s with
  | case1 rest _ => simp [missingDigit]
  | case2 rest _ =>
      have hdrop := length_dropWhile_le Char.isDigit rest
      refine Nat.le_trans (scanExponent_length _ _) ?_
      simp only [List.length_cons]
      omega
  | case3 => exact scanExponent_length numeral s

private theorem scanNumber_length (negative : Bool) (whole rest : List Char) :
    (scanNumber negative whole rest).2.length ≤ rest.length := by
  unfold scanNumber
  split
  · simp [missingDigit]
  · simp
  · exact scanFraction_length _ rest

private theorem scanWord_length (value : Scalar) (word s : List Char) :
    (scanWord value word s).2.length ≤ s.length := by
  induction word generalizing s with
  | nil => simp [scanWord]
  | cons w word ih =>
      cases s with
      | nil => simp [scanWord]
      | cons c rest =>
          unfold scanWord
          split
          · have hrest := ih rest
            simp only [List.length_cons]
            omega
          · simp

/-- What is left after a scalar is no longer than what followed its first character. -/
theorem scanScalar_length (c : Char) (rest : List Char) :
    (scanScalar c rest).2.length ≤ rest.length := by
  have hdrop := length_dropWhile_le Char.isDigit rest
  unfold scanScalar
  split
  · exact scanString_length rest
  split
  · exact scanWord_length _ _ rest
  split
  · exact scanWord_length _ _ rest
  split
  · exact scanWord_length _ _ rest
  split
  · exact Nat.le_trans (scanNumber_length _ _ _) hdrop
  split
  · exact Nat.le_trans (scanNumber_length _ _ _) hdrop
  · simp

end WebComponents.Json
