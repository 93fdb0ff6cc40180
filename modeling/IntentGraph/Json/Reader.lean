import IntentGraph.Wire.Source

/-!
# Reading JSON text

`Json.read` turns a text into its source tree. Reading never fails: where the
text stops being JSON the tree holds a fault, and what was read before it stays,
since a decoder that refuses an earlier part must report that part.

* Numbers keep up to 64 bits of an integer; all others become double-precision
  numbers by the two-step rule of `Binary64.scale`.
* Lists and objects nest at most `nestingLimit` deep; deeper parts are well
  formed without value.
-/

namespace IntentGraph.Json

/-- The blanks between the tokens of a JSON text. -/
def isGap (c : Char) : Bool := c = ' ' || c = '\n' || c = '\t' || c = '\r'

/-- The text after the blanks at its start. -/
def skipGaps (cs : List Char) : List Char := cs.dropWhile isGap

/-- A part that was read, and the text after it unless reading had to stop. -/
structure Progress where
  tree : Source
  rest : Option (List Char)

/-- Reading had to stop. -/
def stopAt (fault : Fault) : Progress := ⟨.broken fault, none⟩

/-! ## Literals -/

/-- Reads what is left of a literal. -/
def readLiteral (value : Source) : List Char → List Char → Progress
  | [], cs => ⟨value, some cs⟩
  | _ :: _, [] => stopAt .endInValue
  | w :: wanted, c :: cs =>
    if c = w then readLiteral value wanted cs else stopAt .expectedIdentifier

/-! ## Numbers -/

/-- The largest integer that is kept as one. -/
def greatestInteger : Nat := Nat.pow 2 64 - 1

/-- The least integer that is kept as one. -/
def leastInteger : Int := -(Nat.pow 2 63 : Int)

/-- The largest exponent that a literal may spell out. -/
def greatestExponent : Nat := Nat.pow 2 31 - 1

/-- The value of a digit. -/
def digitValue (c : Char) : Nat := c.toNat - '0'.toNat

/-- Digits collected while they fit into an integer, the number of them, and the
text after. -/
def takeDigits (significand count : Nat) : List Char → Nat × Nat × List Char
  | [] => (significand, count, [])
  | c :: cs =>
    if c.isDigit && significand * 10 + digitValue c ≤ greatestInteger then
      takeDigits (significand * 10 + digitValue c) (count + 1) cs
    else (significand, count, c :: cs)

/-- The double-precision number that a literal stands for, or the fault of being
too large. -/
def floatTree (negative : Bool) (significand : Nat) (power : Int) : Source :=
  match ((Binary64.ofNat significand).bind (·.scale power)) with
  | some x => .number (.double (x.withSign negative))
  | none => .unusable .numberOutOfRange .null

/-- The integer that a literal stands for. The negative zero and the integers
out of range become double-precision numbers. -/
def integerTree (negative : Bool) (significand : Nat) : Source :=
  if !negative then .number (.integer significand)
  else if significand ≠ 0 ∧ leastInteger ≤ -(significand : Int) then
    .number (.integer (-(significand : Int)))
  else floatTree true significand 0

/-- A number that ends too early. A reader that skips it does not tell the two
reasons apart. -/
def numberEnd : List Char → Progress
  | [] => ⟨.unusable .endInValue (.broken .invalidNumber), none⟩
  | _ :: _ => stopAt .invalidNumber

/-- The limit of exponents, which depends on the power that the digits already
have. -/
def saturate (power : Int) : Int :=
  max (-(Nat.pow 2 31 : Int)) (min power ((Nat.pow 2 31 : Int) - 1))

/-- Reads an exponent, from after its mark. -/
def readExponent (negative : Bool) (significand : Nat) (power : Int)
    (cs : List Char) : Progress :=
  let (down, digits) := match cs with
    | '+' :: rest => (false, rest)
    | '-' :: rest => (true, rest)
    | _ => (false, cs)
  match digits.takeWhile Char.isDigit with
  | [] => numberEnd digits
  | exponent =>
    let rest := digits.dropWhile Char.isDigit
    let value := exponent.foldl (fun n c => n * 10 + digitValue c) 0
    if value ≤ greatestExponent then
      let total := saturate (if down then power - value else power + value)
      ⟨floatTree negative significand total, some rest⟩
    -- no number is this large, and no nonzero one this small
    else if significand ≠ 0 && !down then
      ⟨.unusable .numberOutOfRange .null, some rest⟩
    else ⟨.number (.double (.zero negative)), some rest⟩

/-- Reads the exponent of a number if one follows. -/
def readScale (negative : Bool) (significand : Nat) (power : Int) :
    List Char → Progress
  | 'e' :: rest | 'E' :: rest => readExponent negative significand power rest
  | rest => ⟨floatTree negative significand power, some rest⟩

/-- Reads a fraction, from after its point. Digits beyond the precision of an
integer are dropped. -/
def readFraction (negative : Bool) (significand : Nat) (power : Int)
    (cs : List Char) : Progress :=
  match cs with
  | c :: _ =>
    if c.isDigit then
      let (significand, count, rest) := takeDigits significand 0 cs
      readScale negative significand (power - count)
      (rest.dropWhile Char.isDigit)
    else numberEnd cs
  | [] => numberEnd cs

/-- Reads what follows the digits before the point. `dropped` of them did not
fit. -/
def readAfterInteger (negative : Bool) (significand dropped : Nat) :
    List Char → Progress
  | '.' :: rest => readFraction negative significand dropped rest
  | 'e' :: rest | 'E' :: rest => readExponent negative significand dropped rest
  | rest =>
    if dropped = 0 then ⟨integerTree negative significand, some rest⟩
    else ⟨floatTree negative significand dropped, some rest⟩

/-- Reads a number, from after its sign. -/
def readNumber (negative : Bool) (cs : List Char) : Progress :=
  match cs with
  | [] => numberEnd cs
  | '0' :: rest =>
    if (rest.head?.map Char.isDigit).getD false then stopAt .invalidNumber
    else readAfterInteger negative 0 0 rest
  | c :: _ =>
    if c.isDigit then
      let (significand, _, rest) := takeDigits 0 0 cs
      let dropped := rest.takeWhile Char.isDigit
      readAfterInteger negative significand dropped.length
      (rest.drop dropped.length)
    else stopAt .invalidNumber

/-! ## Strings -/

/-- A piece of a string: a character as it stands or by a short escape, or an
escaped code unit. -/
inductive Piece where
  | char (c : Char)
  | codeUnit (n : Nat)

/-- The value of a hexadecimal digit. -/
def hexValue? (c : Char) : Option Nat :=
  if c.isDigit then some (c.toNat - '0'.toNat)
  else if 'a' ≤ c ∧ c ≤ 'f' then some (c.toNat - 'a'.toNat + 10)
  else if 'A' ≤ c ∧ c ≤ 'F' then some (c.toNat - 'A'.toNat + 10)
  else none

/-- The code unit that four digits stand for. -/
def codeUnit? (a b c d : Char) : Option Nat := do
  return (((← hexValue? a) * 16 + (← hexValue? b)) * 16 + (← hexValue? c)) * 16
    + (← hexValue? d)

/-- The character of a one-letter escape. -/
def shortEscape? (c : Char) : Option Char :=
  if c = '"' ∨ c = '\\' ∨ c = '/' then some c
  else if c = 'b' then some '\u0008'
  else if c = 'f' then some '\u000c'
  else if c = 'n' then some '\n'
  else if c = 'r' then some '\r'
  else if c = 't' then some '\t'
  else none

/-- Puts a piece in front of what follows it. -/
def Piece.before (piece : Piece)
    (later : List Piece × Except Fault (List Char)) :
    List Piece × Except Fault (List Char) := (piece :: later.1, later.2)

/-- The pieces of a string, from after its opening quote, and the text after its
closing quote or the fault at which reading stopped. An escape with fewer than
four bytes left ends too early. -/
def scanString : List Char → List Piece × Except Fault (List Char)
  | [] => ([], .error .endInString)
  | c :: rest =>
    if c = '"' then ([], .ok rest)
    else if c = '\\' then
      match rest with
      | [] => ([], .error .endInString)
      | 'u' :: w :: x :: y :: z :: after =>
        match codeUnit? w x y z with
        | some n => (Piece.codeUnit n).before (scanString after)
        | none => ([], .error .invalidEscape)
      | e :: after =>
        -- four digits are taken at once, before any of them is looked at
        if e = 'u' then
          ([], .error (if (after.map Char.utf8Size).sum < 4 then .endInString
            else .invalidEscape))
        else match shortEscape? e with
          | some d => (Piece.char d).before (scanString after)
          | none => ([], .error .invalidEscape)
    else if c.toNat < 0x20 then ([], .error .controlCharacter)
    else (Piece.char c).before (scanString rest)

/-- The characters that the pieces of a string stand for: two code units of a
surrogate pair make one, and half a pair makes none. At the end of a string that
was not `closed` the other half may be missing. -/
def joinPieces (closed : Bool) : List Piece → Except Fault (List Char)
  | [] => .ok []
  | .char c :: rest => (joinPieces closed rest).map (c :: ·)
  | .codeUnit n :: rest =>
    if n < 0xD800 ∨ 0xDFFF < n then
      (joinPieces closed rest).map (Char.ofNat n :: ·)
    else if 0xDC00 ≤ n then .error .loneSurrogate
    else match rest with
      -- a first half wants the second half right behind it
      | .codeUnit m :: after =>
        if 0xDC00 ≤ m ∧ m ≤ 0xDFFF then
          (joinPieces closed after).map
            (Char.ofNat ((n - 0xD800) * 0x400 + (m - 0xDC00) + 0x10000) :: ·)
        else .error .loneSurrogate
      | .char _ :: _ => .error .endOfHexEscape
      | [] => if closed then .error .endOfHexEscape else .ok []

/-- The text of a string, or why it has none. -/
def stringText (closed : Bool) (pieces : List Piece) : Except Fault String :=
  (joinPieces closed pieces).map String.ofList

/-- The part that a closed string is. -/
def stringTree (pieces : List Piece) : Source :=
  match stringText true pieces with
  | .ok text => .string text
  | .error fault => .unusable fault .null

/-- Reads a string, from after its opening quote. -/
def readString (cs : List Char) : Progress :=
  match scanString cs with
  | (pieces, .ok rest) => ⟨stringTree pieces, some rest⟩
  | (pieces, .error fault) =>
    match stringText false pieces with
    | .ok _ => stopAt fault
    -- half a pair comes first in the text, but a reader that skips the string
    -- does not see it
    | .error earlier => ⟨.unusable earlier (.broken fault), none⟩

/-! ## Values -/

/-- How deep lists and objects may nest. -/
def nestingLimit : Nat := 127

/-- A list or object that is entered with no depth left is well formed without
value. -/
def limited (depth : Nat) (tree : Source) : Source :=
  if depth = 0 then .unusable .tooDeep tree else tree

/-- The items of a list and the fault at which it was not closed; the text after
it unless reading had to stop. -/
abbrev ListProgress := List Source × Option Fault × Option (List Char)

/-- The entries of an object and the fault at which it was not closed; the text
after it unless reading had to stop. -/
abbrev ObjectProgress :=
  List (Source × Source) × Option Fault × Option (List Char)

mutual

/-- Reads a value with at most `fuel` steps of nesting and sequence, at a depth
that is left. -/
def readValue : (fuel depth : Nat) → List Char → Progress
  | 0, _, _ => stopAt .endInValue
  | fuel + 1, depth, cs =>
    match skipGaps cs with
    | [] => stopAt .endInValue
    | c :: rest =>
      if c = 'n' then readLiteral .null ['u', 'l', 'l'] rest
      else if c = 't' then readLiteral (.bool true) ['r', 'u', 'e'] rest
      else if c = 'f' then readLiteral (.bool false) ['a', 'l', 's', 'e'] rest
      else if c = '-' then readNumber true rest
      else if c.isDigit then readNumber false (c :: rest)
      else if c = '"' then readString rest
      else if c = '[' then
        let (items, stop, rest) := readItems fuel (depth - 1) true rest
        ⟨limited depth (.list items stop), rest⟩
      else if c = '\x7b' then
        let (fields, stop, rest) := readFields fuel (depth - 1) true rest
        ⟨limited depth (.record fields stop), rest⟩
      else stopAt .expectedValue

/-- Reads the items of a list, from after its bracket when `first` or else from
after an item. -/
def readItems : (fuel depth : Nat) → (first : Bool) → List Char → ListProgress
  | 0, _, _, _ => ([], some .endInList, none)
  | fuel + 1, depth, first, cs =>
    match skipGaps cs with
    | [] => ([], some .endInList, none)
    | c :: rest =>
      if c = ']' then ([], none, some rest)
      else if first then readItem fuel depth (c :: rest)
      else if c = ',' then
        match skipGaps rest with
        -- an item was promised, so the fault stands where the item would
        | ']' :: _ => ([.broken .trailingComma], none, none)
        | after => readItem fuel depth after
      else ([], some .expectedListCommaOrEnd, none)

/-- Reads one item of a list and the items after it. -/
def readItem : (fuel depth : Nat) → List Char → ListProgress
  | 0, _, _ => ([.broken .endInValue], none, none)
  | fuel + 1, depth, cs =>
    match readValue fuel depth cs with
    | ⟨item, none⟩ => ([item], none, none)
    | ⟨item, some rest⟩ =>
      let (items, stop, rest) := readItems fuel depth false rest
      (item :: items, stop, rest)

/-- Reads the entries of an object, from after its brace when `first` or else
from after an entry. -/
def readFields : (fuel depth : Nat) → (first : Bool) → List Char →
    ObjectProgress
  | 0, _, _, _ => ([], some .endInObject, none)
  | fuel + 1, depth, first, cs =>
    match skipGaps cs with
    | [] => ([], some .endInObject, none)
    | c :: rest =>
      if c = '\x7d' then ([], none, some rest)
      else if first then
        if c = '"' then readField fuel depth rest
          else ([], some .keyMustBeString, none)
      else if c = ',' then
        match skipGaps rest with
        | [] => ([], some .endInValue, none)
        | d :: after =>
          if d = '"' then readField fuel depth after
          else if d = '\x7d' then ([], some .trailingComma, none)
          else ([], some .keyMustBeString, none)
      else ([], some .expectedObjectCommaOrEnd, none)

/-- Reads one entry of an object, from after the quote that opens its key, and
the entries after it. -/
def readField : (fuel depth : Nat) → List Char → ObjectProgress
  | 0, _, _ => ([], some .endInObject, none)
  | fuel + 1, depth, cs =>
    match scanString cs with
    | (pieces, .error fault) =>
      match stringText false pieces with
      | .ok _ => ([], some fault, none)
      | .error earlier =>
        ([(.unusable earlier .null, .broken fault)], none, none)
    | (pieces, .ok rest) =>
      let key := stringTree pieces
      match skipGaps rest with
      | [] => ([(key, .broken .endInObject)], none, none)
      | c :: after =>
        if c = ':' then
          match readValue fuel depth after with
          | ⟨value, none⟩ => ([(key, value)], none, none)
          | ⟨value, some rest⟩ =>
            let (fields, stop, rest) := readFields fuel depth false rest
            ((key, value) :: fields, stop, rest)
        else ([(key, .broken .expectedColon)], none, none)

end

/-- A text that was read: its tree, and the fault of going on after the value,
if it does. -/
structure Reading where
  tree : Source
  trailing : Option Fault

/-- Reads a text whose lists and objects may nest as deep as given. -/
def readNested (depth : Nat) (text : String) : Reading :=
  let cs := text.toList
  match readValue (3 * cs.length + 3) depth cs with
  | ⟨tree, none⟩ => ⟨tree, none⟩
  | ⟨tree, some rest⟩ =>
    ⟨tree, if (skipGaps rest).isEmpty then none else some .trailingCharacters⟩

/-- Reads a text. -/
def read (text : String) : Reading := readNested nestingLimit text

end IntentGraph.Json
