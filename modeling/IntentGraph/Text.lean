import IntentGraph.Text.CaseTable

/-!
# Text

What the readers and the passes ask of a text: which of its characters are
blank, where it occurs in another, its lower-case form, and the canonical
spelling of an id. Texts are lists of characters here.
-/

namespace IntentGraph.Text

/-!
## Blank characters

The characters that trimming removes and that separate words in an identifier:
exactly the code points with the Unicode property `White_Space`. Zero-width
signs and the byte order mark are not among them.
-/

/-- A character is blank when it has the property `White_Space`. -/
def isBlank (c : Char) : Bool :=
  (0x09 ≤ c.toNat && c.toNat ≤ 0x0D) || c.toNat == 0x20 || c.toNat == 0x85
    || c.toNat == 0xA0 || c.toNat == 0x1680
    || (0x2000 ≤ c.toNat && c.toNat ≤ 0x200A)
    || c.toNat == 0x2028 || c.toNat == 0x2029 || c.toNat == 0x202F
    || c.toNat == 0x205F || c.toNat == 0x3000

/-- The text without the blanks at its end. -/
def trimEnd (cs : List Char) : List Char :=
  (cs.reverse.dropWhile isBlank).reverse

/-- The text without the blanks at either end. -/
def trim (cs : List Char) : List Char := trimEnd (cs.dropWhile isBlank)

/-- Whether nothing is left of a text once it is trimmed. -/
def isBlankText (s : String) : Bool := s.toList.all isBlank

/-! ## Parts of a text -/

/-- Whether a text occurs somewhere inside another. -/
def occursIn (needle : List Char) : List Char → Bool
  | [] => needle.isEmpty
  | c :: rest => needle.isPrefixOf (c :: rest) || occursIn needle rest

/-- A text cut at the last occurrence of a separator: all before it, if it
occurs, and all after. -/
def splitLast (separator : Char) (cs : List Char) :
    Option (List Char) × List Char :=
  let last := (cs.reverse.takeWhile (· ≠ separator)).reverse
  match cs.reverse.dropWhile (· ≠ separator) with
  | [] => (none, last)
  | _ :: before => (some before.reverse, last)

/-!
## Lower case

Full lower-casing of a text. Every character maps on its own, with two
exceptions:

* the dotted capital I becomes two characters, `i` and a combining dot;
* a capital sigma at the end of a word becomes the final form. The word ends
  there when a cased letter stands before the sigma and none stands after it,
  marks and signs between them being looked through.
-/

/-- Whether a code point lies in one of the inclusive ranges. -/
def inRanges (ranges : List (Nat × Nat)) (n : Nat) : Bool :=
  ranges.any fun (first, last) => first ≤ n && n ≤ last

/-- Whether a character is a letter with case. -/
def isCased (c : Char) : Bool := inRanges casedRanges c.toNat

/-- Whether a character is looked through when a cased neighbour is sought. -/
def isCaseIgnorable (c : Char) : Bool := inRanges caseIgnorableRanges c.toNat

/-- The shift of the run that a code point belongs to, if any. -/
def lowercaseShift? (n : Nat) : Option Int :=
  (lowercaseRuns.find? fun run =>
    run.first ≤ n && n ≤ run.last
      && (n - run.first) % run.step == 0).map (·.shift)

/-- The lower-case form of one character, apart from its neighbours. -/
def lowerChar (c : Char) : List Char :=
  if c.toNat < 0x80 then [c.toLower]
  else if c.toNat == 0x130 then ['i', '\u0307']
  else match lowercaseShift? c.toNat with
    | some shift => [Char.ofNat (c.toNat + shift).toNat]
    | none => [c]

/-- Whether the first character that is not looked through is a cased letter. -/
def meetsCased (cs : List Char) : Bool :=
  match cs.dropWhile isCaseIgnorable with
  | [] => false
  | c :: _ => isCased c

/-- Lower-cases a text, given the characters before it in reverse order. -/
def lowerAfter (before : List Char) : List Char → List Char
  | [] => []
  | c :: rest =>
    -- `before` runs backwards, so both searches start next to the sigma
    (if c = 'Σ' then
      [if meetsCased before && !meetsCased rest then 'ς' else 'σ']
     else lowerChar c) ++ lowerAfter (c :: before) rest

/-- The lower-case form of a text. -/
def lowercase (cs : List Char) : List Char := lowerAfter [] cs

end IntentGraph.Text

namespace IntentGraph

/-!
## Identifiers

The canonical spelling of an action id: lower case, trimmed, with an underscore
for every blank and hyphen inside, and nothing but the letters `a` to `z`,
digits and underscores.
-/

/-- The characters of a canonical id. -/
def isIdChar (c : Char) : Bool := ('a' ≤ c && c ≤ 'z') || c.isDigit || c = '_'

/-- What becomes of one character of a lower-cased id. -/
def canonicalChar? (c : Char) : Option Char :=
  if Text.isBlank c || c = '-' then some '_'
  else if isIdChar c then some c
  else none

/-- The canonical spelling of an id. -/
def canonicalId (raw : String) : String :=
  String.ofList
    ((Text.lowercase (Text.trim raw.toList)).filterMap canonicalChar?)

end IntentGraph
