import IntentGraph.Number.Shortest
import IntentGraph.Wire.PlainScalar
import IntentGraph.Yaml.Token

/-!
# YAML text

The written form of a value as YAML, in block style. Mappings are indented by
two spaces below their key, lists stand right under their key, and empty
collections are written in brackets. A key that takes up more than one line or
more than `longestPlainKey` bytes is marked as one, and its value stands behind
a mark of its own.

A text with a line feed is a literal block, and any other is written plain where
that is safe. What would be read as something else, or starts or holds what a
plain scalar must not, stands between single quotes, and what neither form can
hold between double quotes.
-/

namespace IntentGraph.Yaml

/-- The written form of floating numbers in YAML: a positive exponent has no
sign. -/
def floatStyle : FloatStyle := ⟨""⟩

/-- The most bytes of a key that is written without a mark. -/
def longestPlainKey : Nat := 128

/-! ## Layout -/

/-- The spaces that a line is indented by. -/
def margin (indent : Nat) : List Char := List.replicate indent ' '

/-- Whether the last line of a text is over. -/
def isEnded (cs : List Char) : Bool := (cs.getLast?.map isBreak).getD true

/-- The text with its last line ended. -/
def endLine (cs : List Char) : List Char :=
  if isEnded cs then cs else cs ++ ['\n']

/-- Texts below each other, all but the first indented. -/
def stack (indent : Nat) : List (List Char) → List Char
  | [] => []
  | [text] => text
  | text :: rest => endLine text ++ margin indent ++ stack indent rest

/-- A text that is indented after each of its breaks; `atStart` when it starts
after one. A line that holds nothing is not indented. -/
def indented (indent : Nat) (atStart : Bool) : List Char → List Char
  | [] => []
  | c :: rest =>
    if isBreak c then c :: indented indent true rest
    else (if atStart then margin indent else [])
      ++ c :: indented indent false rest

/-! ## Style -/

/-- How a text is written. -/
inductive ScalarStyle where
  | plain
  | single
  | double
  | literal
  deriving DecidableEq

/-- Whether a plain scalar cannot start here. -/
def opensIndicator : List Char → Bool
  | [] => false
  | c :: rest => isIndicator c || (isLeadingMark c && gapIsNext rest)

/-- Whether a plain scalar would end within some characters that are not its
first. -/
def holdsIndicator : (afterGap : Bool) → List Char → Bool
  | _, [] => false
  | afterGap, c :: rest =>
    (c = ':' && gapIsNext rest) || (c = '#' && afterGap)
      || holdsIndicator (gapIsNext [c]) rest

/-- Whether a text starts or holds what a plain scalar must not. -/
def holdsMark (cs : List Char) : Bool :=
  ['-', '-', '-'].isPrefixOf cs || ['.', '.', '.'].isPrefixOf cs
    || opensIndicator cs
    || holdsIndicator (gapIsNext (cs.take 1)) (cs.drop 1)

/-- Whether a character of one kind stands right before one of another. -/
def holdsPair (first second : Char → Bool) (cs : List Char) : Bool :=
  (cs.zip (cs.drop 1)).any fun (a, b) => first a && second b

/-- Whether a text has to stand between double quotes: what is not printable
needs an escape, and a space before a break would be lost. -/
def needsEscapes (cs : List Char) : Bool :=
  !cs.all isPrintable || holdsPair (· = ' ') isBreak cs

/-- Whether a text without quotes would be read as another kind of value, or
looks like a number with zeros in front. -/
def isAmbiguous (s : String) : Bool :=
  PlainScalar.spelling s ≠ .text
    || PlainScalar.isPadded (PlainScalar.splitSign s.toList).2

/-- How a text is written. -/
def styleOf (s : String) : ScalarStyle :=
  let cs := s.toList
  if needsEscapes cs then .double
  else if cs.contains '\n' then
    -- a literal block would lose the blanks before its end
    if cs.getLast? = some ' ' then .double else .literal
  else if holdsPair isBreak (· = ' ') cs then .double
  else if isAmbiguous s || cs.any isBreak || cs.head? = some ' '
      || cs.getLast? = some ' ' || holdsMark cs then .single
  else .plain

/-! ## Scalars -/

/-- A number of hexadecimal digits, upper case. -/
def hexDigits (width n : Nat) : List Char :=
  let digits := (Nat.toDigits 16 n).map Char.toUpper
  List.replicate (width - digits.length) '0' ++ digits

/-- How one character is written between double quotes. -/
def escapedChar (c : Char) : List Char :=
  match [('\x00', '0'), ('\x07', 'a'), ('\x08', 'b'), ('\t', 't'), ('\n', 'n'),
    ('\x0b', 'v'), ('\x0c', 'f'), ('\r', 'r'), ('\x1b', 'e'), ('\x22', '\x22'),
    ('\\', '\\'), ('\u0085', 'N'), ('\u2028', 'L'),
    ('\u2029', 'P')].lookup c with
  | some letter => ['\\', letter]
  | none =>
    if isPrintable c then [c]
    else if c.toNat ≤ 0xFF then '\\' :: 'x' :: hexDigits 2 c.toNat
    else if c.toNat ≤ 0xFFFF then '\\' :: 'u' :: hexDigits 4 c.toNat
    else '\\' :: 'U' :: hexDigits 8 c.toNat

/-- A text between double quotes. -/
def doubleQuoted (cs : List Char) : List Char :=
  '\x22' :: cs.flatMap escapedChar ++ ['\x22']

/-- A text between single quotes, its later lines indented. -/
def singleQuoted (indent : Nat) (cs : List Char) : List Char :=
  let inner := cs.flatMap fun c => if c = '\x27' then [c, c] else [c]
  '\x27' :: indented indent false (inner ++ ['\x27'])

/-- The head of a literal block: its width if the text does not show it, and
what its last breaks are. -/
def literalHead (cs : List Char) : List Char :=
  let width :=
    if (cs.head?.map fun c => c = ' ' || isBreak c).getD false then ['2']
    else []
  let breaks := (cs.reverse.takeWhile isBreak).length
  let ending :=
    if breaks = 0 then ['-']
    else if breaks = 1 && breaks < cs.length then []
    else ['+']
  '|' :: width ++ ending ++ ['\n']

/-- A text whose later lines are indented. -/
def scalarText (indent : Nat) (s : String) : List Char :=
  let cs := s.toList
  match styleOf s with
  | .plain => cs
  | .single => singleQuoted indent cs
  | .double => doubleQuoted cs
  | .literal => literalHead cs ++ indented indent true cs

/-! ## Blocks -/

/-- Whether a key can be written without a mark. -/
def isPlainKey (key : String) : Bool :=
  !key.toList.any isBreak && key.utf8ByteSize ≤ longestPlainKey

/-- An entry of a mapping at an indentation, from its value as it is written
right behind a colon and as it is written behind a mark of its own. -/
def entryText (indent : Nat) (key : String) (afterColon afterMark : List Char) :
    List Char :=
  let name := scalarText (indent + 2) key
  if isPlainKey key then name ++ ':' :: afterColon
  else stack indent ['?' :: ' ' :: name, ':' :: ' ' :: afterMark]

/-- A block on the lines below a colon. -/
def below (indent : Nat) (block : List Char) : List Char :=
  '\n' :: margin indent ++ block

mutual

/-- A value behind a mark at an indentation, on the same line as far as it
goes. -/
def inlineText (indent : Nat) : Json → List Char
  | .null => "null".toList
  | .bool b => (if b then "true" else "false").toList
  | .number (.integer n) => (toString n).toList
  | .number (.double x) => (x.render floatStyle).toList
  | .string s => scalarText (indent + 2) s
  | .array [] => ['[', ']']
  | .array items => stack (indent + 2) (itemTexts (indent + 2) items)
  | .object [] => ['\x7b', '\x7d']
  | .object entries => stack (indent + 2) (entryTexts (indent + 2) entries)

/-- A value behind the colon of a key at an indentation. -/
def valueText (indent : Nat) : Json → List Char
  | .array (item :: items) =>
    below indent (stack indent (itemTexts indent (item :: items)))
  | .object (entry :: entries) =>
    below (indent + 2)
      (stack (indent + 2) (entryTexts (indent + 2) (entry :: entries)))
  | value => ' ' :: inlineText indent value

/-- The items of a list at an indentation. -/
def itemTexts (indent : Nat) : List Json → List (List Char)
  | [] => []
  | item :: rest =>
    ('-' :: ' ' :: inlineText indent item) :: itemTexts indent rest

/-- The entries of a mapping at an indentation. -/
def entryTexts (indent : Nat) : List (String × Json) → List (List Char)
  | [] => []
  | (key, value) :: rest =>
    entryText indent key (valueText indent value) (inlineText indent value)
      :: entryTexts indent rest

end

/-- The lines of a value that stands for itself. -/
def blockText : Json → List Char
  | .array (item :: items) => stack 0 (itemTexts 0 (item :: items))
  | .object (entry :: entries) => stack 0 (entryTexts 0 (entry :: entries))
  | .string s => scalarText 2 s
  | value => inlineText 0 value

/-- The text of a value, its last line ended. -/
def render (value : Json) : String := String.ofList (endLine (blockText value))

end IntentGraph.Yaml
