/-!
# Characters and tokens of YAML

What a YAML text is made of.
-/

namespace IntentGraph.Yaml

/-!
## Characters of YAML

The classes of characters that reading and writing YAML share: breaks end a
line, blanks separate what stands on it, and indicators have a meaning where a
scalar could start.
-/

/-- Whether a character ends a line. -/
def isBreak (c : Char) : Bool :=
  c = '\n' || c = '\r' || c = '\u0085' || c = '\u2028' || c = '\u2029'

/-- Whether a character separates without ending a line. -/
def isBlank (c : Char) : Bool := c = ' ' || c = '\t'

/-- Whether a blank, a break or the end of the text is next. -/
def gapIsNext : List Char → Bool
  | [] => true
  | c :: _ => isBlank c || isBreak c

/-- The sign that may stand in front of a text to tell its encoding. -/
def byteOrderMark : Char := '\ufeff'

/-- Whether a character may stand in a text at all. -/
def isAllowed (c : Char) : Bool :=
  let n := c.toNat
  n = 0x09 || n = 0x0A || n = 0x0D || (0x20 ≤ n && n ≤ 0x7E) || n = 0x85
    || (0xA0 ≤ n && n ≤ 0xFFFD) || 0x10000 ≤ n

/-- Whether a character is shown as itself and does not need an escape. -/
def isPrintable (c : Char) : Bool :=
  let n := c.toNat
  n = 0x0A || (0x20 ≤ n && n ≤ 0x7E) || (0xA0 ≤ n && n ≤ 0xFFFD && n ≠ 0xFEFF)
    || 0x10000 ≤ n

/-- The characters that divide lists and mappings in brackets. -/
def isFlowMark (c : Char) : Bool :=
  c = ',' || c = '[' || c = ']' || c = '\x7b' || c = '\x7d'

/-- The characters that no plain scalar starts with. -/
def isIndicator (c : Char) : Bool :=
  isFlowMark c || ['#', '&', '*', '!', '|', '>', '\x27', '\x22', '%', '@',
    '\x60'].contains c

/-- The characters that start a plain scalar only when no gap follows them. -/
def isLeadingMark (c : Char) : Bool := c = '-' || c = '?' || c = ':'

/-- The letters, digits and signs that names of anchors, tags and directives are
made of. -/
def isNameChar (c : Char) : Bool := c.isAlphanum || c = '_' || c = '-'

/-- Whether a text goes on with a mark that starts or ends a document when it
opens a line. -/
def isDocumentMark : List Char → Bool
  | a :: b :: c :: rest =>
    (a = '-' || a = '.') && b = a && c = a && gapIsNext rest
  | _ => false

/-!
## Tokens of YAML

Indentation is told by tokens of its own: a block list or mapping is opened
where its first item stands further to the right than all that is open, and
closed where the text returns to the left.
-/

/-- How a scalar is written. -/
inductive ScalarForm where
  | plain
  | quoted
  | literal
  | folded
  deriving DecidableEq

/-- A part of a YAML text. -/
inductive Token where
  | version (major minor : Nat)
  | handle (name expansion : String)
  | documentStart
  | documentEnd
  | blockList
  | blockMapping
  | blockEnd
  | flowList
  | flowListEnd
  | flowMapping
  | flowMappingEnd
  | item
  | comma
  | key
  | value
  | alias (name : String)
  | anchor (name : String)
  | tag (handle suffix : String)
  | scalar (form : ScalarForm) (text : String)
  deriving DecidableEq

/-- A place in a text: its line, its column in characters, and its distance in
bytes from the start of the line. -/
structure Position where
  line : Nat
  column : Nat
  offset : Nat
  deriving DecidableEq

namespace Position

/-- The start of a text. -/
def start : Position := ⟨0, 0, 0⟩

/-- The place after a character. -/
def after (p : Position) (c : Char) : Position :=
  if isBreak c then ⟨p.line + 1, 0, 0⟩
    else ⟨p.line, p.column + 1, p.offset + c.utf8Size⟩

/-- The place after some characters. -/
def afterAll (p : Position) (cs : List Char) : Position := cs.foldl after p

end Position

/-- A part of a text that was read, the place where it ends, and the rest of the
text. -/
structure Taken (α : Type) where
  value : α
  position : Position
  rest : List Char

end IntentGraph.Yaml
