import IntentGraph.Wire.PlainScalar
import IntentGraph.Yaml.Token

/-!
# Texts of scalars

The four ways to write a scalar. A plain or quoted scalar may go on over several
lines; what stands between its words is a `Gap`, which counts as a space when it
holds a single line feed. A block scalar is the lines below its head that are
indented far enough.

Each reader starts after the mark that tells how the scalar is written, a plain
one at its first character, and gives nothing when the scalar is not well
formed. The only breaks that occur are the line feed and the two separators of
Unicode.
-/

namespace IntentGraph.Yaml

/-! ## Gaps -/

/-- What stands between two words of a scalar: blanks on a line, or a first
break, which an escape may hide, and the breaks after it. -/
inductive Gap where
  | blanks (cs : List Char)
  | breaks (first : Option Char) (more : List Char)

namespace Gap

/-- The gap that nothing stands in. -/
def empty : Gap := .blanks []

/-- Whether a gap goes over the end of a line. -/
def isBroken : Gap → Bool
  | .blanks _ => false
  | .breaks _ _ => true

/-- The gap with one more blank or break. Blanks around a break do not count. -/
def add (c : Char) : Gap → Gap
  | .blanks cs => if isBreak c then .breaks (some c) [] else .blanks (cs ++ [c])
  | .breaks first more =>
    .breaks first (if isBreak c then more ++ [c] else more)

/-- What a gap stands for in the text of a scalar. -/
def text : Gap → List Char
  | .blanks cs => cs
  | .breaks (some '\n') [] => [' ']
  | .breaks (some '\n') more => more
  | .breaks first more => first.toList ++ more

end Gap

/-- The text of a scalar so far, last character first. -/
abbrev Backwards := List Char

/-- The text after a gap. -/
def Gap.after (gap : Gap) (text : Backwards) : Backwards :=
  gap.text.reverseAux text

/-- The text of a scalar, the right way round. -/
def forwards (text : Backwards) : String := String.ofList text.reverse

/-! ## Plain scalars -/

/-- Whether a plain scalar can start here. -/
def startsPlain (inFlow : Bool) : List Char → Bool
  | [] => false
  | c :: rest =>
    if c = '-' then !((rest.head?.map isBlank).getD false)
    else if isLeadingMark c then !inFlow && !gapIsNext rest
    else !gapIsNext [c] && !isIndicator c

/-- Whether a plain scalar ends before a character that is not in a gap. -/
def endsPlain (inFlow : Bool) (c : Char) (rest : List Char) : Bool :=
  (c = ':' && gapIsNext rest) || (inFlow && isFlowMark c)

/-- Whether a colon stands where in brackets none may stand: in front of a
mark. -/
def isStrayColon (c : Char) (rest : List Char) : Bool :=
  c = ':' && (rest.head?.map fun next =>
    isFlowMark next || next = '?').getD false

/-- Reads a plain scalar, whose later lines stand at `indent` or further to the
right. What it gives beside the text is whether the last gap went over the end
of a line. -/
def takePlain (inFlow : Bool) (indent : Nat) (gap : Gap) (text : Backwards)
    (position : Position) :
    List Char → Option (Taken (String × Bool))
  | [] => some ⟨(forwards text, gap.isBroken), position, []⟩
  | c :: rest =>
    let stop := some ⟨(forwards text, gap.isBroken), position, c :: rest⟩
    if isBlank c || isBreak c then
      -- a tab is no indentation
      if c = '\t' && gap.isBroken && position.column < indent then none
      else takePlain inFlow indent (gap.add c) text (position.after c) rest
    else if gap.isBroken && !inFlow && position.column < indent then stop
    else if position.column = 0 && isDocumentMark (c :: rest) then stop
    else if c = '#' && (gap.isBroken || !gap.text.isEmpty) then stop
    else if inFlow && isStrayColon c rest then none
    else if endsPlain inFlow c rest then stop
    else takePlain inFlow indent .empty (c :: gap.after text)
      (position.after c) rest

/-! ## Quoted scalars -/

/-- Reads a scalar between single quotes, in which a quote is written twice. -/
def takeSingle (gap : Gap) (text : Backwards) (position : Position) :
    List Char → Option (Taken String)
  | [] => none
  | c :: rest =>
    if isBlank c || isBreak c then
      takeSingle (gap.add c) text (position.after c) rest
    else if position.column = 0 && isDocumentMark (c :: rest) then none
    else if c = '\x27' then
      match rest with
      | '\x27' :: rest =>
        takeSingle .empty (c :: gap.after text)
          ((position.after c).after c) rest
      | rest => some ⟨forwards (gap.after text), position.after c, rest⟩
    else takeSingle .empty (c :: gap.after text) (position.after c) rest

/-- The character of a one-letter escape. -/
def letterEscape? (c : Char) : Option Char :=
  [('0', '\x00'), ('a', '\x07'), ('b', '\x08'), ('t', '\t'),
    ('\t', '\t'), ('n', '\n'), ('v', '\x0b'), ('f', '\x0c'), ('r', '\r'),
    ('e', '\x1b'), (' ', ' '), ('\x22', '\x22'), ('/', '/'), ('\\', '\\'),
    ('N', '\u0085'), ('_', '\u00a0'), ('L', '\u2028'), ('P', '\u2029')].lookup c

/-- The character whose code point hexadecimal digits spell. -/
def codePoint? (digits : List Char) : Option Char :=
  (PlainScalar.natural? 16 digits).bind fun n =>
    if n.isValidChar then some (Char.ofNat n) else none

/-- Reads a scalar between double quotes. -/
def takeDouble (gap : Gap) (text : Backwards) (position : Position) :
    List Char → Option (Taken String)
  | [] => none
  | '\\' :: 'x' :: a :: b :: rest =>
    (codePoint? [a, b]).bind fun c => takeDouble .empty (c :: gap.after text)
      (position.afterAll ['\\', 'x', a, b]) rest
  | '\\' :: 'u' :: a :: b :: c :: d :: rest =>
    (codePoint? [a, b, c, d]).bind fun x =>
      takeDouble .empty (x :: gap.after text)
        (position.afterAll ['\\', 'u', a, b, c, d]) rest
  | '\\' :: 'U' :: a :: b :: c :: d :: e :: f :: g :: h :: rest =>
    (codePoint? [a, b, c, d, e, f, g, h]).bind fun x =>
      takeDouble .empty (x :: gap.after text)
        (position.afterAll ['\\', 'U', a, b, c, d, e, f, g, h]) rest
  | '\\' :: c :: rest =>
    if isBreak c then takeDouble (.breaks none []) (gap.after text)
      (position.after c) rest
    else (letterEscape? c).bind fun x => takeDouble .empty (x :: gap.after text)
      (position.afterAll ['\\', c]) rest
  | c :: rest =>
    if isBlank c || isBreak c then
      takeDouble (gap.add c) text (position.after c) rest
    else if position.column = 0 && isDocumentMark (c :: rest) then none
    else if c = '\x22' then
      some ⟨forwards (gap.after text), position.after c, rest⟩
    else takeDouble .empty (c :: gap.after text) (position.after c) rest

/-! ## Block scalars -/

/-- What becomes of the breaks at the end of a block scalar: all but one are
dropped, all are dropped, or none is. -/
inductive Chomping where
  | clip
  | strip
  | keep
  deriving DecidableEq

/-- The head of a block scalar: how much further than its parent it is indented,
if that is said, and what becomes of its last breaks. -/
structure BlockHead where
  width : Option Nat
  chomping : Chomping

/-- The rule for breaks that a sign stands for. -/
def chomping? (c : Char) : Option Chomping :=
  if c = '+' then some .keep else if c = '-' then some .strip else none

/-- Reads the head of a block scalar, from after its mark, and what follows
it. -/
def takeBlockHead : List Char → Option (BlockHead × List Char)
  | [] => some (⟨none, .clip⟩, [])
  | c :: rest =>
    let width? (c : Char) : Option Nat :=
      if c.isDigit then some (c.toNat - '0'.toNat) else none
    let head := match chomping? c, width? c, rest with
      | some chomping, _, d :: rest =>
        match width? d with
        | some n => (⟨some n, chomping⟩, rest)
        | none => (⟨none, chomping⟩, d :: rest)
      | some chomping, _, [] => (⟨none, chomping⟩, [])
      | none, some n, d :: rest =>
        match chomping? d with
        | some chomping => (⟨some n, chomping⟩, rest)
        | none => (⟨some n, .clip⟩, d :: rest)
      | none, some n, [] => (⟨some n, .clip⟩, [])
      | none, none, rest => (⟨none, .clip⟩, c :: rest)
    if head.1.width = some 0 then none else some head

/-- The column of the first line that holds something, or of a longer line of
spaces above it. A tab in front of it is refused. -/
def firstColumn? (column most : Nat) : List Char → Option Nat
  | [] => some (max most column)
  | c :: rest =>
    if c = ' ' then firstColumn? (column + 1) most rest
    else if c = '\t' then none
    else if isBreak c then firstColumn? 0 (max most column) rest
    else some (max most column)

/-- The text of a block scalar between two lines: the break that ended the last
one, those of the empty lines since then, and whether the last line started with
a blank. -/
structure BlockGap where
  ended : Option Char
  empty : List Char
  afterBlank : Bool

/-- What the breaks before a line stand for. In a folded text a single break
between two lines that start with a word is a space. -/
def BlockGap.text (g : BlockGap) (folded beforeBlank : Bool) : List Char :=
  if folded && g.ended = some '\n' && !g.afterBlank && !beforeBlank then
    if g.empty.isEmpty then [' '] else g.empty
  else g.ended.toList ++ g.empty

/-- What the breaks at the end of a block scalar stand for. -/
def BlockGap.last (g : BlockGap) : Chomping → List Char
  | .strip => []
  | .clip => g.ended.toList
  | .keep => g.ended.toList ++ g.empty

/-- Reads the lines of a block scalar that are indented by `indent`; `inLine`
after the indentation of a line. -/
def takeBlock (folded : Bool) (chomping : Chomping) (indent : Nat)
    (inLine : Bool) (gap : BlockGap) (text : Backwards) (position : Position) :
    List Char → Option (Taken String)
  | [] => some ⟨forwards ((gap.last chomping).reverseAux text), position, []⟩
  | c :: rest =>
    let next := position.after c
    if inLine then
      if isBreak c then
        takeBlock folded chomping indent false ⟨some c, [], gap.afterBlank⟩
          text next rest
      else takeBlock folded chomping indent true gap (c :: text) next rest
    else if c = ' ' && position.column < indent then
      takeBlock folded chomping indent false gap text next rest
    else if c = '\t' && position.column < indent then none
    else if isBreak c then
      takeBlock folded chomping indent false
        { gap with empty := gap.empty ++ [c] } text next rest
    else if position.column = indent then
      takeBlock folded chomping indent true ⟨none, [], isBlank c⟩
        (c :: (gap.text folded (isBlank c)).reverseAux text) next rest
    else some ⟨forwards ((gap.last chomping).reverseAux text),
      position, c :: rest⟩

end IntentGraph.Yaml
