import IntentGraph.Yaml.ScalarText
import IntentGraph.Yaml.Token.Naming

/-!
# The tokens of a text

`Token.ofText?` cuts a text into its tokens, or gives nothing when some part of
it is no token.

A key need not be marked: that something is a key shows only at the colon behind
it. So the place before every token that could start a key is kept as a
`Candidate`, and the tokens that open the mapping and the key are put there once
the colon is met. A candidate holds for its line and for `longestKey` bytes, and
there is one for every open bracket and one outside of all of them.
-/

namespace IntentGraph.Yaml

/-- The most bytes that a key without a mark may take up. -/
def longestKey : Nat := 1024

/-- A place where a key may start, and whether a key is all that can stand
there. -/
structure Candidate where
  position : Position
  required : Bool

/-- Whether a candidate still holds at a place. -/
def Candidate.holdsAt (c : Candidate) (p : Position) : Bool :=
  c.position.line = p.line && p.offset ≤ c.position.offset + longestKey

/-- The tokens inside a bracket, or outside of all: those before the candidate
at hand and those since then, the last one first. -/
structure Level where
  before : List Token
  since : List Token
  candidate : Option Candidate

namespace Level

/-- The start of a level. -/
def empty : Level := ⟨[], [], none⟩

/-- All tokens of a level, the last one first. -/
def tokens (v : Level) : List Token := v.since ++ v.before

/-- Adds a token. -/
def emit (v : Level) (token : Token) : Level :=
  { v with since := token :: v.since }

/-- Adds tokens at the candidate at hand, which is used up by that. -/
def emitAtCandidate (v : Level) (tokens : List Token) : Level :=
  { v with since := v.since ++ tokens.reverse, candidate := none }

/-- Makes the end of a level its candidate. -/
def mark (v : Level) (c : Candidate) : Level := ⟨v.tokens, [], some c⟩

end Level

/-- How far a text has been read: the columns of the open block lists and
mappings, innermost first, the level at hand and those outside of the open
brackets, and whether a key may start here. -/
structure Lexer where
  position : Position
  rest : List Char
  columns : List Nat
  level : Level
  outer : List Level
  keyAllowed : Bool

namespace Lexer

/-- The start of a text. -/
def ofChars (cs : List Char) : Lexer := ⟨.start, cs, [], .empty, [], true⟩

/-- Whether a bracket is open. -/
def inFlow (l : Lexer) : Bool := !l.outer.isEmpty

/-- Adds a token. -/
def emit (l : Lexer) (token : Token) : Lexer :=
  { l with level := l.level.emit token }

/-- Goes on behind the next character. -/
def skip (l : Lexer) : Lexer :=
  { l with
    position := l.position.afterAll (l.rest.take 1), rest := l.rest.drop 1 }

/-- Adds a token that was read, and goes on behind it. -/
def accept (l : Lexer) (part : Taken Token) : Lexer :=
  { l.emit part.value with position := part.position, rest := part.rest }

/-! ## Candidates -/

/-- Gives the candidate at hand up, unless a key is all that can stand there. -/
def dropCandidate (l : Lexer) : Option Lexer :=
  if (l.level.candidate.map (·.required)).getD false then none
  else some { l with level := { l.level with candidate := none } }

/-- Keeps the place before the next token as a candidate. In block context a key
is all that can stand where the entries of the innermost mapping stand. -/
def noteCandidate (l : Lexer) : Option Lexer :=
  if l.keyAllowed then do
    let required := !l.inFlow && l.columns.head? = some l.position.column
    let l ← l.dropCandidate
    return { l with level := l.level.mark ⟨l.position, required⟩ }
  else some l

/-! ## Indentation -/

/-- Closes the block lists and mappings that stand to the right of a column. -/
def closeBlocks (l : Lexer) (closes : Nat → Bool) : Lexer :=
  if l.inFlow then l
  else
    { l with
      level := (l.columns.takeWhile closes).foldl (fun level _ =>
        level.emit .blockEnd) l.level
      columns := l.columns.dropWhile closes }

/-- Closes all block lists and mappings. -/
def closeAllBlocks (l : Lexer) : Lexer := l.closeBlocks fun _ => true

/-- Whether a block list or mapping at a column is not open yet. -/
def opensBlock (l : Lexer) (column : Nat) : Bool :=
  !l.inFlow && (l.columns.head?.map fun inner =>
    decide (inner < column)).getD true

/-- Opens a block list or mapping at the place at hand, if it is not open
yet. -/
def openBlock (l : Lexer) (token : Token) : Lexer :=
  if l.opensBlock l.position.column then
    { l.emit token with columns := l.position.column :: l.columns }
  else l

/-! ## Between tokens -/

/-- Skips blanks, comments and breaks. Where a key may start in block context, a
tab is none of them; a break allows a key there. -/
def skipGap (inFlow keyAllowed inComment : Bool) (position : Position) :
    List Char → Bool × Position × List Char
  | [] => (keyAllowed, position, [])
  | c :: rest =>
    let next := position.after c
    if isBreak c then skipGap inFlow (keyAllowed || !inFlow) false next rest
    else if inComment then skipGap inFlow keyAllowed true next rest
    else if c = byteOrderMark && position.column = 0 then
      skipGap inFlow keyAllowed false next rest
    else if c = ' ' || (c = '\t' && (inFlow || !keyAllowed)) then
      skipGap inFlow keyAllowed false next rest
    else if c = '#' then skipGap inFlow keyAllowed true next rest
    else (keyAllowed, position, c :: rest)

/-- Goes on at the next token. -/
def toNext (l : Lexer) : Lexer :=
  let (keyAllowed, position, rest) :=
    skipGap l.inFlow l.keyAllowed false l.position l.rest
  let l := { l with keyAllowed, position, rest }
  l.closeBlocks fun column => l.position.column < column

/-! ## Single tokens -/

/-- Reads a token that stands outside of all blocks, as directives and marks of
documents do. -/
def outerToken (l : Lexer) (part : Taken Token) : Option Lexer := do
  let l ← l.closeAllBlocks.dropCandidate
  return { l.accept part with keyAllowed := false }

/-- Reads an opening bracket. -/
def openBracket (l : Lexer) (token : Token) : Option Lexer := do
  let l ← l.noteCandidate
  let l := (l.emit token).skip
  return { l with
    level := .empty, outer := l.level :: l.outer, keyAllowed := true }

/-- Reads a closing bracket. -/
def closeBracket (l : Lexer) (token : Token) : Option Lexer := do
  let l ← l.dropCandidate
  let l := (l.emit token).skip
  match l.outer with
  | [] => none
  | level :: outer =>
    return { l with
      level := { level with since := l.level.tokens ++ level.since }, outer,
        keyAllowed := false }

/-- Reads a comma. -/
def comma (l : Lexer) : Option Lexer := do
  let l ← l.dropCandidate
  return { (l.emit .comma).skip with keyAllowed := true }

/-- Reads the mark of an item of a block list. -/
def item (l : Lexer) : Option Lexer := do
  if !l.inFlow && !l.keyAllowed then none
  let l ← (l.openBlock .blockList).dropCandidate
  return { (l.emit .item).skip with keyAllowed := true }

/-- Reads the mark of a key. -/
def markedKey (l : Lexer) : Option Lexer := do
  if !l.inFlow && !l.keyAllowed then none
  let l ← (l.openBlock .blockMapping).dropCandidate
  return { (l.emit .key).skip with keyAllowed := !l.inFlow }

/-- Reads the colon after a key that starts at a candidate. -/
def colonAfter (l : Lexer) (c : Candidate) : Lexer :=
  let column := c.position.column
  if l.opensBlock column then
    { l with
      level := l.level.emitAtCandidate [.blockMapping, .key]
      columns := column :: l.columns
      keyAllowed := false }
  else { l with level := l.level.emitAtCandidate [.key], keyAllowed := false }

/-- Reads a colon. Without a candidate it stands after a key that has a mark of
its own. -/
def colon (l : Lexer) : Option Lexer := do
  let l ← match l.level.candidate.filter (·.holdsAt l.position) with
    | some c => pure (l.colonAfter c)
    | none => do
      let l ← l.dropCandidate
      if !l.inFlow && !l.keyAllowed then none
      pure { l.openBlock .blockMapping with keyAllowed := !l.inFlow }
  return (l.emit .value).skip

/-- Reads a token that may start a key. -/
def keyStart (l : Lexer) (part : Option (Taken Token)) : Option Lexer := do
  let l ← l.noteCandidate
  return { l.accept (← part) with keyAllowed := false }

/-- Reads a tag. -/
def tag (l : Lexer) : Option Lexer := do
  let part ← takeTag l.position l.rest
  if !gapIsNext part.rest && !(l.inFlow && part.rest.head? = some ',') then none
  l.keyStart (some part)

/-- Reads a plain scalar. -/
def plainScalar (l : Lexer) : Option Lexer := do
  let indent := (l.columns.head?.map (· + 1)).getD 0
  let part ← takePlain l.inFlow indent .empty [] l.position l.rest
  let l ← l.keyStart
    (some ⟨.scalar .plain part.value.1, part.position, part.rest⟩)
  -- after a plain scalar the line may already be over
  return { l with keyAllowed := part.value.2 }

/-- Reads a quoted scalar. -/
def quotedScalar (l : Lexer) (part : Option (Taken String)) : Option Lexer :=
  l.keyStart (part.map fun part =>
    ⟨.scalar .quoted part.value, part.position, part.rest⟩)

/-- Reads a block scalar. Unless its head says how far it is indented, its first
line does. -/
def blockScalar (l : Lexer) (folded : Bool) : Option Lexer := do
  let l ← l.dropCandidate
  let (head, rest) ← takeBlockHead (l.rest.drop 1)
  let line ← endLine? l.position rest
  let least := (l.columns.head?.map (· + 1)).getD 0
  let position := line.position.afterAll (line.rest.take 1)
  let indent ← match head.width with
    | some n => pure (l.columns.head?.getD 0 + n)
    | none =>
      (firstColumn? position.column 0 (line.rest.drop 1)).map
        (max · (max least 1))
  let part ← takeBlock folded head.chomping indent false ⟨none, [], false⟩ []
    position (line.rest.drop 1)
  let form := if folded then ScalarForm.folded else .literal
  return { l.accept ⟨.scalar form part.value, part.position, part.rest⟩
    with keyAllowed := true }

/-- Reads the token that starts with a character. -/
def next (l : Lexer) (c : Char) (rest : List Char) : Option Lexer :=
  let after := l.position.after c
  let mark := l.position.afterAll ['-', '-', '-']
  if l.position.column = 0 && c = '%' then do
    l.outerToken (← takeDirective after rest)
  else if l.position.column = 0 && isDocumentMark (c :: rest) then
    l.outerToken ⟨if c = '-' then .documentStart else .documentEnd,
      mark, rest.drop 2⟩
  else if c = '[' then l.openBracket .flowList
  else if c = '\x7b' then l.openBracket .flowMapping
  else if c = ']' then l.closeBracket .flowListEnd
  else if c = '\x7d' then l.closeBracket .flowMappingEnd
  else if c = ',' then l.comma
  else if c = '-' && gapIsNext rest then l.item
  else if c = '?' && (l.inFlow || gapIsNext rest) then l.markedKey
  else if c = ':' && (l.inFlow || gapIsNext rest) then l.colon
  else if c = '*' then
    l.keyStart ((takeAnchor after rest).map fun a =>
      ⟨.alias a.value, a.position, a.rest⟩)
  else if c = '&' then
    l.keyStart ((takeAnchor after rest).map fun a =>
      ⟨.anchor a.value, a.position, a.rest⟩)
  else if c = '!' then l.tag
  else if (c = '|' || c = '>') && !l.inFlow then l.blockScalar (c = '>')
  else if c = '\x27' then l.quotedScalar (takeSingle .empty [] after rest)
  else if c = '\x22' then l.quotedScalar (takeDouble .empty [] after rest)
  else if startsPlain l.inFlow (c :: rest) then l.plainScalar
  else none

/-! ## Whole texts -/

/-- Reads all tokens. Every token but those of indentation takes up a character,
so the length of the text is fuel enough. -/
def run : (fuel : Nat) → Lexer → Option (List Token)
  | 0, _ => none
  | fuel + 1, l =>
    let l := l.toNext
    match l.rest with
    | [] => do
      let l ← l.closeAllBlocks.dropCandidate
      if l.inFlow then none else return l.level.tokens.reverse
    | c :: rest => (l.next c rest).bind (run fuel)

end Lexer

/-- A text whose lines end in a line feed or in one of the separators of
Unicode. -/
def unifyBreaks : List Char → List Char
  | [] => []
  | '\r' :: '\n' :: rest => '\n' :: unifyBreaks rest
  | c :: rest =>
    (if c = '\r' ∨ c = '\u0085' then '\n' else c) :: unifyBreaks rest

/-- The text without the sign that tells its encoding. -/
def skipEncoding : List Char → List Char
  | [] => []
  | c :: rest => if c = byteOrderMark then rest else c :: rest

/-- The tokens of a text. -/
def Token.ofText? (text : String) : Option (List Token) :=
  let cs := text.toList
  if cs.all isAllowed then
    Lexer.run (text.length + 1) (.ofChars (unifyBreaks (skipEncoding cs)))
  else none

end IntentGraph.Yaml
