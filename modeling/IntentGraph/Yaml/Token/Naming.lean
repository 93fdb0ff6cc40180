import IntentGraph.Wire.PlainScalar
import IntentGraph.Yaml.Token

/-!
# Names in YAML

Anchors, tags and directives: the tokens that are written as a mark and a name.
Each reader starts after the mark, except for a tag, whose mark may be part of
its handle, and gives nothing when no such name stands there.
-/

namespace IntentGraph.Yaml

/-- The characters of a kind that stand at the start of a text. -/
def span (kind : Char → Bool) (position : Position) (cs : List Char) :
    Taken (List Char) :=
  let part := cs.takeWhile kind
  ⟨part, position.afterAll part, cs.dropWhile kind⟩

/-- The text after blanks and a comment, which have to end the line. -/
def endLine? (position : Position) (cs : List Char) : Option (Taken Unit) :=
  let gap := span isBlank position cs
  let stop := match gap.rest with
    | '#' :: _ => span (fun c => !isBreak c) gap.position gap.rest
    | _ => gap
  match stop.rest with
  | [] => some ⟨(), stop.position, []⟩
  | c :: _ => if isBreak c then some ⟨(), stop.position, stop.rest⟩ else none

/-! ## Anchors -/

/-- Reads the name of an anchor or of an alias. -/
def takeAnchor (position : Position) (cs : List Char) : Option (Taken String) :=
  let name := span isNameChar position cs
  let ends := gapIsNext name.rest
    || (name.rest.head?.map
      (['?', ':', ',', ']', '\x7d', '%', '@', '\x60'].contains ·)).getD false
  if name.value.isEmpty || !ends then none
  else some ⟨String.ofList name.value, name.position, name.rest⟩

/-! ## Tags -/

/-- The characters that the name of a tag is made of; between angle brackets
more of them are allowed. -/
def isTagChar (verbatim : Bool) (c : Char) : Bool :=
  isNameChar c || ";/?:@&=+$.%!~*\x27()".toList.contains c
    || (verbatim && [',', '[', ']'].contains c)

/-- The bytes of the name of a tag; a percent sign stands before the digits of
one. -/
def tagBytes? : List Char → Option (List UInt8)
  | [] => some []
  | '%' :: a :: b :: rest =>
    (PlainScalar.natural? 16 [a, b]).bind fun n =>
      (tagBytes? rest).map (n.toUInt8 :: ·)
  | c :: rest =>
    if c = '%' then none else (tagBytes? rest).map (c.toNat.toUInt8 :: ·)

/-- Reads the name of a tag. -/
def takeTagName (verbatim : Bool) (position : Position) (cs : List Char) :
    Option (Taken String) := do
  let name := span (isTagChar verbatim) position cs
  let bytes ← tagBytes? name.value
  let text ← String.fromUTF8? ⟨bytes.toArray⟩
  return ⟨text, name.position, name.rest⟩

/-- Reads the handle of a tag: a mark and a name, and another mark if one
follows. -/
def takeHandle (position : Position) (cs : List Char) : Taken String :=
  let name := span isNameChar (position.after '!') (cs.drop 1)
  let text := String.ofList ('!' :: name.value)
  match name.rest with
  | '!' :: rest => ⟨text ++ "!", name.position.after '!', rest⟩
  | rest => ⟨text, name.position, rest⟩

/-- Whether a handle is closed by a mark of its own. -/
def isClosedHandle (handle : String) : Bool :=
  1 < handle.length && handle.toList.getLast? = some '!'

/-- Reads a tag, from its mark on. -/
def takeTag (position : Position) : List Char → Option (Taken Token)
  | '!' :: '<' :: rest => do
    let name ← takeTagName true (position.afterAll ['!', '<']) rest
    match name.rest with
    | '>' :: rest =>
      if name.value = "" then none
        else return ⟨.tag "" name.value, name.position.after '>', rest⟩
    | _ => none
  | cs => do
    let handle := takeHandle position cs
    let name ← takeTagName false handle.position handle.rest
    if isClosedHandle handle.value then
      if name.value = "" then none
      else return ⟨.tag handle.value name.value, name.position, name.rest⟩
    else
      -- without a second mark the handle is the start of the name
      let text := String.ofList (handle.value.toList.drop 1) ++ name.value
      return ⟨if text = "" then .tag "" "!" else .tag "!" text,
        name.position, name.rest⟩

/-! ## Directives -/

/-- Reads a part of a version: at most nine digits. -/
def takeNumber (position : Position) (cs : List Char) : Option (Taken Nat) := do
  let digits := span Char.isDigit position cs
  if 9 < digits.value.length then none
  let n ← PlainScalar.natural? 10 digits.value
  return ⟨n, digits.position, digits.rest⟩

/-- Reads what a directive on the version of YAML says. -/
def takeVersion (position : Position) (cs : List Char) :
    Option (Taken Token) := do
  let gap := span isBlank position cs
  let major ← takeNumber gap.position gap.rest
  match major.rest with
  | '.' :: rest =>
    let minor ← takeNumber (major.position.after '.') rest
    return ⟨.version major.value minor.value, minor.position, minor.rest⟩
  | _ => none

/-- Reads what a directive on a handle of tags says. -/
def takeHandleRule (position : Position) (cs : List Char) :
    Option (Taken Token) := do
  let gap := span isBlank position cs
  if gap.rest.head? ≠ some '!' then none
  let handle := takeHandle gap.position gap.rest
  if handle.value ≠ "!" ∧ !isClosedHandle handle.value then none
  let gap := span isBlank handle.position handle.rest
  if gap.value.isEmpty then none
  let name ← takeTagName true gap.position gap.rest
  if name.value = "" ∨ !gapIsNext name.rest then none
  else return ⟨.handle handle.value name.value, name.position, name.rest⟩

/-- Reads a directive up to the end of its line. -/
def takeDirective (position : Position) (cs : List Char) :
    Option (Taken Token) := do
  let name := span isNameChar position cs
  if !gapIsNext name.rest then none
  let directive ←
    if name.value = ['Y', 'A', 'M', 'L'] then
      takeVersion name.position name.rest
    else if name.value = ['T', 'A', 'G'] then
      takeHandleRule name.position name.rest
    else none
  let line ← endLine? directive.position directive.rest
  return ⟨directive.value, line.position, line.rest⟩

end IntentGraph.Yaml
