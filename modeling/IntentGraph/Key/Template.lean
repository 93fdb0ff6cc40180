import IntentGraph.Json.Basic
import IntentGraph.Text

/-!
# Templates

A string may refer to state keys: `state.` and a key between double braces, with
blanks allowed inside the braces. A key is an identifier followed by any number
of dotted segments.

`Template.pieces` cuts a text into references and the characters between them,
from left to right and without overlap. The keys a text refers to and the
renaming of one of them are both read off the pieces.
-/

namespace IntentGraph.Template

/-- The characters that a key may start with. -/
def isKeyStart (c : Char) : Bool := c.isAlpha || c = '_'

/-- The characters of the segments of a key. -/
def isKeyChar (c : Char) : Bool := c.isAlphanum || c = '_'

/-- The longest start of a text that consists of key characters and of dots with
one behind them, and the text after it. -/
def splitKey : List Char → List Char × List Char
  | [] => ([], [])
  | c :: rest =>
    if isKeyChar c || c = '.' && (rest.head?.map isKeyChar).getD false then
      (c :: (splitKey rest).1, (splitKey rest).2)
    else ([], c :: rest)

/-- Whether a text is a key that a template can refer to. -/
def isKey (cs : List Char) : Bool :=
  (cs.head?.map isKeyStart).getD false && (splitKey cs).2.isEmpty

/-- The braces before a reference. -/
def opening : List Char := ['\x7b', '\x7b']

/-- The braces after a reference. -/
def closing : List Char := ['\x7d', '\x7d']

/-- The word before the key of a reference. -/
def marker : List Char := ['s', 't', 'a', 't', 'e', '.']

/-- The key of the reference that a text starts with, and the text after the
reference. -/
def reference? (cs : List Char) : Option (List Char × List Char) := do
  let inner ← opening.isPrefixOf? cs
  let path ← marker.isPrefixOf? (inner.dropWhile Text.isBlank)
  if (path.head?.map isKeyStart).getD false then
    let (key, rest) := splitKey path
    let after ← closing.isPrefixOf? (rest.dropWhile Text.isBlank)
    return (key, after)
  else none

/-- A piece of a text: a character, or a reference as it is spelled. -/
inductive Piece where
  | char (c : Char)
  | reference (key spelling : List Char)
  deriving DecidableEq

theorem splitKey_append (cs : List Char) :
    (splitKey cs).1 ++ (splitKey cs).2 = cs := by
  induction cs with
  | nil => rfl
  | cons c rest ih =>
    unfold splitKey
    split
    · simp [ih]
    · rfl

/-- A prefix and what follows it are as long as the whole. -/
theorem length_of_isPrefixOf? {start cs rest : List Char}
    (h : start.isPrefixOf? cs = some rest) :
    cs.length = start.length + rest.length := by
  induction start generalizing cs with
  | nil =>
    obtain rfl : cs = rest := Option.some.inj h
    exact (Nat.zero_add _).symm
  | cons s start ih =>
    cases cs with
    | nil => cases h
    | cons c cs =>
      obtain ⟨_, hrest⟩ := Option.ite_none_right_eq_some.1 h
      rw [List.length_cons, ih hrest, List.length_cons, Nat.add_right_comm]

/-- A reference takes up a part of the text. -/
theorem length_lt_of_reference? {cs key after : List Char}
    (h : reference? cs = some (key, after)) :
    after.length < cs.length := by
  simp only [reference?, Option.bind_eq_bind, Option.bind_eq_some_iff] at h
  obtain ⟨inner, hinner, path, hpath, h⟩ := h
  split at h
  · obtain ⟨rest, hrest, h⟩ := Option.bind_eq_some_iff.1 h
    simp only [Option.pure_def, Option.some.injEq, Prod.mk.injEq] at h
    -- the braces and the marker are taken off; the key and the blanks take
    -- nothing back
    have h1 := length_of_isPrefixOf? hinner
    have h2 := length_of_isPrefixOf? hpath
    have h3 := length_of_isPrefixOf? hrest
    have h4 := (List.dropWhile_suffix (l := inner) Text.isBlank).length_le
    have h5 := (List.dropWhile_suffix (l := (splitKey path).2)
      Text.isBlank).length_le
    have h6 := congrArg List.length (splitKey_append path)
    simp only [List.length_append, opening, marker, closing, List.length_cons,
      List.length_nil]
      at h1 h2 h3 h6
    rw [← h.2]
    omega
  · simp at h

/-- The pieces of a text, from left to right. -/
def pieces : List Char → List Piece
  | [] => []
  | c :: rest =>
    match _h : reference? (c :: rest) with
    | some (key, after) =>
      .reference key ((c :: rest).take ((c :: rest).length - after.length))
        :: pieces after
    | none => .char c :: pieces rest
  termination_by cs => cs.length
  decreasing_by
    · exact length_lt_of_reference? _h
    · simp

/-- The text of a piece. -/
def Piece.spelling : Piece → List Char
  | .char c => [c]
  | .reference _ spelling => spelling

/-- The key of a piece that is a reference. -/
def Piece.key? : Piece → Option String
  | .char _ => none
  | .reference key _ => some (String.ofList key)

/-- The plain spelling of a reference to a key. -/
def spell (key : List Char) : List Char := opening ++ marker ++ key ++ closing

/-- The keys that a text refers to, in order of their references. -/
def keysIn (s : String) : List String := (pieces s.toList).filterMap Piece.key?

/-- The text of a piece once one key has another name. -/
def Piece.renamed (old new : List Char) : Piece → List Char
  | .char c => [c]
  | .reference key spelling => if key = old then spell new else spelling

/-- The text with every reference to one key replaced by a reference to
another. -/
def rename (old new s : String) : String :=
  String.ofList
    ((pieces s.toList).flatMap (Piece.renamed old.toList new.toList))

/-- The string of a value with a key renamed; a string without double braces is
left alone. -/
def renameInString (old new s : String) : String :=
  if Text.occursIn opening s.toList then rename old new s else s

/-- The keys that the strings inside a value refer to. -/
def keysOf (value : Json) : List String := value.strings.flatMap keysIn

/-- The value with every reference to one key replaced by a reference to
another. -/
def renameIn (old new : String) (value : Json) : Json :=
  value.mapStrings (renameInString old new)

end IntentGraph.Template
