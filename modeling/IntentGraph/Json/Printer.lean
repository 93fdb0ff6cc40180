import IntentGraph.Json.Basic
import IntentGraph.Number.Shortest

/-!
# JSON text

Two written forms of a value: compact, without any blanks, and indented by two
spaces a level. In both an object's entries stand in the order in which the
value holds them.
-/

namespace IntentGraph.Json

/-- The written form of floating numbers in JSON: a positive exponent carries
its sign. -/
def floatStyle : FloatStyle := ⟨"+"⟩

/-- How one character of a string is written. -/
def escapedChar (c : Char) : List Char :=
  if c = '"' then ['\\', '"']
  else if c = '\\' then ['\\', '\\']
  else if c = '\n' then ['\\', 'n']
  else if c = '\r' then ['\\', 'r']
  else if c = '\t' then ['\\', 't']
  else if c.toNat = 0x08 then ['\\', 'b']
  else if c.toNat = 0x0C then ['\\', 'f']
  else if c.toNat < 0x20 then
    ['\\', 'u', '0', '0', Nat.digitChar (c.toNat / 16),
      Nat.digitChar (c.toNat % 16)]
  else [c]

/-- A string between quotes. -/
def renderString (s : String) : String :=
  String.ofList (['"'] ++ s.toList.flatMap escapedChar ++ ['"'])

/-- The text of a number. -/
def renderNumber : Number → String
  | .integer n => toString n
  | .double x => x.render floatStyle

mutual

/-- The compact text of a value. -/
def compact : Json → String
  | .null => "null"
  | .bool b => if b then "true" else "false"
  | .number n => renderNumber n
  | .string s => renderString s
  | .array items => "[" ++ ",".intercalate (compactItems items) ++ "]"
  | .object fields => "\x7b" ++ ",".intercalate (compactFields fields) ++ "\x7d"

/-- The compact texts of the items of an array. -/
def compactItems : List Json → List String
  | [] => []
  | item :: rest => compact item :: compactItems rest

/-- The compact texts of the entries of an object. -/
def compactFields : List (String × Json) → List String
  | [] => []
  | (key, value) :: rest =>
    (renderString key ++ ":" ++ compact value) :: compactFields rest

end

/-- A bracketed block with one part a line, or just the brackets when there are
no parts. -/
def block (opening closing : String) (depth : Nat) (parts : List String) :
    String :=
  let indent (n : Nat) := "".pushn ' ' (2 * n)
  match parts with
  | [] => opening ++ closing
  | _ =>
    opening ++ "\n" ++ indent (depth + 1)
      ++ (",\n" ++ indent (depth + 1)).intercalate parts
      ++ "\n" ++ indent depth ++ closing

mutual

/-- The indented text of a value that stands at a depth. -/
def prettyAt (depth : Nat) : Json → String
  | .null => "null"
  | .bool b => if b then "true" else "false"
  | .number n => renderNumber n
  | .string s => renderString s
  | .array items => block "[" "]" depth (prettyItems depth items)
  | .object fields => block "\x7b" "\x7d" depth (prettyFields depth fields)

/-- The indented texts of the items of an array at a depth. -/
def prettyItems (depth : Nat) : List Json → List String
  | [] => []
  | item :: rest => prettyAt (depth + 1) item :: prettyItems depth rest

/-- The indented texts of the entries of an object at a depth. -/
def prettyFields (depth : Nat) : List (String × Json) → List String
  | [] => []
  | (key, value) :: rest =>
    (renderString key ++ ": " ++ prettyAt (depth + 1) value)
      :: prettyFields depth rest

end

/-- The indented text of a value. -/
def pretty (value : Json) : String := prettyAt 0 value

end IntentGraph.Json
