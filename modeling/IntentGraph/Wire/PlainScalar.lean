import IntentGraph.Json.Basic

/-!
# Plain scalars

The meaning of an unquoted YAML scalar. Asked for without a type, it is the
first of these that its spelling allows: null, a boolean, an integer, a
double-precision number, a string.
-/

namespace IntentGraph.PlainScalar

/-- Whether a scalar is a word for null. -/
def isNullWord (s : String) : Bool := ["null", "Null", "NULL", "~"].contains s

/-- Whether a scalar spells null; an empty one does. -/
def isNull (s : String) : Bool := s = "" || isNullWord s

/-- The boolean that a scalar spells. -/
def bool? (s : String) : Option Bool :=
  if ["true", "True", "TRUE"].contains s then some true
  else if ["false", "False", "FALSE"].contains s then some false
  else none

/-- The value of a digit in a base of at most sixteen. -/
def digit? (base : Nat) (c : Char) : Option Nat :=
  let value :=
    if c.isDigit then c.toNat - '0'.toNat
    else if 'a' ≤ c ∧ c ≤ 'f' then c.toNat - 'a'.toNat + 10
    else if 'A' ≤ c ∧ c ≤ 'F' then c.toNat - 'A'.toNat + 10
    else base
  if value < base then some value else none

/-- The natural that a nonempty list of digits spells in a base. -/
def natural? (base : Nat) (cs : List Char) : Option Nat :=
  if cs.isEmpty then none
  else (cs.mapM (digit? base)).map fun digits =>
    digits.foldl (fun n d => n * base + d) 0

/-- The natural that digits with an optional base mark spell. -/
def magnitude? : List Char → Option Nat
  | '0' :: 'x' :: digits => natural? 16 digits
  | '0' :: 'o' :: digits => natural? 8 digits
  | '0' :: 'b' :: digits => natural? 2 digits
  | digits => natural? 10 digits

/-- Digits with a zero in front of more digits are no number. -/
def isPadded : List Char → Bool
  | '0' :: rest => !rest.isEmpty && rest.all Char.isDigit
  | _ => false

/-- The sign of a scalar and what follows it. -/
def splitSign : List Char → Bool × List Char
  | '-' :: rest => (true, rest)
  | '+' :: rest => (false, rest)
  | cs => (false, cs)

/-- The natural that a scalar spells, of any size. A minus sign is none that a
natural can have. -/
def unsigned? (s : String) : Option Nat :=
  let (negative, rest) := splitSign s.toList
  if negative || isPadded rest then none else magnitude? rest

/-- The integer that a scalar spells, of any size. -/
def integer? (s : String) : Option Int :=
  let (negative, rest) := splitSign s.toList
  if isPadded rest then none
  else (magnitude? rest).map fun n => if negative then -(n : Int) else n

/-- The exponent of a number, from its mark on: nothing stands for zero. -/
def exponent? : List Char → Option Int
  | [] => some 0
  | c :: rest =>
    if c = 'e' ∨ c = 'E' then
      let (negative, digits) := splitSign rest
      (natural? 10 digits).map fun n => if negative then -(n : Int) else n
    else none

/-- The finite number that a scalar spells in decimal, rounded once. -/
def double? (s : String) : Option Binary64 :=
  let (negative, rest) := splitSign s.toList
  let whole := rest.takeWhile Char.isDigit
  let (fraction, tail) := match rest.dropWhile Char.isDigit with
    | '.' :: after =>
      (after.takeWhile Char.isDigit, after.dropWhile Char.isDigit)
    | after => ([], after)
  match natural? 10 (whole ++ fraction), exponent? tail with
  | some digits, some exponent =>
    Binary64.ofDecimal negative digits (exponent - fraction.length)
  | _, _ => none

/-- Whether a scalar spells an infinity, or no number at all; no value stands
for either. -/
def isNonFinite (s : String) : Bool :=
  [".inf", ".Inf", ".INF", "+.inf", "+.Inf", "+.INF", "-.inf", "-.Inf", "-.INF",
    ".nan", ".NaN", ".NAN"].contains s

/-- Whether an integer fits into 128 bits, signed or not. -/
def isWide (n : Int) : Bool :=
  -(Nat.pow 2 127 : Int) ≤ n && n < (Nat.pow 2 128 : Int)

/-- What a scalar spells. An integer of more than 64 bits is `wide` up to 128
bits. -/
inductive Spelling where
  | null
  | bool (value : Bool)
  | integer (value : Int)
  | wide
  | double (value : Binary64)
  | nonFinite
  | text
  deriving DecidableEq

/-- What a scalar spells as an integer. Beyond 128 bits it is none. -/
def spelledInteger? (s : String) : Option Spelling :=
  (integer? s).bind fun n =>
    if -(Nat.pow 2 63 : Int) ≤ n ∧ n < (Nat.pow 2 64 : Int) then
      some (.integer n)
    else if isWide n then some .wide
    else none

/-- What a scalar spells as a floating number. -/
def spelledDouble? (s : String) : Option Spelling :=
  if isNonFinite s then some .nonFinite else (double? s).map .double

/-- What a scalar spells when it is asked for without a type. -/
def spelling (s : String) : Spelling :=
  let (_, digits) := splitSign s.toList
  if isNull s then .null
  else match bool? s, spelledInteger? s with
    | some b, _ => .bool b
    | none, some integer => integer
    | none, none =>
      if isPadded digits then .text else (spelledDouble? s).getD .text

end IntentGraph.PlainScalar
