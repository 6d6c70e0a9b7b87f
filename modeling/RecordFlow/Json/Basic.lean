import RecordFlow.Binary64.Decimal

/-!
# JSON values and their text

`Json` is the type of JSON values; an object keeps its members as they are written, repeated names
included. `Json.chars` is the compact text of a value.
-/

namespace RecordFlow

/-- A JSON value. Integers and other numbers are told apart. -/
inductive Json where
  | null
  | bool (b : Bool)
  | int (n : Int)
  | float (x : Binary64)
  | string (s : String)
  | array (elements : List Json)
  | object (members : List (String × Json))

instance : Inhabited Json := ⟨.null⟩

namespace Json

/-- Numbers are written with a point or with an exponent from `1e-5` down and from `1e+16` up. -/
def numberLayout : Binary64.DecimalLayout where
  positional := fun leading => -5 ≤ leading && leading < 16
  wholeMark := true
  exponentPlus := ['+']
  tie := .even

def intChars (n : Int) : List Char :=
  if n < 0 then '-' :: Nat.toDigits 10 n.natAbs else Nat.toDigits 10 n.natAbs

/-- A character inside a string: quotes, backslashes and controls are escaped, all else stands as
it is. -/
def escapeChar (c : Char) : List Char :=
  match c with
  | '"' => ['\\', '"']
  | '\\' => ['\\', '\\']
  | '\x08' => ['\\', 'b']
  | '\x0c' => ['\\', 'f']
  | '\n' => ['\\', 'n']
  | '\r' => ['\\', 'r']
  | '\t' => ['\\', 't']
  | _ =>
    if c.toNat < 0x20 then
      ['\\', 'u', '0', '0', Nat.digitChar (c.toNat / 16), Nat.digitChar (c.toNat % 16)]
    else [c]

def stringChars (s : String) : List Char :=
  '"' :: (s.toList.flatMap escapeChar ++ ['"'])

mutual

def chars : Json → List Char
  | .null => ['n', 'u', 'l', 'l']
  | .bool true => ['t', 'r', 'u', 'e']
  | .bool false => ['f', 'a', 'l', 's', 'e']
  | .int n => intChars n
  | .float x => x.text numberLayout
  | .string s => stringChars s
  | .array elements => '[' :: (elementChars elements ++ [']'])
  | .object members => '{' :: (memberChars members ++ ['}'])

/-- The elements of an array, separated by commas. -/
def elementChars : List Json → List Char
  | [] => []
  | [j] => chars j
  | j :: rest => chars j ++ ',' :: elementChars rest

/-- The members of an object, separated by commas. -/
def memberChars : List (String × Json) → List Char
  | [] => []
  | [(name, j)] => stringChars name ++ ':' :: chars j
  | (name, j) :: rest => stringChars name ++ ':' :: (chars j ++ ',' :: memberChars rest)

end

def text (j : Json) : String :=
  String.ofList j.chars

end Json

end RecordFlow
