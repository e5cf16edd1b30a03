import InvertedIndex.Json.Value

/-!
Compact JSON text: no blanks, and escapes only for what cannot stand in a string otherwise.
-/

set_option autoImplicit false
set_option relaxedAutoImplicit false

namespace InvertedIndex.Json

def numberedEscape (point : Nat) : List Char :=
  let digits := Nat.toDigits 16 point
  '\\' :: 'u' :: List.replicate (4 - digits.length) '0' ++ digits

def escape (point : Nat) : List Char :=
  match point with
  | 0x22 => ['\\', '"']
  | 0x5C => ['\\', '\\']
  | 0x08 => ['\\', 'b']
  | 0x09 => ['\\', 't']
  | 0x0A => ['\\', 'n']
  | 0x0C => ['\\', 'f']
  | 0x0D => ['\\', 'r']
  | point =>
    if point < 0x20 || isHighSurrogate point || isLowSurrogate point then numberedEscape point
    else [Char.ofNat point]

def writeString (points : List Nat) : List Char :=
  '"' :: points.flatMap escape ++ ['"']

mutual

def write : Json → List Char
  | null => ['n', 'u', 'l', 'l']
  | bool true => ['t', 'r', 'u', 'e']
  | bool false => ['f', 'a', 'l', 's', 'e']
  | number literal => literal
  | string points => writeString points
  | array items => '[' :: writeItems items ++ [']']
  | object members => '\x7b' :: writeMembers members ++ ['\x7d']

def writeItems : List Json → List Char
  | [] => []
  | [item] => write item
  | item :: next :: rest => write item ++ ',' :: writeItems (next :: rest)

def writeMembers : List (List Nat × Json) → List Char
  | [] => []
  | [(name, value)] => writeString name ++ ':' :: write value
  | (name, value) :: next :: rest =>
    writeString name ++ ':' :: write value ++ ',' :: writeMembers (next :: rest)

end

def render (value : Json) : String :=
  String.ofList (write value)

end InvertedIndex.Json
