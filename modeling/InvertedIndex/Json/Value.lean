/-!
JSON values. A string is kept as code points, of which an escape may spell one half of a surrogate
pair, and a number as its literal. Members of an object keep their order and may repeat a name.
-/

set_option autoImplicit false
set_option relaxedAutoImplicit false

namespace InvertedIndex

inductive Json
  | null
  | bool (value : Bool)
  | number (literal : List Char)
  | string (points : List Nat)
  | array (items : List Json)
  | object (members : List (List Nat × Json))

namespace Json

def isHighSurrogate (point : Nat) : Bool :=
  0xD800 ≤ point && point ≤ 0xDBFF

def isLowSurrogate (point : Nat) : Bool :=
  0xDC00 ≤ point && point ≤ 0xDFFF

def joinSurrogates (high low : Nat) : Nat :=
  0x10000 + (high - 0xD800) * 0x400 + (low - 0xDC00)

/-- The characters that code points spell. A half without the other half spells nothing. -/
def characters? : List Nat → Option (List Char)
  | [] => some []
  | [p] =>
    if isHighSurrogate p || isLowSurrogate p then none else some [Char.ofNat p]
  | p :: q :: rest =>
    if isHighSurrogate p && isLowSurrogate q then
      (characters? rest).map (Char.ofNat (joinSurrogates p q) :: ·)
    else if isHighSurrogate p || isLowSurrogate p then none
    else (characters? (q :: rest)).map (Char.ofNat p :: ·)

def pointsOf (text : String) : List Nat :=
  text.toList.map Char.toNat

def textOf? (points : List Nat) : Option String :=
  (characters? points).map String.ofList

def ofText (text : String) : Json :=
  .string (pointsOf text)

def ofNat (n : Nat) : Json :=
  .number (Nat.toDigits 10 n)

def text? : Json → Option String
  | string points => textOf? points
  | _ => none

def bool? : Json → Option Bool
  | bool value => some value
  | _ => none

def items? : Json → Option (List Json)
  | array items => some items
  | _ => none

def nat? : Json → Option Nat
  | number literal =>
    if literal.all Char.isDigit then
      some (literal.foldl (fun n c => n * 10 + (c.toNat - '0'.toNat)) 0)
    else none
  | _ => none

def uint64? (value : Json) : Option UInt64 :=
  match value.nat? with
  | some n => if n < UInt64.size then some (UInt64.ofNat n) else none
  | none => none

def only? (members : List (String × Json)) (name : String) : Option Json :=
  match members.filter fun member => member.1 = name with
  | [member] => some member.2
  | _ => none

/-- The values of some fields: the members of an object with these names, each present once, among
any others; or the items of an array, which are these fields in this order and no more. -/
def fields? (names : List String) : Json → Option (List Json)
  | array items => if items.length = names.length then some items else none
  | object members => do
    let named ← members.mapM fun member => (textOf? member.1).map fun name => (name, member.2)
    names.mapM (only? named)
  | _ => none

end Json

end InvertedIndex
