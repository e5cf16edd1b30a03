import InvertedIndex.Text.DefaultIgnorable
import InvertedIndex.Text.GraphemeExtend
import InvertedIndex.Text.Hex
import InvertedIndex.Text.Unprintable

/-!
Text in quotation marks, for messages. Characters that a reader could not see, or could not tell
from the marks, are written as escapes.
-/

set_option autoImplicit false
set_option relaxedAutoImplicit false

namespace InvertedIndex.Text

/-- The two halfwidth sound marks of katakana. They belong to the character before them, but take a
column of their own and can be read there. -/
def isSoundMark (c : Char) : Bool :=
  c == '\uff9e' || c == '\uff9f'

def isCombining (c : Char) : Bool :=
  inRanges graphemeExtend c.toNat && !isSoundMark c

def isInvisible (c : Char) : Bool :=
  inRanges unprintable c.toNat || inRanges defaultIgnorable c.toNat

/-- Whether a character is written by its number: by itself it would not be seen, or not told from
the character before it. -/
def isShownByNumber (c : Char) : Bool :=
  isInvisible c || isCombining c

def numbered (c : Char) : List Char :=
  '\\' :: 'u' :: '\x7b' :: Nat.toDigits 16 c.toNat ++ ['\x7d']

def quotedChar (c : Char) : List Char :=
  match c with
  | '\x00' => ['\\', '0']
  | '\t' => ['\\', 't']
  | '\n' => ['\\', 'n']
  | '\r' => ['\\', 'r']
  | '"' => ['\\', '"']
  | '\\' => ['\\', '\\']
  | c => if isShownByNumber c then numbered c else [c]

def quoted (text : String) : String :=
  String.ofList ('"' :: text.toList.flatMap quotedChar ++ ['"'])

end InvertedIndex.Text
