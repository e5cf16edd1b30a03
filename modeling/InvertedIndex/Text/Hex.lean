set_option autoImplicit false
set_option relaxedAutoImplicit false

namespace InvertedIndex.Text

/-- A number in hexadecimal, with zeros in front up to `width` digits. -/
def hexPadded (width n : Nat) : String :=
  let digits := Nat.toDigits 16 n
  String.ofList (List.replicate (width - digits.length) '0' ++ digits)

end InvertedIndex.Text
