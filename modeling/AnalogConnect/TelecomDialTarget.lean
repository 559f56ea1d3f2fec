import AnalogConnect.Library.Text
import AnalogConnect.Library.Trimming

/-!
# The phone's dial targets

What the phone's dialler passes on. Java counts a target's UTF-16 units and asks of each whether it
is a digit of any script; a character outside the basic plane is two surrogates, which are none.
-/

namespace AnalogConnect

namespace TelecomDialTarget

/-- The zeros of the scripts whose decimal digits are in the basic plane. -/
def digitZeros : List ℕ :=
  [0x30, 0x660, 0x6F0, 0x7C0, 0x966, 0x9E6, 0xA66, 0xAE6, 0xB66, 0xBE6, 0xC66, 0xCE6, 0xD66, 0xDE6,
    0xE50, 0xED0, 0xF20, 0x1040, 0x1090, 0x17E0, 0x1810, 0x1946, 0x19D0, 0x1A80, 0x1A90, 0x1B50,
    0x1BB0, 0x1C40, 0x1C50, 0xA620, 0xA8D0, 0xA900, 0xA9D0, 0xA9F0, 0xAA50, 0xABF0, 0xFF10]

/-- `Character.isDigit` of a `char`. -/
def isDigit (c : Char) : Bool :=
  digitZeros.any fun first => decide (first ≤ c.toNat ∧ c.toNat ≤ first + 9)

def isDialChar (c : Char) : Bool := isDigit c || c == '+' || c == '*' || c == '#'

/-- What `String.trim` takes off. -/
def isTrimmed (c : Char) : Bool := decide (c ≤ ' ')

def validate (candidate : Option String) : Except String String :=
  let target := String.ofList (Trimming.trimBy isTrimmed (candidate.getD "").toList)
  if target = "" ∨ 32 < Text.utf16Length target then .error "Dial target is invalid"
  else if target.toList.all isDialChar then .ok target
  else .error "Dial target is invalid"

end TelecomDialTarget

end AnalogConnect
