import PeerWatch.Text.AlphanumericTable
import PeerWatch.Text.Casing

/-!
# Characters of words

Letters and numerals of all scripts.
-/

namespace PeerWatch.Text

/-- The property Alphabetic: the character is a letter, or is used like one. -/
def isAlphabetic (c : Char) : Bool := inRanges alphabeticRanges c.toNat

def isNumeral (c : Char) : Bool := inRanges numeralRanges c.toNat

def isAlphanumeric (c : Char) : Bool := isAlphabetic c || isNumeral c

end PeerWatch.Text
