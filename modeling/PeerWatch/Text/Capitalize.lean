import PeerWatch.Text.Blank
import PeerWatch.Text.Casing

/-!
# Capitalised words

A word starts at an ASCII letter, digit or underscore and runs to the next blank. Capitalising a
text puts the first character of every word into upper case and the rest of the word, taken as one
piece, into lower case. What stands outside words is kept.
-/

namespace PeerWatch.Text

def startsWord (c : Char) : Bool := c.isAlphanum || c == '_'

def isSolid (c : Char) : Bool := !isBlank c

/-- The words of a text, found from the left, each capitalised in its place. -/
def capitalizeChars : List Char → List Char
  | [] => []
  | c :: cs =>
    if startsWord c then
      c.toUpper :: lower (cs.takeWhile isSolid) ++ capitalizeChars (cs.dropWhile isSolid)
    else c :: capitalizeChars cs
termination_by cs => cs.length
decreasing_by
  · simpa using Nat.lt_succ_of_le (List.dropWhile_suffix isSolid).length_le
  · simp

def capitalize (s : String) : String := String.ofList (capitalizeChars s.toList)

end PeerWatch.Text
