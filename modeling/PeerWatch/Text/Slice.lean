/-!
# Slices by bytes

Pieces of a text between two places that are counted in bytes of its UTF-8 form. There is no slice
where one of the places is inside of a character or beyond the end.
-/

namespace PeerWatch.Text

/-- What stands after the first `n` bytes. -/
def afterBytes? (n : Nat) : List Char → Option (List Char)
  | [] => if n = 0 then some [] else none
  | c :: cs =>
    if n = 0 then some (c :: cs)
    else if c.utf8Size ≤ n then afterBytes? (n - c.utf8Size) cs
    else none

/-- The first `n` bytes. -/
def firstBytes? (n : Nat) : List Char → Option (List Char)
  | [] => if n = 0 then some [] else none
  | c :: cs =>
    if n = 0 then some []
    else if c.utf8Size ≤ n then (firstBytes? (n - c.utf8Size) cs).map (c :: ·)
    else none

def slice? (start stop : Nat) (cs : List Char) : Option (List Char) :=
  (afterBytes? start cs).bind (firstBytes? (stop - start))

end PeerWatch.Text
