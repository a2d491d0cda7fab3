/-!
# Text from bytes

Reading bytes as UTF-8 where some of them may not be. Every longest start of a character that is not
carried to its end, and every byte that can start none, becomes one replacement character. The
reader takes one byte at a time.
-/

namespace PeerWatch.Text

def replacement : Char := '\ufffd'

/-- A character of which some bytes were read: how many more it takes, the bounds of the next one,
and the bits so far. -/
structure Unfinished where
  missing : Nat
  least : UInt8
  greatest : UInt8
  bits : Nat
  deriving DecidableEq, Repr

/-- What a byte that may start a character leads to. -/
inductive FirstByte
  | whole (c : Char)
  | more (u : Unfinished)
  | none
  deriving DecidableEq, Repr

/-- The first byte of a character. The bounds of the second byte exclude longer forms than needed,
halves of surrogate pairs, and what lies beyond the last code point. -/
def firstByte (b : UInt8) : FirstByte :=
  let n := b.toNat
  if n < 0x80 then .whole (Char.ofNat n)
  else if 0xC2 ≤ n ∧ n ≤ 0xDF then .more ⟨1, 0x80, 0xBF, n - 0xC0⟩
  else if 0xE0 ≤ n ∧ n ≤ 0xEF then
    .more ⟨2, if n = 0xE0 then 0xA0 else 0x80, if n = 0xED then 0x9F else 0xBF, n - 0xE0⟩
  else if 0xF0 ≤ n ∧ n ≤ 0xF4 then
    .more ⟨3, if n = 0xF0 then 0x90 else 0x80, if n = 0xF4 then 0x8F else 0xBF, n - 0xF0⟩
  else .none

/-- The characters of bytes after some bytes of a character. -/
def readLossy : Option Unfinished → List UInt8 → List Char
  | none, [] => []
  | some _, [] => [replacement]
  | none, b :: bs =>
    match firstByte b with
    | .whole c => c :: readLossy none bs
    | .more u => readLossy (some u) bs
    | .none => replacement :: readLossy none bs
  | some u, b :: bs =>
    if u.least ≤ b ∧ b ≤ u.greatest then
      let bits := u.bits * 0x40 + (b.toNat - 0x80)
      if u.missing ≤ 1 then Char.ofNat bits :: readLossy none bs
      else readLossy (some ⟨u.missing - 1, 0x80, 0xBF, bits⟩) bs
    else
      replacement :: match firstByte b with
        | .whole c => c :: readLossy none bs
        | .more u => readLossy (some u) bs
        | .none => replacement :: readLossy none bs

def lossy (bytes : List UInt8) : String := String.ofList (readLossy none bytes)

end PeerWatch.Text
