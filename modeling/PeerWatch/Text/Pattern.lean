/-!
# Patterns with a preferred match

A pattern describes pieces of a text. Where it can match in several ways there is an order of
preference: the left of two alternatives first, a greedy run as long as it can, a reluctant one as
short as it can. Matching tries the ways in that order until the rest of the match succeeds too.
-/

namespace PeerWatch.Text

/-- A place between two characters: the one before it, if any, and the text ahead. -/
structure Cursor where
  before : Option Char
  ahead : List Char

/-- The conditions on a place that consume nothing. -/
inductive Edge
  | textStart
  | textEnd
  | lineStart
  | lineEnd

/-- Whether the condition holds at a place. Lines end at a line feed only. -/
def Edge.holds (at_ : Cursor) : Edge → Bool
  | .textStart => at_.before.isNone
  | .textEnd => at_.ahead.isEmpty
  | .lineStart => at_.before.all (· == '\n')
  | .lineEnd => at_.ahead.head?.all (· == '\n')

/-- The order in which the lengths of a run are tried. -/
inductive Greed
  | longestFirst
  | shortestFirst

inductive Pattern
  /-- Matches everywhere and consumes nothing. -/
  | empty
  | edge (e : Edge)
  /-- One character of a set. -/
  | one (set : Char → Bool)
  /-- Any number of characters of a set. -/
  | run (set : Char → Bool) (greed : Greed)
  | seq (first second : Pattern)
  /-- The first alternative is preferred. -/
  | either (first second : Pattern)
  /-- Any number of rounds of a pattern that consumes something, as many as possible. -/
  | rounds (body : Pattern)

/-- Tries a run of characters of a set, and `k` after it. -/
def matchRun {α : Type} (set : Char → Bool) (greed : Greed) (k : Cursor → Option α)
    (before : Option Char) : List Char → Option α
  | [] => k ⟨before, []⟩
  | c :: cs =>
    let stop := fun (_ : Unit) => k ⟨before, c :: cs⟩
    let go := fun (_ : Unit) => if set c then matchRun set greed k (some c) cs else none
    match greed with
    | .longestFirst => (go ()).orElse stop
    | .shortestFirst => (stop ()).orElse go

/-- Tries at most `n` rounds of `body`, as many as possible, and `k` after them. -/
def matchRounds {α : Type} (body : Cursor → (Cursor → Option α) → Option α)
    (k : Cursor → Option α) : Nat → Cursor → Option α
  | 0, c => k c
  | n + 1, c => (body c (matchRounds body k n)).orElse fun _ => k c

/-- Tries the pattern at a place, and `k` at the place where it ends: the first success in the
order of preference. Each round consumes something, so there are no more rounds than characters. -/
def Pattern.match? {α : Type} : Pattern → Cursor → (Cursor → Option α) → Option α
  | .empty, c, k => k c
  | .edge e, c, k => if e.holds c then k c else none
  | .one set, c, k =>
    match c.ahead with
    | x :: xs => if set x then k ⟨some x, xs⟩ else none
    | [] => none
  | .run set greed, c, k => matchRun set greed k c.before c.ahead
  | .seq p q, c, k => p.match? c fun c' => q.match? c' k
  | .either p q, c, k => (p.match? c k).orElse fun _ => q.match? c k
  | .rounds p, c, k => matchRounds (fun c' k' => p.match? c' k') k c.ahead.length c

/-! ## Patterns built from others -/

namespace Pattern

/-- The pattern or nothing, preferably the pattern. -/
def optional (p : Pattern) : Pattern := .either p .empty

def some (set : Char → Bool) (greed : Greed) : Pattern := .seq (.one set) (.run set greed)

def all : List Pattern → Pattern
  | [] => .empty
  | [p] => p
  | p :: ps => .seq p (all ps)

/-- At most `n` characters of a set, as many as possible. -/
def upTo (set : Char → Bool) : Nat → Pattern
  | 0 => .empty
  | n + 1 => optional (.seq (.one set) (upTo set n))

/-- A fixed word whose characters are compared by `same`. -/
def word (same : Char → Char → Bool) (cs : List Char) : Pattern :=
  all (cs.map fun c => .one (same c))

end Pattern

/-! ## Substitution -/

/-- A piece of a replacement: fixed text, or what one part of the match consumed. -/
inductive Insert
  | text (s : String)
  | part (i : Nat)

/-- A substitution: the parts of a match, one after the other, and what is put in its place. -/
structure Substitution where
  parts : List Pattern
  inserts : List Insert

/-- Matches the parts at a place: what each of them consumed, and the place after the last. -/
def matchParts? : List Pattern → Cursor → Option (List (List Char) × Cursor)
  | [], c => some ([], c)
  | p :: ps, c =>
    p.match? c fun c' =>
      (matchParts? ps c').map fun (pieces, last) =>
        (c.ahead.take (c.ahead.length - c'.ahead.length) :: pieces, last)

/-- The replacement for a match whose parts consumed `pieces`. -/
def Substitution.fill (sub : Substitution) (pieces : List (List Char)) : List Char :=
  sub.inserts.flatMap fun
    | .text s => s.toList
    | .part i => pieces.getD i []

/-- Replaces the matches that start at a place or behind it, from the left and without overlap. The
number bounds the places that are looked at. -/
def Substitution.applyFrom (sub : Substitution) : Nat → Cursor → List Char
  | 0, c => c.ahead
  | n + 1, c =>
    match matchParts? sub.parts c with
    | some (pieces, next) => sub.fill pieces ++ sub.applyFrom n next
    | none =>
      match c.ahead with
      | [] => []
      | x :: xs => x :: sub.applyFrom n ⟨some x, xs⟩

/-- Replaces every match in a text. A match consumes something, so there is at most one place to
look at for each character and one at the end. -/
def Substitution.apply (sub : Substitution) (cs : List Char) : List Char :=
  sub.applyFrom (cs.length + 1) ⟨none, cs⟩

end PeerWatch.Text
