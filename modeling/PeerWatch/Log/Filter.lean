import PeerWatch.Log.Event
import PeerWatch.Log.ValuePattern
import PeerWatch.Text.Slice

/-!
# Log filters

A filter tells which events are logged. It is written as directives with commas between them. A
directive is a level for all events, or says which events it concerns: those of a part of the
program, those inside of a span, which this program has none of, those with a certain field. Of the
directives that concern an event the most specific decides, and where none does nothing is logged.
-/

namespace PeerWatch.Log

/-- The least level that is logged, if any is. -/
abbrev Threshold := Option Level

def Threshold.admits (t : Threshold) (level : Level) : Bool :=
  t.any fun least => least.rank ≤ level.rank

/-- A number in digits, perhaps with a plus sign. -/
def number? (cs : List Char) : Option Nat :=
  let digits := match cs with
    | '+' :: digits => digits
    | digits => digits
  if digits ≠ [] ∧ digits.all Char.isDigit then
    some (digits.foldl (fun n c => 10 * n + (c.toNat - '0'.toNat)) 0)
  else none

def thresholds : List Threshold :=
  [none, some .error, some .warn, some .info, some .debug, some .trace]

/-- The threshold of a number, or of a name in any case. -/
def threshold? (cs : List Char) : Option Threshold :=
  match number? cs with
  | some n => thresholds[n]?
  | none =>
    match String.ofList (cs.map Char.toLower) with
    | "off" => some none
    | "error" => some (some .error)
    | "warn" => some (some .warn)
    | "info" => some (some .info)
    | "debug" => some (some .debug)
    | "trace" => some (some .trace)
    | _ => none

/-- A field that a directive asks for. -/
structure FieldMatch where
  name : String
  /-- The directive asks for a value too. -/
  valued : Bool
  deriving DecidableEq, Repr

structure Directive where
  /-- How the names of the parts start that are meant, if not all are. -/
  target : Option String
  /-- The span that is meant. -/
  span : Option String
  field : Option FieldMatch
  threshold : Threshold
  deriving DecidableEq, Repr

abbrev Filter := List Directive

/-! ## Reading -/

/-- Where a place in a directive is, and at which byte it began. -/
inductive Section
  | start
  /-- In the name of a part, or in a level alone. -/
  | target
  | span (start : Nat)
  | field (start : Nat)
  /-- After the brace that closes a field. -/
  | fieldEnd
  /-- After the bracket that closes a span. -/
  | spanEnd
  | level (start : Nat)
  deriving DecidableEq, Repr

/-- A directive of which a part was read. -/
structure Draft where
  place : Section
  target : Option String
  span : Option String
  field : Option FieldMatch
  deriving DecidableEq, Repr

/-- Whether a name of a part can start with a character. -/
def canStart (c : Char) : Bool := c == '-' || c == ':' || c == '_' || Text.isAlphanumeric c

/-- The field of a text: a name, and perhaps a value after an equals sign, of which there may be
more. -/
def field? (cs : List Char) : Option FieldMatch :=
  if cs = [] then none
  else
    match Text.cut '=' cs with
    | name :: value :: _ =>
      if isValuePattern value then some ⟨String.ofList name, true⟩ else none
    | _ => some ⟨String.ofList cs, false⟩

namespace Draft

def start : Draft := ⟨.start, none, none, none⟩

/-- Reads the character at byte `i`. Names are taken from `piece`. -/
def step (piece : List Char) (d : Draft) (i : Nat) (c : Char) : Option Draft :=
  let since := fun start => Text.slice? start i piece
  match d.place with
  | .start =>
    if c = '[' then some { d with place := .span (i + 1) }
    else if canStart c then some { d with place := .target }
    else none
  | .target =>
    if c = '=' then
      (since 0).map fun t => { d with place := .level (i + 1), target := some (String.ofList t) }
    else if c = '[' then
      (since 0).map fun t => { d with place := .span (i + 1), target := some (String.ofList t) }
    else some d
  | .span start =>
    if c = ']' then
      (since start).map fun s => { d with place := .spanEnd, span := some (String.ofList s) }
    else if c = '{' then
      (since start).map fun s =>
        { d with place := .field (i + 1), span := if s = [] then none else some (String.ofList s) }
    else some d
  | .field start =>
    if c = '}' then
      ((since start).bind field?).map fun f => { d with place := .fieldEnd, field := some f }
    else some d
  | .fieldEnd => if c = ']' then some { d with place := .spanEnd } else none
  | .spanEnd => if c = '=' then some { d with place := .level (i + 1) } else none
  | .level _ => some d

/-- Reads characters from byte `i` on. -/
def run (piece : List Char) (d : Draft) (i : Nat) : List Char → Option Draft
  | [] => some d
  | c :: cs => (d.step piece i c).bind fun d => d.run piece (i + c.utf8Size) cs

/-- The directive of a draft that was read to its end. Without a level everything is logged. -/
def finish (piece : List Char) (d : Draft) : Option Directive :=
  match d.place with
  | .target =>
    match threshold? piece with
    | some t => some ⟨none, d.span, d.field, t⟩
    | none => some ⟨some (String.ofList piece), d.span, d.field, some .trace⟩
  | .spanEnd => some ⟨d.target, d.span, d.field, some .trace⟩
  | .level start => do
    let level ← Text.afterBytes? start piece
    let t ← if level = [] then some (some .trace) else threshold? level
    some ⟨d.target, d.span, d.field, t⟩
  | _ => none

end Draft

/-- The directive of a text. Blanks at its ends do not count when its parts are told apart, but they
do when the names are taken from it. So a blank after a level is a part of the level, and a blank at
the start moves every name by one place. -/
def Directive.read? (piece : List Char) : Option Directive :=
  (Draft.start.run piece 0 (Text.trim piece)).bind (Draft.finish piece)

/-! ## Deciding -/

namespace Directive

/-- Whether a directive concerns an event. One that names a span, or asks for a value, concerns only
what happens inside of spans. -/
def concerns (d : Directive) (e : Event) : Bool :=
  d.span.isNone
    && d.target.all (fun t => t.toList.isPrefixOf e.target.toList)
    && d.field.all (fun f => !f.valued && e.hasField f.name)

/-- How long a name a directive gives; none is shorter than any. -/
def targetLength (d : Directive) : Nat :=
  match d.target with
  | some t => t.utf8ByteSize + 1
  | none => 0

/-- Whether a directive is at least as specific as another: it gives a longer name, or one as long
and a field where the other has none or one that comes earlier in the alphabet. -/
def specificAs (d other : Directive) : Bool :=
  if d.targetLength = other.targetLength then
    match d.field, other.field with
    | some f, some g => g.name ≤ f.name
    | none, some _ => false
    | _, none => true
  else other.targetLength < d.targetLength

end Directive

namespace Filter

def ofLevel (level : Level) : Filter := [⟨none, none, none, some level⟩]

/-- The filter of a text, if all its directives can be read. One without any logs errors. -/
def read? (s : String) : Option Filter := do
  let pieces := (Text.cut ',' s.toList).filter (· ≠ [])
  let directives ← pieces.mapM Directive.read?
  if directives = [] then return ofLevel .error else return directives

/-- The directive that decides on an event. Of two that are as specific the later counts. -/
def decisive? (f : Filter) (e : Event) : Option Directive :=
  (f.filter (·.concerns e)).foldl (fun best d =>
    match best with
    | some b => if d.specificAs b then some d else some b
    | none => some d) none

def passes (f : Filter) (e : Event) : Bool :=
  (f.decisive? e).any fun d => d.threshold.admits e.level

end Filter
end PeerWatch.Log
