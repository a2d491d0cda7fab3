import PeerWatch.Text.Blank
import PeerWatch.Text.Shown

/-!
# Spans of time

Lengths of time in seconds and nanoseconds, as people write them: `1h 30m`, `2.5s`, `500ms`. A text
is read from left to right, one character at a time; the reader knows at any moment whether it
expects a number, or reads the digits before or after a point, or a unit.
-/

namespace PeerWatch.Time

/-- A length of time. -/
structure Span where
  seconds : Nat
  /-- Below one second. -/
  nanos : Nat
  deriving DecidableEq, Repr

namespace Span

def zero : Span := ⟨0, 0⟩

def ofSeconds (n : Nat) : Span := ⟨n, 0⟩

def ofMillis (n : Nat) : Span := ⟨n / 1000, n % 1000 * 1000000⟩

def isZero (s : Span) : Bool := s.seconds == 0 && s.nanos == 0

def millis (s : Span) : Nat := s.seconds * 1000 + s.nanos / 1000000

def maxSeconds : Nat := UInt64.size - 1

end Span

/-! ## Units -/

inductive SpanUnit
  | nanosecond
  | microsecond
  | millisecond
  | second
  | minute
  | hour
  | day
  | week
  | month
  | year
  deriving DecidableEq, Repr

/-- What is measured in a unit, and how many of it a unit has. -/
inductive Measure
  | nanos (n : Nat)
  | seconds (n : Nat)
  deriving DecidableEq, Repr

namespace SpanUnit

def ofName? (name : String) : Option SpanUnit :=
  if ["nanos", "nsec", "ns"].contains name then some .nanosecond
  else if ["usec", "us", "\u00b5s"].contains name then some .microsecond
  else if ["millis", "msec", "ms"].contains name then some .millisecond
  else if ["seconds", "second", "secs", "sec", "s"].contains name then some .second
  else if ["minutes", "minute", "min", "mins", "m"].contains name then some .minute
  else if ["hours", "hour", "hr", "hrs", "h"].contains name then some .hour
  else if ["days", "day", "d"].contains name then some .day
  else if ["weeks", "week", "wk", "wks", "w"].contains name then some .week
  else if ["months", "month", "M"].contains name then some .month
  else if ["years", "year", "yrs", "yr", "y"].contains name then some .year
  else none

def daySeconds : Nat := 86400

def monthSeconds : Nat := 2630016

def yearSeconds : Nat := 31557600

def whole : SpanUnit → Measure
  | nanosecond => .nanos 1
  | microsecond => .nanos 1000
  | millisecond => .nanos 1000000
  | second => .seconds 1
  | minute => .seconds 60
  | hour => .seconds 3600
  | day => .seconds daySeconds
  | week => .seconds (7 * daySeconds)
  | month => .seconds monthSeconds
  | year => .seconds yearSeconds

/-- How fractions of a unit are measured; those of a nanosecond are not. -/
def part : SpanUnit → Option Measure
  | nanosecond => none
  | second => some (.nanos 1000000000)
  | minute => some (.nanos 60000000000)
  | unit => some unit.whole

end SpanUnit

/-! ## Reading -/

inductive SpanError
  | empty
  /-- A number should start at a byte. -/
  | numberExpected (byte : Nat)
  | invalidCharacter (byte : Nat)
  /-- A number without a unit. -/
  | unitNeeded (number : Nat)
  | unknownUnit (name : String)
  /-- A number that is too large, or a fraction that is no whole number of what it is measured in.
  -/
  | overflow
  deriving DecidableEq, Repr

def SpanError.message : SpanError → String
  | .empty => "value was empty"
  | .numberExpected byte => "expected number at " ++ toString byte
  | .invalidCharacter byte => "invalid character at " ++ toString byte
  | .unitNeeded n =>
    "time unit needed, for example " ++ toString n ++ "sec or " ++ toString n ++ "ms"
  | .unknownUnit name =>
    "unknown time unit " ++ Text.shown name
      ++ ", supported units: ns, us/\u00b5s, ms, sec, min, hours, days, weeks, months, years "
      ++ "(and few variations)"
  | .overflow =>
    "number is too large or cannot be represented without a lack of precision "
      ++ "(values below 1ns are not supported)"

def word (n : Nat) : Except SpanError Nat := if n < UInt64.size then .ok n else .error .overflow

/-- The digits after a point, as a fraction. -/
structure Fraction where
  numerator : Nat
  denominator : Nat
  deriving DecidableEq, Repr

def Fraction.push (f : Fraction) (digit : Nat) : Except SpanError Fraction := do
  return ⟨← word (f.numerator * 10 + digit), ← word (f.denominator * 10)⟩

namespace Span

/-- The sum of a span and some seconds and nanoseconds. -/
def add (s : Span) (seconds nanos : Nat) : Except SpanError Span := do
  let nanos ← word (s.nanos + nanos)
  let seconds ← word (s.seconds + seconds + nanos / 1000000000)
  return ⟨seconds, nanos % 1000000000⟩

/-- The sum of a span and a number of what is measured. -/
def addMeasure (s : Span) (n : Nat) : Measure → Except SpanError Span
  | .nanos k => do s.add 0 (← word (n * k))
  | .seconds k => do s.add (← word (n * k)) 0

/-- The sum of a span and a fraction of what is measured. -/
def addPart (s : Span) (f : Fraction) (m : Measure) : Except SpanError Span := do
  let exact (k : Nat) : Except SpanError Nat := do
    let n ← word (f.numerator * k)
    if n % f.denominator = 0 then .ok (n / f.denominator) else .error .overflow
  match m with
  | .nanos k => s.add 0 (← exact k)
  | .seconds k => s.add (← exact k) 0

end Span

/-- A number whose unit is not known yet. -/
structure Amount where
  number : Nat
  fraction : Option Fraction
  deriving DecidableEq, Repr

def Span.addAmount (s : Span) (a : Amount) (name : List Char) : Except SpanError Span :=
  match SpanUnit.ofName? (String.ofList name) with
  | none =>
    if name.isEmpty then .error (.unitNeeded a.number)
    else .error (.unknownUnit (String.ofList name))
  | some unit => do
    let s ← s.addMeasure a.number unit.whole
    match a.fraction, unit.part with
    | none, _ => return s
    | some _, none => .error .overflow
    | some f, some m => s.addPart f m

/-- What the reader is in the middle of. -/
inductive Reading
  /-- It expects a number; it has done so since a byte. -/
  | gap (since : Nat)
  /-- It reads the digits before a point. -/
  | digits (number : Nat)
  /-- It reads the digits after a point; `last` is where an error is reported. -/
  | fraction (number : Nat) (f : Fraction) (last : Nat)
  /-- It reads the name of a unit, kept in reverse. -/
  | unit (a : Amount) (name : List Char)

structure Reader where
  /-- The byte at which the next character starts. -/
  byte : Nat
  /-- The sum so far, if there was a number at all. -/
  total : Option Span
  reading : Reading

namespace Reader

def start : Reader := ⟨0, none, .gap 0⟩

def isUnitLetter (c : Char) : Bool := c.isAlpha || c == '\u00b5'

def digit (c : Char) : Nat := c.toNat - '0'.toNat

def close (r : Reader) (a : Amount) (name : List Char) : Except SpanError Span :=
  (r.total.getD .zero).addAmount a name.reverse

def step (r : Reader) (c : Char) : Except SpanError Reader := do
  let next := r.byte + c.utf8Size
  match r.reading with
  | .gap since =>
    if c.isDigit then return { r with byte := next, reading := .digits (digit c) }
    else if Text.isBlank c then return { r with byte := next }
    else .error (.numberExpected since)
  | .digits n =>
    if c.isDigit then
      return { r with byte := next, reading := .digits (← word (n * 10 + digit c)) }
    else if Text.isBlank c then return { r with byte := next }
    else if isUnitLetter c then
      return { r with byte := next, reading := .unit ⟨n, none⟩ [c] }
    else if c = '.' then return { r with byte := next, reading := .fraction n ⟨0, 1⟩ r.byte }
    else .error (.invalidCharacter r.byte)
  | .fraction n f last =>
    if c.isDigit then
      return { r with byte := next, reading := .fraction n (← f.push (digit c)) next }
    else if Text.isBlank c then return { r with byte := next, reading := .fraction n f next }
    else if isUnitLetter c ∧ f.denominator ≠ 1 then
      return { r with byte := next, reading := .unit ⟨n, some f⟩ [c] }
    else .error (.invalidCharacter last)
  | .unit a name =>
    if c.isDigit then
      return ⟨next, some (← r.close a name), .digits (digit c)⟩
    else if Text.isBlank c then return ⟨next, some (← r.close a name), .gap next⟩
    else if isUnitLetter c then return { r with byte := next, reading := .unit a (c :: name) }
    else .error (.invalidCharacter r.byte)

def finish (r : Reader) : Except SpanError Span :=
  match r.reading with
  | .gap _ =>
    match r.total with
    | some s => .ok s
    | none => .error .empty
  | .digits n => r.close ⟨n, none⟩ []
  | .fraction n f last =>
    if f.denominator = 1 then .error (.invalidCharacter last) else r.close ⟨n, some f⟩ []
  | .unit a name => r.close a name

end Reader

/-- The span that a text describes. Zero alone needs no unit. -/
def Span.read (s : String) : Except SpanError Span :=
  if s = "0" then .ok .zero
  else s.toList.foldlM Reader.step Reader.start >>= Reader.finish

/-! ## Writing -/

/-- A number with the name of its unit, unless it is zero. -/
def item (n : Nat) (name : String) : List String := if n = 0 then [] else [toString n ++ name]

/-- A number with the name of its unit in singular or plural, unless it is zero. -/
def itemPlural (n : Nat) (name : String) : List String :=
  item n (if n > 1 then name ++ "s" else name)

/-- The items of a span, from years down to nanoseconds. -/
def Span.items (s : Span) : List String :=
  let inYear := s.seconds % SpanUnit.yearSeconds
  let inMonth := inYear % SpanUnit.monthSeconds
  let inDay := inMonth % SpanUnit.daySeconds
  itemPlural (s.seconds / SpanUnit.yearSeconds) "year"
    ++ itemPlural (inYear / SpanUnit.monthSeconds) "month"
    ++ itemPlural (inMonth / SpanUnit.daySeconds) "day"
    ++ item (inDay / 3600) "h" ++ item (inDay % 3600 / 60) "m" ++ item (inDay % 60) "s"
    ++ item (s.nanos / 1000000) "ms" ++ item (s.nanos / 1000 % 1000) "us"
    ++ item (s.nanos % 1000) "ns"

def Span.text (s : Span) : String :=
  if s.isZero then "0s" else " ".intercalate s.items

end PeerWatch.Time
