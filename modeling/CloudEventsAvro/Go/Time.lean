import Mathlib.Data.List.DropRight
import CloudEventsAvro.Go.Calendar

/-!
# `Go.Time` — `time.Time` and `Format` with the RFC 3339 layouts

The binding writes an event's time as `t.Format(time.RFC3339Nano)` (`avro.go`, `ToAvro` and
`attributeValueFor`) and reads it back with `time.Parse` (`Go.TimeParse`).

A `Time` is what those functions observe: the instant, and the offset of its location at that instant.
A layout is the list of elements Go's `nextStdChunk` cuts it into, and `Time.format` interprets the list
element by element, as Go's `appendFormat` does, with Go's own `appendInt`, `appendNano` and zone code:

- years are printed with at least four digits, so a year of 10000 or more prints five or more and a
  negative year prints a `-` first;
- the nanoseconds are printed with nine digits less their trailing zeros, and not at all when zero;
- the offset is printed as `Z`, or as hours and minutes with its seconds dropped.
-/

namespace CloudEvents.Go

/-- A Go `time.Time` as `Format`, `Parse`, `Equal` and `IsZero` observe it: the instant, in seconds since
1970-01-01 UTC and nanoseconds within that second, and the offset east of UTC, in seconds, of its
location at that instant. -/
structure Time where
  unix : Int
  nsec : Nat
  nsec_lt : nsec < 1000000000
  offset : Int
  deriving DecidableEq

/-- Seconds from 0001-01-01 to 1970-01-01 (Go's `-(unixToInternal)`). -/
def unixToInternal : Int := 62135596800

/-- `time.Time{}`: 0001-01-01 00:00:00 UTC. -/
def Time.zero : Time := ⟨-unixToInternal, 0, by decide, 0⟩

/-- `t.IsZero()`: the instant of `time.Time{}`, in whatever location. -/
def Time.IsZero (t : Time) : Prop := t.unix = -unixToInternal ∧ t.nsec = 0

/-- `t.Equal(u)`: the same instant. -/
def Time.Equal (t u : Time) : Prop := t.unix = u.unix ∧ t.nsec = u.nsec

instance (t : Time) : Decidable t.IsZero := inferInstanceAs (Decidable (_ ∧ _))
instance (t u : Time) : Decidable (t.Equal u) := inferInstanceAs (Decidable (_ ∧ _))

/-- Seconds since 0001-01-01 00:00:00 on the wall clock of `t`'s location. -/
def Time.localSeconds (t : Time) : Int := t.unix + unixToInternal + t.offset

/-- `t.Date()`: year, month and day in `t`'s location. -/
def Time.date (t : Time) : Int × Nat × Nat := absDate (t.localSeconds / 86400)

/-- `t.Year()`. -/
def Time.year (t : Time) : Int := t.date.1

/-- `t.Clock()`: hour, minute and second in `t`'s location. -/
def Time.clock (t : Time) : Nat × Nat × Nat :=
  let s := (t.localSeconds % 86400).toNat
  (s / 3600, s % 3600 / 60, s % 60)

/-! ## Layouts -/

/-- The layout elements of `time.RFC3339` and `time.RFC3339Nano`, as Go's `nextStdChunk` cuts them. -/
inductive Chunk
  /-- a literal character -/
  | lit (c : Char)
  /-- `2006` -/
  | longYear
  /-- `01` -/
  | zeroMonth
  /-- `02` -/
  | zeroDay
  /-- `15` -/
  | hour
  /-- `04` -/
  | zeroMinute
  /-- `05` -/
  | zeroSecond
  /-- `.999999999` -/
  | fracSecond9
  /-- `Z07:00` -/
  | iso8601ColonTZ
  deriving DecidableEq

/-- `time.RFC3339`, `2006-01-02T15:04:05Z07:00`. -/
def RFC3339 : List Chunk :=
  [.longYear, .lit '-', .zeroMonth, .lit '-', .zeroDay, .lit 'T', .hour, .lit ':', .zeroMinute,
    .lit ':', .zeroSecond, .iso8601ColonTZ]

/-- `time.RFC3339Nano`, `2006-01-02T15:04:05.999999999Z07:00`. -/
def RFC3339Nano : List Chunk :=
  [.longYear, .lit '-', .zeroMonth, .lit '-', .zeroDay, .lit 'T', .hour, .lit ':', .zeroMinute,
    .lit ':', .zeroSecond, .fracSecond9, .iso8601ColonTZ]

/-! ## `Format` -/

/-- The last `w` decimal digits of `u`, most significant first. -/
def decimal : Nat → Nat → List Char
  | 0, _ => []
  | w + 1, u => decimal w (u / 10) ++ [Nat.digitChar (u % 10)]

/-- Go's `appendInt(b, x, width)` in package `time`: `x` in decimal, zero-padded to `width` digits,
after a `-` when `x` is negative. -/
def appendInt (x : Int) (width : Nat) : List Char :=
  (if x < 0 then ['-'] else []) ++ decimal (max width (Nat.toDigits 10 x.natAbs).length) x.natAbs

/-- Go's `appendNano` for `.999999999`: a period and the nine digits of `nsec` less their trailing
zeros, and nothing when `nsec` is zero. -/
def appendNano (nsec : Nat) : List Char :=
  if nsec = 0 then [] else '.' :: (decimal 9 nsec).rdropWhile (· == '0')

/-- Go's `Z07:00`: `Z` for a zero offset, else its sign, hours and minutes. Go turns the offset into
minutes with a division that truncates toward zero, so its seconds are lost. -/
def appendZone (offset : Int) : List Char :=
  if offset = 0 then ['Z'] else
  let zone := offset.tdiv 60
  (if zone < 0 then '-' else '+') ::
    (appendInt (zone.natAbs / 60 : Nat) 2 ++ ':' :: appendInt (zone.natAbs % 60 : Nat) 2)

/-- One layout element of `t.Format`. -/
def Time.appendChunk (t : Time) : Chunk → List Char
  | .lit c => [c]
  | .longYear => appendInt t.date.1 4
  | .zeroMonth => appendInt t.date.2.1 2
  | .zeroDay => appendInt t.date.2.2 2
  | .hour => appendInt t.clock.1 2
  | .zeroMinute => appendInt t.clock.2.1 2
  | .zeroSecond => appendInt t.clock.2.2 2
  | .fracSecond9 => appendNano t.nsec
  | .iso8601ColonTZ => appendZone t.offset

/-- `t.Format(layout)`. -/
def Time.format (t : Time) (layout : List Chunk) : String := ⟨layout.flatMap t.appendChunk⟩

end CloudEvents.Go
