/-!
# Spans of time

Spans of time in nanoseconds, from zero to the longest one, and the waits before repeated attempts.

## Main definitions
* `Duration.text`: a span as messages show it.
* `Duration.retryDelay`: the wait before a further attempt.
-/

set_option autoImplicit false

namespace ImageRelay

/-- A span of time. -/
structure Duration where
  nanoseconds : Nat
  deriving Repr, DecidableEq

namespace Duration

/-- The nanoseconds of a second. -/
def second : Nat := 1000000000

/-- The longest span: 2⁶⁴ seconds less one nanosecond. -/
def longest : Nat := UInt64.size * second - 1

/-- A span of whole seconds. -/
def ofSeconds (n : Nat) : Duration := ⟨n * second⟩

/-- A span of whole milliseconds. -/
def ofMilliseconds (n : Nat) : Duration := ⟨n * 1000000⟩

/-- A number of units with the part behind the point, without zeros at its end. -/
def inUnits (n size : Nat) (unit : String) : String :=
  let places := (Nat.toDigits 10 size).length - 1
  let rest := Nat.toDigits 10 (n % size)
  let rest := List.replicate (places - rest.length) '0' ++ rest
  let rest := (rest.reverse.dropWhile (· == '0')).reverse
  toString (n / size) ++ (if rest.isEmpty then "" else String.ofList ('.' :: rest)) ++ unit

/-- A span in the largest unit that it fills. -/
def text (d : Duration) : String :=
  let n := d.nanoseconds
  if n ≥ second then inUnits n second "s"
  else if n ≥ 1000000 then inUnits n 1000000 "ms"
  else if n ≥ 1000 then inUnits n 1000 "µs"
  else inUnits n 1 "ns"

/-- The factor of the wait before the attempt behind `attempt` failed ones, less one: it doubles up
to the largest 32-bit number. -/
def retryFactor (attempt : Nat) : Nat := if attempt < 32 then Nat.pow 2 attempt else UInt32.size - 1

/-- The wait behind failed attempt number `attempt`, counted from zero. -/
def retryDelay (backoff : Duration) (attempt : Nat) : Duration :=
  ⟨min (backoff.nanoseconds * retryFactor attempt) longest⟩

end Duration

end ImageRelay
