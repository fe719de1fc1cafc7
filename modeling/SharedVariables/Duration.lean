import SharedVariables.Text

/-! Spans of time, counted in nanoseconds, and the way they are written. -/
namespace SharedVariables

structure Duration where
  nanos : Nat
deriving DecidableEq, Inhabited

namespace Duration

def zero : Duration := ⟨0⟩
def ofMillis (ms : Nat) : Duration := ⟨ms * 1000000⟩
def ofSecs (s : Nat) : Duration := ⟨s * 1000000000⟩

def secs (d : Duration) : Nat := d.nanos / 1000000000

def subsecNanos (d : Duration) : Nat := d.nanos % 1000000000

def millis (d : Duration) : Nat := d.nanos / 1000000

instance : Add Duration := ⟨fun d e => ⟨d.nanos + e.nanos⟩⟩

/-- A fraction of `places` decimal digits without its trailing zeros; nothing when it is zero. -/
def fraction (places n : Nat) : String :=
  let digits := (Text.numeral 10 places n).toList.reverse.dropWhile (· == '0')
  if digits.isEmpty then "" else "." ++ String.ofList digits.reverse

def inUnit (n size places : Nat) (unit : String) : String :=
  Text.decimal (n / size) ++ fraction places (n % size) ++ unit

/-- Written in the largest of s, ms, µs and ns that has a whole part; zero is `0ns`. -/
def text (d : Duration) : String :=
  if 1000000000 ≤ d.nanos then inUnit d.nanos 1000000000 9 "s"
  else if 1000000 ≤ d.nanos then inUnit d.nanos 1000000 6 "ms"
  else if 1000 ≤ d.nanos then inUnit d.nanos 1000 3 "µs"
  else Text.decimal d.nanos ++ "ns"

end Duration
end SharedVariables
