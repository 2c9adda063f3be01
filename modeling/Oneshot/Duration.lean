/-! # Lengths of time

A length of time is whole seconds and a part below one second.  Its text uses the largest unit that
leaves a whole part, with the exact fraction and no trailing zeros. -/
set_option autoImplicit false
namespace Oneshot

def nanosPerSecond : Nat := 1000000000

/-- Seconds are counted with 64 bits. -/
def secondsLimit : Nat := 0x10000000000000000

structure Duration where
  secs : Nat
  nanos : Nat
  nanos_lt : nanos < nanosPerSecond
  deriving DecidableEq

namespace Duration

def toNanos (d : Duration) : Nat := d.secs * nanosPerSecond + d.nanos

/-- The length of time with these parts, if they are in range. -/
def ofParts? (secs nanos : Nat) : Option Duration :=
  if h : secs < secondsLimit ∧ nanos < nanosPerSecond then some ⟨secs, nanos, h.2⟩ else none

/-- The digits of `part` in a field of `width`, without the zeros at its end. -/
def fraction (width part : Nat) : List Char :=
  let digits := Nat.toDigits 10 part
  ((List.replicate (width - digits.length) '0' ++ digits).reverse.dropWhile (· == '0')).reverse

/-- `whole` and `part` hundredths, thousandths and so on, `width` places in all. -/
def decimal (whole width part : Nat) : String :=
  match fraction width part with
  | [] => toString whole
  | places => toString whole ++ "." ++ String.ofList places

@[irreducible] def text (d : Duration) : String :=
  if 0 < d.secs then decimal d.secs 9 d.nanos ++ "s"
  else if 1000000 ≤ d.nanos then decimal (d.nanos / 1000000) 6 (d.nanos % 1000000) ++ "ms"
  else if 1000 ≤ d.nanos then decimal (d.nanos / 1000) 3 (d.nanos % 1000) ++ "µs"
  else toString d.nanos ++ "ns"

example : (⟨1, 500000000, by decide⟩ : Duration).text = "1.5s" := by decide +kernel
example : (⟨0, 999999, by decide⟩ : Duration).text = "999.999µs" := by decide +kernel
example : (⟨0, 0, by decide⟩ : Duration).text = "0ns" := by decide +kernel

end Duration
end Oneshot
