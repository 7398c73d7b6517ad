import PackageBuild.Number.Binary64
/-!
# Durations

How long a build took is told in milliseconds below a second, in seconds with two decimals below a
minute, and in minutes and seconds from then on.
-/

namespace PackageBuild

structure Duration where
  secs : Nat
  /-- Billionths of a second beyond them. -/
  nanos : Nat
  /-- Less than a second is left over. -/
  nanos_lt : nanos < 1000000000
deriving DecidableEq, Repr

namespace Duration

/-- A span of seconds and billionths, of which whole seconds are carried over. -/
def ofParts (secs nanos : Nat) : Duration where
  secs := secs + nanos / 1000000000
  nanos := nanos % 1000000000
  nanos_lt := Nat.mod_lt _ (by decide)

def zero : Duration := ofParts 0 0

def add (a b : Duration) : Duration := ofParts (a.secs + b.secs) (a.nanos + b.nanos)

/-- The seconds as a binary number: both parts are rounded, then their sum. -/
def seconds (d : Duration) : Dyadic :=
  (Dyadic.round d.secs 1).add (Dyadic.round d.nanos 1000000000)

def display (d : Duration) : String :=
  if d.secs < 1 then toString (d.nanos / 1000000) ++ "ms"
  else if d.secs < 60 then d.seconds.fixed 2 ++ "s"
  else toString (d.secs / 60) ++ "m " ++ toString (d.secs % 60) ++ "s"

end Duration
end PackageBuild
