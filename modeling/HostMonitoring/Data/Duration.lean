import HostMonitoring.Data.DateTime

namespace HostMonitoring

/-- Nanoseconds, as `std::time::Duration` counts them. -/
abbrev Duration := Nat

def Duration.fromSecs (secs : Nat) : Duration := secs * 1000000000

def Duration.fromMillis (millis : Nat) : Duration := millis * 1000000

namespace DateTime

/-- Subtracts nanoseconds; a difference that leaves a leap second forgets it. -/
def minus (t : DateTime) (d : Nat) : DateTime :=
  if leap : 1000000000 ≤ t.nanos then
    if d < 1000000000 then
      ⟨t.secs, t.nanos - d, (Nat.sub_le _ _).trans_lt t.bounded, fun h => t.leap (by omega)⟩
    else if h : d % 1000000000 ≤ t.nanos - 1000000000 then
      ⟨t.secs + 1 - (d / 1000000000 : Nat), t.nanos - 1000000000 - d % 1000000000,
        by have := t.bounded; omega, by have := t.bounded; omega⟩
    else
      ⟨t.secs - (d / 1000000000 : Nat), t.nanos - d % 1000000000, by have := t.bounded; omega,
        by have := t.bounded; omega⟩
  else if h : d % 1000000000 ≤ t.nanos then
    ⟨t.secs - (d / 1000000000 : Nat), t.nanos - d % 1000000000, by omega, by omega⟩
  else
    ⟨t.secs - 1 - (d / 1000000000 : Nat), t.nanos + 1000000000 - d % 1000000000, by omega, by omega⟩

/-- The first year a date can have. -/
def minYear : Int := -262143

def checkedSubSigned (t : DateTime) (d : Duration) : Option DateTime :=
  if minYear ≤ (t.minus d).year then some (t.minus d) else none

end DateTime
end HostMonitoring
