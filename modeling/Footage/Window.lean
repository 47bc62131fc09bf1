import Footage.Binary64
import Footage.Calendar.Time
import Footage.Timestamp

/-!
The window of seconds that a recording's fragments are taken from, and the rule by which a fragment
belongs to it: it starts inside, or it starts before and still plays at the window's start.
-/

namespace Footage

/-- Why a fragment belongs to a window. -/
inductive Inclusion where
  | inWindow
  | coversStart
  deriving DecidableEq, Repr

/-- The seconds from `start` to `stop`, both included. -/
structure Window where
  start : Timestamp
  stop : Timestamp
  deriving DecidableEq, Repr

namespace Window

/-- The second at which a fragment stops playing. -/
def playsUntil (t : Timestamp) (duration : Binary64) : Binary64 :=
  (Binary64.ofInt t.seconds).add duration

def admits (w : Window) (t : Timestamp) (duration : Option Binary64) : Option Inclusion :=
  if w.start.seconds ≤ t.seconds ∧ t.seconds ≤ w.stop.seconds then some .inWindow
  else if t.seconds < w.start.seconds then
    match duration.filter Binary64.isFinite with
    | none => none
    | some d =>
      if (Binary64.ofInt w.start.seconds).le (playsUntil t d) then some .coversStart else none
  else none

/-- The window of an interval whose start is pulled back by `lookback` seconds and which lasts until
`now` while it has no end. Fractions of a second are dropped. The lookback and the start that it leads
to are held within 64 bits, and both bounds within ten digits. -/
def ofInterval (start : Time) (stop : Option Time) (lookback : Nat) (now : Time) : Window where
  start := .saturating (Numeral.clamped (start.seconds - Numeral.clamped lookback))
  stop := .saturating (stop.getD now).seconds

end Window

end Footage
