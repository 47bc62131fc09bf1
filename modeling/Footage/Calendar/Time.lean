import Footage.Calendar.Date

/-!
Points in time without a zone: a second counted from 1970-01-01T00:00:00 and a fraction of it. The
store keeps whole seconds, which is the floor of the time also before 1970.
-/

namespace Footage

namespace Time

/-- The first second of the year −262143. -/
def firstSecond : Int := -8334601228800

/-- The last second of the year 262142. -/
def lastSecond : Int := 8210266876799

end Time

structure Time where
  seconds : Int
  nanos : Nat
  firstSecond_le : Time.firstSecond ≤ seconds
  le_lastSecond : seconds ≤ Time.lastSecond
  nanos_lt : nanos < 1000000000
  deriving DecidableEq, Repr

namespace Time

def ofSeconds? (seconds : Int) (nanos : Nat := 0) : Option Time :=
  if h : (firstSecond ≤ seconds ∧ seconds ≤ lastSecond) ∧ nanos < 1000000000 then
    some ⟨seconds, nanos, h.1.1, h.1.2, h.2⟩
  else none

theorem seconds_of_ofSeconds? {n : Int} {f : Nat} {t : Time} (h : ofSeconds? n f = some t) :
    t.seconds = n ∧ t.nanos = f := by
  simp only [ofSeconds?] at h
  split at h
  · cases h; exact ⟨rfl, rfl⟩
  · cases h

def le (s t : Time) : Bool := s.seconds < t.seconds || (s.seconds = t.seconds && s.nanos ≤ t.nanos)

def date (t : Time) : Date := ⟨t.seconds / 86400⟩

/-- Three, six or nine digits after a point, as many as the fraction needs, and nothing for none. -/
def fractionText (nanos : Nat) : List Char :=
  if nanos = 0 then []
  else if nanos % 1000000 = 0 then '.' :: Numeral.padded 3 (nanos / 1000000)
  else if nanos % 1000 = 0 then '.' :: Numeral.padded 6 (nanos / 1000)
  else '.' :: Numeral.padded 9 nanos

def textWith (separator : Char) (t : Time) : String :=
  let second := (t.seconds % 86400).toNat
  let clock := Numeral.padded 2 (second / 3600) ++ ':' :: Numeral.padded 2 (second / 60 % 60) ++
    ':' :: Numeral.padded 2 (second % 60)
  t.date.text ++ String.ofList (separator :: clock ++ fractionText t.nanos)

/-- The text of a time in messages. -/
def text (t : Time) : String := t.textWith ' '

/-- The text of a time in records. -/
def recordText (t : Time) : String := t.textWith 'T'

end Time

end Footage
