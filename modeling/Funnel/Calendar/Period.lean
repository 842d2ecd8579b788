import Funnel.Calendar.Date

/-!
# Periods

The days from a first to a last one, both included.  A period is kept as its first day and the day
after its last, because events carry a time of day: an event lies in the period when its time is
not before the start of the first day and before the start of the day after the last.
-/

namespace Funnel

structure Period where
  first : Date
  afterLast : Date
deriving DecidableEq

namespace Period

/-- The days from `first` to `last`; there is no such period if `last` is the last day of all. -/
def ofDays? (first last : Date) : Option Period := last.next?.map (⟨first, ·⟩)

/-- The day is one of the period. -/
instance : Membership Date Period where
  mem p d := p.first ≤ d ∧ d < p.afterLast

end Period

end Funnel
