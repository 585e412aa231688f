import LaneChart.IdMap

/-!
# Taps

A tap on a displayed sector becomes the intent to navigate there. A tap on a sector that is not
displayed is out of date and dropped. Whether anybody is listening makes no difference to the tap.
-/

namespace LaneChart

/-- The receiving end of navigation intents. -/
structure Listener where
  listening : Bool := true
  received : List SectorId := []

namespace Listener

/-- Hand an intent over; it is lost when nobody listens. -/
def deliver (l : Listener) (id : SectorId) : Listener :=
  if l.listening then { l with received := l.received ++ [id] } else l

/-- Report a tap. Returns whether it became an intent. -/
def tap (l : Listener) (displayed : List SectorId) (id : SectorId) : Bool × Listener :=
  if displayed.contains id then (true, l.deliver id) else (false, l)

end Listener

end LaneChart
