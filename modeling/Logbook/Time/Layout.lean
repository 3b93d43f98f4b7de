import Logbook.Text.Decimal
import Logbook.Time.Timestamp

/-!
# The written form of a time

`YYYY-MM-DD HH:MM:SS.ssssss`, and a `Z` behind it for UTC. A field with too many digits panics after the
fields before it are written.
-/

namespace Logbook.CivilTime

open Text (year padded)

/-- `YYYY-MM-DD HH:MM:SS` -/
def calendar (t : CivilTime) : Written :=
  Text.year t.year ++ .char '-' ++ padded 2 t.month ++ .char '-' ++ padded 2 t.day ++ .char ' ' ++
    padded 2 t.hour ++ .char ':' ++ padded 2 t.minute ++ .char ':' ++ padded 2 t.second

/-- `.ssssss`, and `Z` for UTC. -/
def subsecond (t : CivilTime) : Written :=
  .char '.' ++ padded 6 t.microsecond ++ if t.isLocal then .empty else .char 'Z'

/-- `YYYY-MM-DD HH:MM:SS.ssssss`, and `Z` for UTC. -/
def timestamp (t : CivilTime) : Written := t.calendar ++ t.subsecond

end Logbook.CivilTime
