/-!
# The calls of a worker

The names under which a coordinator calls its workers.
-/

namespace FleetEstimate

/-- The worker receives the text of a system. -/
def receiveSystemCall : String := "slave_getcode"

/-- The worker reseeds its system and receives the parameter. -/
def receiveParameterCall : String := "slave_getsnr"

/-- The worker samples for a work unit and replies with a work result. -/
def workCall : String := "slave_work"

end FleetEstimate
