import FleetEstimate.Sweep

/-!
# The node on the command line

Reads the environment, runs the node and prints what it shows.
-/

open FleetEstimate

/-- The variables that a node reads. -/
def settingNames : List String :=
  ["ENDPOINT", "ACCURACY", "CONFIDENCE", "PARAMETERS", "BLOCK_SIZE", "WORK_UNIT_MS", "SLAVE_NAME"]

def main : IO UInt32 := do
  let settings ← settingNames.mapM fun name => return (name, ← IO.getEnv name)
  let outcome := Settings.runIn fun name => (settings.lookup name).join
  for line in outcome.output do
    IO.println line
  for line in outcome.errors do
    IO.eprintln line
  return outcome.status
