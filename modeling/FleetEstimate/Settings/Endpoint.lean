import FleetEstimate.Decimal.Read
import FleetEstimate.Text.Quoted

/-!
# Where a node stands

An endpoint is `local`, `*:<port>` for the coordinator of a fleet, or
`<host>:<port>` for a worker and the coordinator it serves.
-/

namespace FleetEstimate

inductive Endpoint
  /-- Estimates in its own process. -/
  | alone
  /-- Coordinates the workers that connect to a port. -/
  | coordinator (port : UInt16)
  /-- Serves the coordinator at an address. -/
  | worker (address : String)
deriving DecidableEq, Repr

/-- Why a text is no endpoint. -/
inductive EndpointError
  | noColon (text : String)
  | invalidPort (text : String) (e : Decimal.NumberError)
  | missingHost (text : String)
deriving DecidableEq, Repr

namespace EndpointError

def message : EndpointError → String
  | .noColon text =>
    "endpoint " ++ Text.quoted text ++ " is neither \"local\", \"*:<port>\" nor \"<host>:<port>\""
  | .invalidPort text _ => "invalid port in endpoint " ++ Text.quoted text
  | .missingHost text => "missing host in endpoint " ++ Text.quoted text

/-- The messages of the causes. -/
def causes : EndpointError → List String
  | .invalidPort _ e => [e.message]
  | _ => []

end EndpointError

namespace Endpoint

/-- The text before and after the last colon. -/
def splitLast (text : String) : Option (String × String) :=
  let reversed := text.toList.reverse
  match reversed.dropWhile (· ≠ ':') with
  | [] => none
  | _ :: host =>
    some (String.ofList host.reverse, String.ofList (reversed.takeWhile (· ≠ ':')).reverse)

/-- Reads an endpoint. A missing colon is told before a wrong port, a wrong port
before a missing host. -/
def ofText (text : String) : Except EndpointError Endpoint :=
  if text = "local" then .ok .alone
  else
    match splitLast text with
    | none => .error (.noColon text)
    | some (host, port) =>
      match Decimal.readNat 65535 port with
      | .error e => .error (.invalidPort text e)
      | .ok port =>
        if host = "*" then .ok (.coordinator (UInt16.ofNat port))
        else if host = "" then .error (.missingHost text)
        else .ok (.worker text)

end Endpoint

end FleetEstimate
