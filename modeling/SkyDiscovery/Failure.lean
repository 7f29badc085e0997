import SkyDiscovery.Text.Digits

/-!
# Failures

The ways in which a request can fail, the message a client reads, and what the service does about
each.  Two are handled on the way: reaching the record limit cuts the response short, and a failed
cutout drops only the record it was computed for.
-/

namespace SkyDiscovery

inductive Failure where
  /-- A range list that cannot be read or used. -/
  | rangeList (reason : String)
  | unsupportedFrame (name : String)
  /-- A parameter or a setting of the service that is needed and not there. -/
  | missing (what : String)
  | invalid (parameter reason : String)
  /-- No further record fits. -/
  | recordLimit (limit : Nat)
  | catalog (reason : String)
  | cutout (reason : String)
  | internal (reason : String)
  deriving DecidableEq, Repr, Inhabited

namespace Failure

def message : Failure → String
  | rangeList reason => "Invalid range list: " ++ reason
  | unsupportedFrame name => "Unsupported coordinate frame '" ++ name ++ "'"
  | missing what => "Missing required parameter: " ++ what
  | invalid parameter reason => "Invalid parameter value for '" ++ parameter ++ "': " ++ reason
  | recordLimit limit =>
    "Output record limit reached (" ++ String.ofList (Text.digits limit) ++ " records)"
  | catalog reason => "Catalog query failed: " ++ reason
  | cutout reason => "Cutout task failed: " ++ reason
  | internal reason => "Internal error: " ++ reason

/-- Whether a run goes on in spite of the failure. -/
def isRecoverable : Failure → Bool
  | recordLimit _ | cutout _ => true
  | _ => false

/-- The query status of a response that ends in the failure. -/
def queryStatus : Failure → String
  | recordLimit _ => "OVERFLOW"
  | _ => "ERROR"

/-- The HTTP status: the client's mistakes, a response cut short, the service's own troubles. -/
def httpStatus : Failure → Nat
  | rangeList _ | unsupportedFrame _ | missing _ | invalid _ _ => 400
  | recordLimit _ => 200
  | catalog _ | cutout _ | internal _ => 500

/-- The failure of an operation on files or programs. -/
def ofSystem (reason : String) : Failure :=
  cutout reason

/-- The failure to read JSON text. -/
def unreadableJson : Failure :=
  internal "JSON error"

end Failure

end SkyDiscovery
