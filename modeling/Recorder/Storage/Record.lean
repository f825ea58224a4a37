import Mathlib.Data.List.Basic

/-!
# Records and the storage interface

`Record` and `Storage` (base_recorder.go). A backend is modelled by pure state passing: `save`
returns the error, if any, together with the state after the call (a backend may have written
part of a record before failing), `load` and `findByTag` only read.

`[]byte` is a list of bytes, and a `map[string]string` an association list in one iteration
order of the map. `RecordType` is a Go string type: besides its four constants any string is a
record type, and the backends reject the others.
-/

namespace Recorder

/-- Results of calls are compared by `decide`. -/
instance instDecidableEqExcept {ε α : Type} [DecidableEq ε] [DecidableEq α] :
    DecidableEq (Except ε α)
  | .error a, .error b => decidable_of_iff (a = b) ⟨congrArg _, Except.error.inj⟩
  | .ok a, .ok b => decidable_of_iff (a = b) ⟨congrArg _, Except.ok.inj⟩
  | .error _, .ok _ => isFalse Except.noConfusion
  | .ok _, .error _ => isFalse Except.noConfusion

/-- `[]byte` -/
abbrev Bytes := List UInt8

/-- `map[string]string`, as an association list in one iteration order. -/
abbrev Tags := List (String × String)

/-- `RecordType` -/
abbrev RecordType := String

namespace RecordType

/-- `RecordTypeRequest` -/
def request : RecordType := "request"
/-- `RecordTypeResponse` -/
def response : RecordType := "response"
/-- `RecordTypeError` -/
def error : RecordType := "error"
/-- `RecordTypeMetrics` -/
def metrics : RecordType := "metrics"

end RecordType

/-- `Record`; a `nil` `PrimaryID` is `none`. -/
structure Record where
  type : RecordType
  primaryID : Option String
  requestID : String
  payload : Bytes
  tags : Tags
deriving DecidableEq, Repr

/-- The id the Redis and file backends file a record under: the request id, prefixed by the
primary id and `sep` when the primary id is set and non-empty. -/
def Record.storageID (sep : String) (record : Record) : String :=
  match record.primaryID with
  | some p => if p = "" then record.requestID else p ++ sep ++ record.requestID
  | none => record.requestID

@[simp] theorem Record.storageID_none (sep : String) (record : Record)
    (h : record.primaryID = none) : record.storageID sep = record.requestID := by
  simp [storageID, h]

/-- `Storage`, over the backend's state `S`. -/
structure Storage (S : Type) where
  save : S → Record → Except String Unit × S
  load : S → RecordType → String → Except String Bytes
  findByTag : S → String → Except String (List String)

/-- The `prefixFor` of a backend: the directory or key segment of each of the four record types,
and the error for any other type. -/
def prefixBy (names : String × String × String × String) (unknown : String)
    (recordType : RecordType) : Except String String :=
  if recordType = RecordType.request then .ok names.1
  else if recordType = RecordType.response then .ok names.2.1
  else if recordType = RecordType.error then .ok names.2.2.1
  else if recordType = RecordType.metrics then .ok names.2.2.2
  else .error (unknown ++ ": " ++ recordType)

end Recorder
