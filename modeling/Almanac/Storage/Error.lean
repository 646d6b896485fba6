/-
  Almanac.Storage.Error

  Errors of a storage: a code that decides how callers answer, and a message. Faults
  of a database become errors whose code says whether it could be reached.
-/

namespace Almanac

/-- What kind of error a storage reports. -/
inductive StorageCode
  /-- There is no record with that id. -/
  | notFound
  /-- The record was refused. -/
  | validation
  /-- The storage could not be reached. -/
  | transport
  /-- Anything else. -/
  | internal
deriving DecidableEq, Repr

namespace StorageCode

def name : StorageCode → String
  | notFound => "not_found"
  | validation => "validation"
  | transport => "transport"
  | internal => "internal"

def ofName? (s : String) : Option StorageCode :=
  [notFound, validation, transport, internal].find? (·.name == s)

/-- Whether trying again may help. -/
def isTransient (c : StorageCode) : Bool := c == transport

/-- The HTTP status that answers an error of this code. -/
def httpStatus : StorageCode → Nat
  | notFound => 404
  | validation => 400
  | transport => 503
  | internal => 500

/-- The status code that answers an error of this code to a remote call. -/
def rpcCode : StorageCode → Nat
  | notFound => 5
  | validation => 3
  | transport => 14
  | internal => 13

end StorageCode

structure StorageError where
  code : StorageCode
  message : String
  /-- Whether it was caused by an error of another layer. -/
  hasCause : Bool := false
deriving DecidableEq, Repr

namespace StorageError

def missing (kind id : String) : StorageError := ⟨.notFound, kind ++ " " ++ id, false⟩

def refused (message : String) : StorageError := ⟨.validation, message, false⟩

def text (e : StorageError) : String := e.code.name ++ ": " ++ e.message

end StorageError

/-- Faults of a database connection. -/
inductive DatabaseFault
  | rowNotFound
  | io
  | tls
  | poolTimedOut
  | poolClosed
  | workerCrashed
  | other
deriving DecidableEq, Repr

def DatabaseFault.toError (fault : DatabaseFault) : StorageError where
  code := match fault with
    | rowNotFound => .notFound
    | io | tls | poolTimedOut | poolClosed | workerCrashed => .transport
    | other => .internal
  message := "database operation failed"
  hasCause := true

end Almanac
