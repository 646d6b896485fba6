/-
  Almanac.Http.Body

  The small records of the HTTP interface: answers to creations, errors and health
  checks, and the queries of the day and range listings.
-/
import Almanac.Json.Record

namespace Almanac.Http

open Json (Layout)

/-- Answer to a creation. -/
structure Created where
  id : String
deriving DecidableEq

def Created.layout : Layout Created where
  fields := [("id", .text)]
  parts c := [.text c.id]
  build
    | [some (.text id)] => some ⟨id⟩
    | _ => none

/-- Answer to a request that failed. -/
structure Failure where
  /-- A word for programs, such as `not_found`. -/
  code : String
  message : String
deriving DecidableEq

def Failure.layout : Layout Failure where
  fields := [("code", .text), ("message", .text)]
  parts f := [.text f.code, .text f.message]
  build
    | [some (.text code), some (.text message)] => some { code, message }
    | _ => none

/-- Answer to a health check. -/
structure Health where
  status : String
  version : String
deriving DecidableEq

def Health.layout : Layout Health where
  fields := [("status", .text), ("version", .text)]
  parts h := [.text h.status, .text h.version]
  build
    | [some (.text status), some (.text version)] => some { status, version }
    | _ => none

def serviceVersion : String := "0.1.0"

/-- The health of a running service. -/
def Health.current : Health := { status := "ok", version := serviceVersion }

/-- A query with one date, under the name `field`. -/
structure DateChoice (field : String) where
  date : Date
deriving DecidableEq

/-- The query of a day listing. -/
abbrev DayChoice := DateChoice "date"

/-- The query of a week or month listing. -/
abbrev SpanChoice := DateChoice "startDate"

def DateChoice.layout (field : String) : Layout (DateChoice field) where
  fields := [(field, .date)]
  parts q := [.date q.date]
  build
    | [some (.date date)] => some ⟨date⟩
    | _ => none

/-- Midnight that begins the day asked for. -/
def DateChoice.reference {field : String} (q : DateChoice field) : Instant :=
  (Instant.ofDate? q.date).getD Instant.first

end Almanac.Http
