import NestGateway.Gateway.Traces
import NestGateway.LogHistory.Logged

/-! # A search for the id of a request

The log-streamers look for a keyword in the metadata of a line too, and there
the id of a request stands. A search for the id finds all that the services
logged for the request.
-/

namespace NestGateway.LogHistory

open Text GoJson LogReader Logger StableSort List

/-! ## The id in the metadata -/

def Plain (value : String) : Prop := ∀ c ∈ value.toList, escapeChar c = [c]

section Runtime

variable {rt : Runtime}

/-- The record names the request it was written for. -/
def Record.Names (record : Record) (id : String) : Prop :=
  record.info.rest.get "correlationId" = some (some (.str id))

variable {written : LogFilesHandler → LogFile → List Record} {input : LogSearchInput}

variable (collator : Collator) (answers : LogFilesHandler → Bool) (nodes : List LogFilesHandler)

end Runtime

/-! ## The request of a refresh -/

end NestGateway.LogHistory
