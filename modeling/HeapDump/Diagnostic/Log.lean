/-
HeapDump/Diagnostic/Log.lean

Diagnostics in the order in which they were reported.

A sink may be attached: it is told each diagnostic as it is reported, and keeps
what it has been told even when the reading that reports comes to nothing.  As
every report goes through `push`, the sink holds what the log holds at any time;
the log of a reading that failed is lost, the sink is not.

The selections by severity, category and object are filters, so they keep the
order of reporting.
-/
import HeapDump.Diagnostic.Basic

namespace HeapDump

/-- The diagnostics reported so far. -/
structure Diagnostics where
  entries : Array Diagnostic := #[]
  /-- What the sink has been told, if there is one. -/
  sink : Option (Array Diagnostic) := none
  deriving DecidableEq, Repr

namespace Diagnostics

/-- No diagnostics yet, and a sink if one is asked for. -/
def start (attachSink : Bool) : Diagnostics :=
  { sink := if attachSink then some #[] else none }

/-- Reports a diagnostic. -/
def push (log : Diagnostics) (d : Diagnostic) : Diagnostics :=
  { entries := log.entries.push d, sink := log.sink.map (·.push d) }

/-- Reports diagnostics in order. -/
def pushAll (log : Diagnostics) (ds : List Diagnostic) : Diagnostics := ds.foldl push log

/-- Reports a message of the caller's own. -/
def note (log : Diagnostics) (severity : Severity) (category : Category) (message : String) :
    Diagnostics :=
  log.push { cause := .other severity category message }

/-- All diagnostics. -/
def toList (log : Diagnostics) : List Diagnostic := log.entries.toList

/-- The number of diagnostics. -/
def count (log : Diagnostics) : Nat := log.entries.size

/-- The diagnostics of a severity. -/
def bySeverity (log : Diagnostics) (s : Severity) : List Diagnostic :=
  log.toList.filter (·.severity = s)

/-- The diagnostics of a category. -/
def byCategory (log : Diagnostics) (c : Category) : List Diagnostic :=
  log.toList.filter (·.category = c)

/-- The diagnostics about an object. -/
def byObject (log : Diagnostics) (id : ObjectId) : List Diagnostic :=
  log.toList.filter (·.object = some id)

/-- The number of diagnostics of a severity. -/
def countOf (log : Diagnostics) (s : Severity) : Nat := (log.bySeverity s).length

/-- Whether there is any diagnostic. -/
def hasAny (log : Diagnostics) : Bool := 0 < log.count

/-- Whether there is a diagnostic of a severity. -/
def has (log : Diagnostics) (s : Severity) : Bool := log.toList.any (·.severity = s)

/-- A headed list of the diagnostics of a severity, empty if there are none. -/
def listing (log : Diagnostics) (title : String) (s : Severity) : String :=
  match log.bySeverity s with
  | [] => ""
  | ds => s!"\n{title}:\n" ++ String.join (ds.map fun d => s!"  {d.text}\n")

/-- The counts by severity, then the errors and the warnings. -/
def summary (log : Diagnostics) : String :=
  let errors := log.countOf .error
  let warnings := log.countOf .warning
  let infos := log.countOf .info
  s!"Diagnostics: {errors} error(s), {warnings} warning(s), {infos} info(s)\n"
    ++ log.listing "Errors" .error ++ log.listing "Warnings" .warning

/-- The text that describes the container itself. -/
def describe (log : Diagnostics) : String :=
  "Diagnostics \x7b count: " ++ toString log.count ++ ", sink: " ++
    (if log.sink.isSome then "true" else "false") ++ " \x7d"

end Diagnostics

end HeapDump
