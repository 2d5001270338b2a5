/-!
# What the program tells

Log lines and printed text, in the order in which they appear.
-/

set_option autoImplicit false

namespace ImageRelay

/-- The level of a log line. -/
inductive Level
  | error
  | warn
  | info
  deriving Repr, DecidableEq

/-- The name of a level in a log line. -/
def Level.name : Level → String
  | error => "ERROR"
  | warn => "WARN"
  | info => "INFO"

/-- Something that is told: a log line, a log line of the client of clusters, text on the output, or
text for errors. -/
inductive Emission
  | log (level : Level) (text : String)
  | clientLog (level : Level) (text : String)
  | out (text : String)
  | err (text : String)
  deriving Repr, DecidableEq

namespace Emission

/-- A log line for information. -/
def info (text : String) : Emission := .log .info text

/-- A log line for a warning. -/
def warn (text : String) : Emission := .log .warn text

/-- A log line for an error. -/
def error (text : String) : Emission := .log .error text

/-- A line on the output. -/
def line (text : String) : Emission := .out (text ++ "\n")

/-- The log lines of what is told, those of the client left out. -/
def logs (es : List Emission) : List (Level × String) :=
  es.filterMap fun
    | .log l t => some (l, t)
    | _ => none

/-- The text on the output. -/
def output (es : List Emission) : String :=
  String.join <| es.filterMap fun
    | .out t => some t
    | _ => none

/-- The text for errors, log lines left out. -/
def errors (es : List Emission) : String :=
  String.join <| es.filterMap fun
    | .err t => some t
    | _ => none

end Emission

end ImageRelay
