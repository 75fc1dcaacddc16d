/-!
Log lines, kept as values in the order in which they were written.
-/

namespace Lineside

inductive LogLevel where
  | debug
  | info
  | warn
  deriving DecidableEq, Repr

namespace LogLevel

def name : LogLevel → String
  | .debug => "debug"
  | .info => "info"
  | .warn => "warn"

end LogLevel

structure LogLine where
  level : LogLevel
  text : String
  deriving DecidableEq, Repr

end Lineside
