/-!
# Log records

What the library reports about its own work: a level, a message, and named fields.
-/

namespace ReadThrough

inductive Level where
  | trace
  | debug
  | warn
  | error
  deriving DecidableEq

def Level.text : Level → String
  | .trace => "TRACE"
  | .debug => "DEBUG"
  | .warn => "WARN"
  | .error => "ERROR"

structure LogRecord where
  level : Level
  message : String
  fields : List (String × String)
  deriving DecidableEq

end ReadThrough
