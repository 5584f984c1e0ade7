/-!
# Log lines
-/

namespace RenderBroker

inductive Level where
  | debug
  | info
  | warn
  | error
  deriving DecidableEq, Repr

def Level.name : Level → String
  | .debug => "DEBUG"
  | .info => "INFO"
  | .warn => "WARN"
  | .error => "ERROR"

structure LogLine where
  level : Level
  text : String
  deriving DecidableEq, Repr

def LogLine.shown (l : LogLine) : String :=
  l.level.name ++ " " ++ l.text

end RenderBroker
