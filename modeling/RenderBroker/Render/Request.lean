/-!
# Requests of render clients

A request is a single byte. Bytes without a meaning are passed over, so that a newer client keeps
its connection to an older server.
-/

namespace RenderBroker

inductive RenderRequest where
  | createContext
  deriving DecidableEq, Repr

namespace RenderRequest

def code : RenderRequest → UInt8
  | .createContext => 1

def name : RenderRequest → String
  | .createContext => "CreateContext"

def ofCode? (b : UInt8) : Option RenderRequest :=
  if b = 1 then some .createContext else none

@[simp] theorem ofCode?_code (r : RenderRequest) : ofCode? r.code = some r := by
  cases r
  rfl

end RenderRequest

end RenderBroker
