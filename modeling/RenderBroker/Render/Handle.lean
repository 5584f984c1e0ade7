import RenderBroker.Text.Decimal

/-!
# Handles of render contexts
-/

namespace RenderBroker

/-- A handle of a live render context, always positive. -/
structure ContextHandle where
  raw : Int64
  raw_pos : 0 < raw
  deriving DecidableEq

namespace ContextHandle

/-- The handle that a backend returned; zero and below mean that there is none. -/
def ofRaw? (raw : Int64) : Option ContextHandle :=
  if h : 0 < raw then some ⟨raw, h⟩ else none

def display (h : ContextHandle) : String :=
  "0x" ++ Text.hexadecimal h.raw.toInt.toNat

@[simp] theorem ofRaw?_raw (h : ContextHandle) : ofRaw? h.raw = some h :=
  dif_pos h.raw_pos

end ContextHandle

end RenderBroker
