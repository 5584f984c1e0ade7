import RenderBroker.Options.Basic
import RenderBroker.Render.Handle
import RenderBroker.Surface.Texture

/-!
# The loopback backend

A backend without a device: it counts handles and buffers from one, and knows which contexts live.
-/

namespace RenderBroker

/-- The counters and the live contexts of a loopback backend. -/
structure Loopback where
  nextContext : Int64 := 1
  nextBuffer : UInt64 := 1
  live : List Int64 := []
  limit : Option Nat := none

namespace Loopback

/-- The device extensions that the backend supports. -/
def supported : List String :=
  ["VK_KHR_swapchain", "VK_KHR_maintenance1", "VK_KHR_external_memory_fd",
    "VK_ANDROID_external_memory_android_hardware_buffer"]

/-- The supported extensions that options allow, in the order of the table. -/
def exposed (o : RenderOptions) : List String :=
  o.extensions.filter supported

/-- The limit is reached when as many contexts live as it allows. -/
def isFull (b : Loopback) : Bool :=
  match b.limit with
  | some limit => limit ≤ b.live.length
  | none => false

/-- The value returned for a context that is refused. -/
def refusal : Int64 := -1

/-- Creates a context, unless the limit is reached. -/
def createContext (b : Loopback) : Int64 × Loopback :=
  if b.isFull then (refusal, b)
  else
    (b.nextContext,
      { b with nextContext := b.nextContext + 1, live := b.live.insert b.nextContext })

def destroyContext (b : Loopback) (h : ContextHandle) : Bool × Loopback :=
  (b.live.contains h.raw, { b with live := b.live.erase h.raw })

/-- Allocates the next buffer; a null handle is no buffer. -/
def allocate (b : Loopback) : Option HardwareBuffer × Loopback :=
  (HardwareBuffer.ofRaw? b.nextBuffer, { b with nextBuffer := b.nextBuffer + 1 })

end Loopback

end RenderBroker
