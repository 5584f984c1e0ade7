import RenderBroker.Render.Loopback
import RenderBroker.Stream.Descriptor

/-!
# Backends

A backend answers as a loopback backend does, or from a script: the results of creating contexts
and of allocating buffers can each be laid down beforehand. It records the calls it gets.
-/

namespace RenderBroker

/-- A call that a backend got, with what it returned. -/
inductive BackendCall where
  | create (fd : Descriptor) (options : RenderOptions) (returned : Int64)
  | destroy (h : ContextHandle)
  | allocate (width height : UInt16) (returned : Option HardwareBuffer)
  | destroyTexture (t : Texture)

/-- A loopback backend, the scripts that answer in its place, and the calls so far, the latest
first. -/
structure Backend where
  loopback : Loopback := {}
  creates : Option (List Int64) := none
  allocations : Option (List UInt64) := none
  calls : List BackendCall := []

namespace Backend

/-- The next answer of a script, or the last one for ever when it has run out. -/
def nextAnswer {α : Type} (last : α) : List α → α × List α
  | [] => (last, [])
  | a :: script => (a, script)

def record (b : Backend) (c : BackendCall) : Backend :=
  { b with calls := c :: b.calls }

def createContext (b : Backend) (fd : Descriptor) (o : RenderOptions) : Int64 × Backend :=
  match b.creates with
  | some script =>
    let (raw, script) := nextAnswer 0 script
    (raw, { b with creates := some script }.record (.create fd o raw))
  | none =>
    let (raw, loopback) := b.loopback.createContext
    (raw, { b with loopback }.record (.create fd o raw))

/-- Destroys a context; the answer tells whether the loopback backend knew it, if it was asked. -/
def destroyContext (b : Backend) (h : ContextHandle) : Option Bool × Backend :=
  match b.creates with
  | some _ => (none, b.record (.destroy h))
  | none =>
    let (known, loopback) := b.loopback.destroyContext h
    (some known, { b with loopback }.record (.destroy h))

def allocate (b : Backend) (width height : UInt16) : Option GpuImage × Backend :=
  match b.allocations with
  | some script =>
    let (raw, script) := nextAnswer 0 script
    let buffer := HardwareBuffer.ofRaw? raw
    (buffer.map fun buffer => ⟨width, height, buffer⟩,
      { b with allocations := some script }.record (.allocate width height buffer))
  | none =>
    let (buffer, loopback) := b.loopback.allocate
    (buffer.map fun buffer => ⟨width, height, buffer⟩,
      { b with loopback }.record (.allocate width height buffer))

def destroyTexture (b : Backend) (t : Texture) : Backend :=
  b.record (.destroyTexture t)

def liveContexts (b : Backend) : Nat :=
  b.loopback.live.length

end Backend

end RenderBroker
