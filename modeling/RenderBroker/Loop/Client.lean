import RenderBroker.Stream.Descriptor
import RenderBroker.Stream.Input
import RenderBroker.Stream.Output

/-!
# Clients

A client is one accepted connection: its socket, its two streams, a tag that only the handler of the
connection reads, and a mark that asks for the connection to be torn down.
-/

namespace RenderBroker

structure Client (τ : Type) where
  descriptor : Descriptor
  /-- Which of all accepted connections this is; it is never given out again. -/
  serial : Nat
  tag : τ
  inputCapacity : Nat
  outputCapacity : Nat
  input : Option InputStream := none
  output : Option OutputStream := none
  killed : Bool := false

namespace Client

variable {τ : Type}

/-- A stream that is there, or else a new one; a size of zero leaves it absent. -/
def orCreate {σ : Type} (current : Option σ) (size : Nat)
    (create : Nat → Except CapacityBreach σ) : Except CapacityBreach (Option σ) :=
  if current.isNone ∧ 0 < size then (create size).map some else .ok current

def createStreams (c : Client τ) : Except CapacityBreach (Client τ) := do
  let input ← orCreate c.input c.inputCapacity InputStream.create
  let output ← orCreate c.output c.outputCapacity OutputStream.create
  return { c with input, output }

def kill (c : Client τ) : Client τ :=
  { c with killed := true }

/-- The client that a callback hands back: who it is and the sizes of its streams are not the
callback's to change, and a mark that was set stays. -/
def returned (c back : Client τ) : Client τ :=
  { back with
    descriptor := c.descriptor
    serial := c.serial
    inputCapacity := c.inputCapacity
    outputCapacity := c.outputCapacity
    killed := c.killed || back.killed }

def available (c : Client τ) : Nat :=
  (c.input.map InputStream.available).getD 0

def unread (c : Client τ) : List UInt8 :=
  (c.input.map InputStream.unread).getD []

def queued (c : Client τ) : List UInt8 :=
  (c.output.map OutputStream.queued).getD []

def hasQueued (c : Client τ) : Bool :=
  c.output.any fun s => !s.isEmpty

/-- Queues bytes in the output stream, if there is one. -/
def reply (c : Client τ) (bytes : List UInt8) : Client τ :=
  { c with output := c.output.map fun s => s.write bytes }

/-- Without an input stream this many bytes are read at a time, and dropped. -/
def discardSize : Nat :=
  256

/-- What a read came to: the bytes, and the space that was offered, if any was. -/
structure Reception (τ : Type) where
  result : Except Fault (List UInt8)
  offered : Option Nat
  client : Client τ

/-- Reads once from the socket: into the input stream, or else for nothing. -/
def receive (c : Client τ) (r : ReadOutcome) : Reception τ :=
  match c.input with
  | none => ⟨r.delivered discardSize, some discardSize, c⟩
  | some s =>
    let f := s.fillGrowing r
    ⟨f.result.mapError InputStream.Refusal.kind, f.offered, { c with input := some f.stream }⟩

/-- Flushes the output stream; without waiting bytes nothing is written. -/
def flush (c : Client τ) (plan : List WriteOutcome) : OutputStream.Flush × Client τ :=
  match c.output with
  | none => (⟨[], [], [], plan, .done⟩, c)
  | some s =>
    let (f, s) := s.flush plan
    (f, { c with output := some s })

def shown (showTag : τ → String) (descriptor : String) (c : Client τ) : String :=
  "Client \x7b fd: " ++ descriptor ++ ", tag: " ++ showTag c.tag ++ ", killed: "
    ++ (if c.killed then "true" else "false") ++ ", .. \x7d"

theorem of_createStreams {b c : Client τ} (created : c.createStreams = .ok b) :
    ∃ input output, orCreate c.input c.inputCapacity InputStream.create = .ok input ∧
      orCreate c.output c.outputCapacity OutputStream.create = .ok output ∧
      b = { c with input, output } := by
  rw [createStreams] at created
  cases first : orCreate c.input c.inputCapacity InputStream.create with
  | error breach =>
    rw [first] at created
    cases created
  | ok input =>
    cases second : orCreate c.output c.outputCapacity OutputStream.create with
    | error breach =>
      rw [first, second] at created
      cases created
    | ok output =>
      rw [first, second] at created
      cases created
      exact ⟨input, output, rfl, rfl, rfl⟩

@[simp] theorem descriptor_returned (c back : Client τ) :
    (c.returned back).descriptor = c.descriptor :=
  rfl

@[simp] theorem serial_returned (c back : Client τ) : (c.returned back).serial = c.serial :=
  rfl

@[simp] theorem returned_self (c : Client τ) : c.returned c = c := by
  simp [returned]

@[simp] theorem available_returned (c back : Client τ) :
    (c.returned back).available = back.available :=
  rfl

@[simp] theorem unread_returned (c back : Client τ) : (c.returned back).unread = back.unread :=
  rfl

theorem length_unread (c : Client τ) : c.unread.length = c.available := by
  rw [unread, available]
  cases c.input with
  | none => rfl
  | some s => exact s.length_unread

@[simp] theorem queued_returned (c back : Client τ) : (c.returned back).queued = back.queued :=
  rfl

theorem hasQueued_iff (c : Client τ) : c.hasQueued = true ↔ c.queued ≠ [] := by
  rw [hasQueued, queued]
  cases c.output with
  | none => simp
  | some s => simp [OutputStream.isEmpty, OutputStream.queued_eq, Decidable.imp_iff_not_or]

@[simp] theorem queued_receive (c : Client τ) (r : ReadOutcome) :
    (c.receive r).client.queued = c.queued := by
  rw [receive]
  split <;> rfl

theorem fst_flush (c : Client τ) (plan : List WriteOutcome) :
    (c.flush plan).1 = OutputStream.offer c.queued plan := by
  rw [flush, queued]
  cases c.output with
  | none => simp [OutputStream.offer]
  | some s => rfl

@[simp] theorem queued_flush (c : Client τ) (plan : List WriteOutcome) :
    (c.flush plan).2.queued = (OutputStream.offer c.queued plan).left := by
  rw [flush, queued, queued]
  cases there : c.output with
  | none => simp [there, OutputStream.offer]
  | some s => exact s.queued_flush plan

@[simp] theorem killed_returned (c back : Client τ) :
    (c.returned back).killed = (c.killed || back.killed) :=
  rfl

end Client

end RenderBroker
