import RenderBroker.Stream.Capacity
import RenderBroker.Stream.Outcome

/-!
# Output streams

An output stream holds bytes until a socket takes them. A flush writes again and again; it ends when
all bytes are taken, when the socket can take no more for now, or at the first fault.
-/

namespace RenderBroker

/-- A send buffer: the bytes that the socket has not taken yet. -/
structure OutputStream where
  /-- The bytes that are sent first, in order. -/
  front : List UInt8 := []
  /-- The bytes behind them, the last one first. -/
  back : List UInt8 := []
  deriving DecidableEq, Repr

namespace OutputStream

/-- A stream in which no byte waits, with space for `n` bytes to begin with. -/
def create (n : Nat) : Except CapacityBreach OutputStream :=
  if maxCapacity < n then .error .tooLarge else .ok {}

def queued (s : OutputStream) : List UInt8 :=
  if s.back.isEmpty then s.front else s.front ++ s.back.reverse

/-- The stream in which the given bytes wait. -/
def ofQueued (bytes : List UInt8) : OutputStream :=
  { front := bytes }

def pending (s : OutputStream) : Nat :=
  s.front.length + s.back.length

def isEmpty (s : OutputStream) : Bool :=
  s.front.isEmpty && s.back.isEmpty

def write (s : OutputStream) (bytes : List UInt8) : OutputStream :=
  { s with back := bytes.reverse ++ s.back }

def writeByte (s : OutputStream) (b : UInt8) : OutputStream :=
  s.write [b]

inductive FlushEnd where
  | done
  /-- The socket takes no more for now. -/
  | blocked
  | failed (f : Fault)
  deriving DecidableEq, Repr

/-- A flush that ends without a fault succeeds. -/
def FlushEnd.result : FlushEnd → Except Fault Unit
  | .failed f => .error f
  | _ => .ok ()

/-- A flush: the bytes that were taken, those that still wait, the number of bytes offered to each
write, the outcomes that no write came to, and how it ended. -/
structure Flush where
  taken : List UInt8
  left : List UInt8
  offers : List Nat
  unused : List WriteOutcome
  ending : FlushEnd
  deriving DecidableEq, Repr

def Flush.after (offer : Nat) (taken : List UInt8) (f : Flush) : Flush :=
  { f with taken := taken ++ f.taken, offers := offer :: f.offers }

/-- Offers bytes to the socket until none is left or a write ends it. The outcomes of the writes
are laid down; when they have run out, a write takes everything. -/
def offer : List UInt8 → List WriteOutcome → Flush
  | [], plan => ⟨[], [], [], plan, .done⟩
  | b :: bytes, [] => ⟨b :: bytes, [], [bytes.length + 1], [], .done⟩
  | b :: bytes, .accepts 0 :: plan =>
    ⟨[], b :: bytes, [bytes.length + 1], plan, .failed .writeZero⟩
  | b :: bytes, .accepts (n + 1) :: plan =>
    (offer (bytes.drop n) plan).after (bytes.length + 1) (b :: bytes.take n)
  | b :: bytes, .fault f :: plan =>
    if f = .interrupted then (offer (b :: bytes) plan).after (bytes.length + 1) []
    else if f = .wouldBlock then ⟨[], b :: bytes, [bytes.length + 1], plan, .blocked⟩
    else ⟨[], b :: bytes, [bytes.length + 1], plan, .failed f⟩
termination_by _ plan => plan.length

def flush (s : OutputStream) (plan : List WriteOutcome) : Flush × OutputStream :=
  let f := offer s.queued plan
  (f, .ofQueued f.left)

theorem queued_eq (s : OutputStream) : s.queued = s.front ++ s.back.reverse := by
  rw [queued]
  split <;> simp_all

theorem queued_of_create {n : Nat} {s : OutputStream} (created : create n = .ok s) :
    s.queued = [] := by
  rw [create] at created
  split at created
  · cases created
  · cases created
    rfl

@[simp] theorem queued_ofQueued (bytes : List UInt8) : (ofQueued bytes).queued = bytes := by
  simp [queued_eq, ofQueued]

@[simp] theorem queued_write (s : OutputStream) (bytes : List UInt8) :
    (s.write bytes).queued = s.queued ++ bytes := by
  simp [queued_eq, write]

@[simp] theorem queued_flush (s : OutputStream) (plan : List WriteOutcome) :
    (s.flush plan).2.queued = (offer s.queued plan).left :=
  queued_ofQueued _

/-- What was taken and what is left make up what was queued. -/
theorem taken_append_left (bytes : List UInt8) (plan : List WriteOutcome) :
    (offer bytes plan).taken ++ (offer bytes plan).left = bytes := by
  fun_induction offer bytes plan with
  | case1 | case2 | case3 | case6 | case7 => simp
  | case4 b bytes n plan ih => simp [Flush.after, List.append_assoc, ih]
  | case5 b bytes plan ih => simpa [Flush.after] using ih

theorem left_of_done {bytes : List UInt8} {plan : List WriteOutcome}
    (done : (offer bytes plan).ending = .done) : (offer bytes plan).left = [] := by
  fun_induction offer bytes plan with
  | case1 | case2 => rfl
  | case3 | case6 | case7 => cases done
  | case4 b bytes n plan ih => exact ih done
  | case5 b bytes plan ih => exact ih done

/-- A flush that is blocked has made one write after the other up to one that would block. -/
theorem blocked_last {bytes : List UInt8} {plan : List WriteOutcome}
    (blocked : (offer bytes plan).ending = .blocked) :
    ∃ used, plan = used ++ .fault .wouldBlock :: (offer bytes plan).unused ∧
      (offer bytes plan).offers.length = used.length + 1 := by
  fun_induction offer bytes plan with
  | case1 | case2 | case3 | case7 => cases blocked
  | case4 b bytes n plan ih =>
    obtain ⟨used, split, count⟩ := ih blocked
    exact ⟨.accepts (n + 1) :: used, congrArg _ split, congrArg (· + 1) count⟩
  | case5 b bytes plan ih =>
    obtain ⟨used, split, count⟩ := ih blocked
    exact ⟨.fault .interrupted :: used, congrArg _ split, congrArg (· + 1) count⟩
  | case6 b bytes plan => exact ⟨[], rfl, rfl⟩

end OutputStream

end RenderBroker
