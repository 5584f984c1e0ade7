import RenderBroker.Stream.Input

namespace RenderBroker

open InputStream (Refusal)

/-- What is done to a receive buffer. -/
inductive BufferStep where
  | fill (r : ReadOutcome)
  | readByte
  | read (n : Nat)
  | resize (n : Nat)
  /-- The unread bytes are moved to the front. -/
  | compact

inductive BufferAnswer where
  /-- What a fill came to, and the free space that was offered to the read, if one was made. -/
  | filled (result : Except Refusal (List UInt8)) (offered : Option Nat)
  | byte (result : Except Refusal UInt8)
  | bytes (result : Except Refusal (List UInt8))
  | resized (result : Except CapacityBreach Unit)
  | compacted

def traceBuffer {σ : Type} (perform : σ → BufferStep → BufferAnswer × σ) (s : σ) :
    List BufferStep → List BufferAnswer × σ
  | [] => ([], s)
  | step :: steps =>
    let (answer, s) := perform s step
    let (answers, s) := traceBuffer perform s steps
    (answer :: answers, s)

/-- Bytes in the order they came, and how many there may be. -/
structure ByteQueue where
  contents : List UInt8 := []
  capacity : Nat
  deriving DecidableEq

namespace ByteQueue

def free (q : ByteQueue) : Nat :=
  q.capacity - q.contents.length

def fill (q : ByteQueue) (r : ReadOutcome) : BufferAnswer × ByteQueue :=
  if q.contents.length = q.capacity then (.filled (.error .full) none, q)
  else
    match r.delivered q.free with
    | .ok bytes => (.filled (.ok bytes) (some q.free), { q with contents := q.contents ++ bytes })
    | .error f => (.filled (.error (.fault f)) (some q.free), q)

def readByte (q : ByteQueue) : BufferAnswer × ByteQueue :=
  match q.contents with
  | [] => (.byte (.error (.short 1 0)), q)
  | b :: bytes => (.byte (.ok b), { q with contents := bytes })

def read (q : ByteQueue) (n : Nat) : BufferAnswer × ByteQueue :=
  if q.contents.length < n then (.bytes (.error (.short n q.contents.length)), q)
  else (.bytes (.ok (q.contents.take n)), { q with contents := q.contents.drop n })

def resize (q : ByteQueue) (n : Nat) : BufferAnswer × ByteQueue :=
  if n < q.contents.length ∨ n = 0 then
    (.resized (.error (.tooSmall n q.contents.length)), q)
  else if maxCapacity < n then (.resized (.error .tooLarge), q)
  else (.resized (.ok ()), { q with capacity := n })

def perform (q : ByteQueue) : BufferStep → BufferAnswer × ByteQueue
  | .fill r => q.fill r
  | .readByte => q.readByte
  | .read n => q.read n
  | .resize n => q.resize n
  | .compact => (.compacted, q)

end ByteQueue

namespace InputStream

variable {s t : InputStream} {q : ByteQueue}

/-- A read or a change of size that is refused leaves the buffer as it is. -/
def perform (s : InputStream) : BufferStep → BufferAnswer × InputStream
  | .fill r => (.filled (s.fill r).result (s.fill r).offered, (s.fill r).stream)
  | .readByte =>
    match s.readByte with
    | .ok (b, t) => (.byte (.ok b), t)
    | .error e => (.byte (.error e), s)
  | .read n =>
    match s.read n with
    | .ok (bytes, t) => (.bytes (.ok bytes), t)
    | .error e => (.bytes (.error e), s)
  | .resize n =>
    match s.resize n with
    | .ok t => (.resized (.ok ()), t)
    | .error e => (.resized (.error e), s)
  | .compact => (.compacted, s.compact)

/-- The buffer has its marks in order and holds what the queue does. -/
structure Keeps (s : InputStream) (q : ByteQueue) : Prop where
  usable : s.Usable
  unread : s.unread = q.contents
  capacity : s.capacity = q.capacity

/-- A step is answered as the queue answers it, and the buffer goes on to hold what the queue does. -/
def Follows (answered : BufferAnswer × InputStream) (expected : BufferAnswer × ByteQueue) : Prop :=
  answered.1 = expected.1 ∧ answered.2.Keeps expected.2

theorem keeps_ofCapacity {n : Nat} (pos : 0 < n) : (ofCapacity n).Keeps { capacity := n } :=
  ⟨usable_ofCapacity pos, unread_ofCapacity n, rfl⟩

theorem Keeps.available (k : s.Keeps q) : s.available = q.contents.length := by
  rw [← k.unread, s.length_unread]

theorem Keeps.isFull_iff (k : s.Keeps q) : s.isFull = true ↔ q.free = 0 := by
  have bound := k.usable.available_le
  rw [k.available, k.capacity] at bound
  rw [isFull, k.available, k.capacity, beq_iff_eq, ByteQueue.free]
  omega

theorem Keeps.compact (k : s.Keeps q) : s.compact.Keeps q :=
  ⟨k.usable.compact, s.unread_compact.trans k.unread, k.capacity⟩

theorem Keeps.fill (k : s.Keeps q) (r : ReadOutcome) :
    Follows (s.perform (.fill r)) (q.fill r) := by
  have kept := k.compact
  have limit : s.compact.limit = q.contents.length := by rw [limit_compact, k.available]
  have space : s.compact.capacity - s.compact.limit = q.free := by
    rw [limit, kept.capacity, ByteQueue.free]
  rw [perform, InputStream.fill, ByteQueue.fill]
  simp only [limit, kept.capacity]
  split
  · exact ⟨rfl, kept⟩
  · cases r with
    | fault f => exact ⟨rfl, kept⟩
    | bytes arrived =>
      have fits : (arrived.take q.free).length ≤ s.compact.capacity - s.compact.limit :=
        space ▸ List.length_take_le ..
      refine ⟨rfl, kept.usable.append _, ?_, k.capacity⟩
      exact (unread_append kept.usable.toSound fits).trans (congrArg (· ++ _) kept.unread)

def skip (s : InputStream) (n : Nat) : InputStream :=
  { s with position := s.position + n }

theorem Keeps.skip (k : s.Keeps q) {n : Nat} (enough : n ≤ s.available) :
    (s.skip n).Keeps { q with contents := q.contents.drop n } := by
  refine ⟨⟨⟨?_, k.usable.limit_le⟩, k.usable.capacity_pos⟩, ?_, k.capacity⟩
  · have := k.usable.position_le
    simp only [InputStream.skip, InputStream.available, limit] at *
    omega
  · rw [← k.unread, unread_eq, unread_eq, List.drop_drop]
    rfl

theorem read_of_le {n : Nat} (enough : n ≤ s.available) :
    s.read n = .ok (s.unread.take n, s.skip n) := by
  have there : s.read n = .ok (_, s.skip n) := if_neg (Nat.not_lt.mpr enough)
  obtain ⟨taken, -⟩ := bytes_of_read there
  rw [there, taken]

theorem readByte_of_unread {b : UInt8} {bytes : List UInt8} (first : s.unread = b :: bytes) :
    s.readByte = .ok (b, s.skip 1) := by
  have enough : ¬ s.available < 1 := by simp [← s.length_unread, first]
  have byte : s.buffer.getD s.position 0 = b := by
    rw [unread_eq] at first
    have := congrArg List.head? first
    simpa [Array.getD_eq_getD_getElem?] using congrArg (Option.getD · 0) this
  rw [readByte, if_neg enough, byte, skip]

theorem Keeps.read (k : s.Keeps q) (n : Nat) : Follows (s.perform (.read n)) (q.read n) := by
  rw [perform, ByteQueue.read, ← k.available]
  by_cases short : s.available < n
  · rw [if_pos short, InputStream.read, if_pos short]
    exact ⟨rfl, k⟩
  · have enough := Nat.not_lt.mp short
    rw [if_neg short, read_of_le enough, k.unread]
    exact ⟨rfl, k.skip enough⟩

theorem Keeps.readByte (k : s.Keeps q) : Follows (s.perform .readByte) q.readByte := by
  have count := k.available
  rw [perform, ByteQueue.readByte]
  cases there : q.contents with
  | nil =>
    rw [there, List.length_nil] at count
    rw [InputStream.readByte, if_pos (by omega), count]
    exact ⟨rfl, k⟩
  | cons b bytes =>
    rw [there, List.length_cons] at count
    have left := k.skip (n := 1) (by omega)
    rw [there] at left
    rw [readByte_of_unread (k.unread.trans there)]
    exact ⟨rfl, left⟩

theorem Keeps.resize (k : s.Keeps q) (n : Nat) : Follows (s.perform (.resize n)) (q.resize n) := by
  rw [perform, InputStream.resize, ByteQueue.resize, ← k.available]
  by_cases small : n < s.available ∨ n = 0
  · rw [if_pos small, if_pos small]
    exact ⟨rfl, k⟩
  · rw [if_neg small, if_neg small]
    by_cases large : maxCapacity < n
    · rw [if_pos large, if_pos large]
      exact ⟨rfl, k⟩
    · rw [if_neg large, if_neg large]
      have fits : (s.resized n).Usable := usable_resized (by omega) (by omega)
      exact ⟨rfl, fits, (s.unread_resized n).trans k.unread, rfl⟩

theorem Keeps.perform (k : s.Keeps q) (step : BufferStep) :
    Follows (s.perform step) (q.perform step) := by
  cases step with
  | fill r => exact k.fill r
  | readByte => exact k.readByte
  | read n => exact k.read n
  | resize n => exact k.resize n
  | compact => exact ⟨rfl, k.compact⟩

theorem Keeps.trace (k : s.Keeps q) (steps : List BufferStep) :
    (traceBuffer InputStream.perform s steps).1 = (traceBuffer ByteQueue.perform q steps).1 ∧
      (traceBuffer InputStream.perform s steps).2.Keeps
        (traceBuffer ByteQueue.perform q steps).2 := by
  induction steps generalizing s q with
  | nil => exact ⟨rfl, k⟩
  | cons step steps ih =>
    obtain ⟨same, next⟩ := k.perform step
    obtain ⟨answers, last⟩ := ih next
    exact ⟨List.cons_eq_cons.mpr ⟨same, answers⟩, last⟩

end InputStream

def difference? (a b : Nat) : Option Nat :=
  if b ≤ a then some (a - b) else none

def slice? (cells : List UInt8) (first last : Nat) : Option (List UInt8) :=
  if first ≤ last ∧ last ≤ cells.length then some ((cells.take last).drop first) else none

def overwrite? (cells : List UInt8) (first : Nat) (bytes : List UInt8) : Option (List UInt8) :=
  if first + bytes.length ≤ cells.length then
    some (cells.take first ++ bytes ++ cells.drop (first + bytes.length))
  else none

/-- A receive buffer as it lies in memory: all of its cells, whatever was left over in them, and the
marks between which the bytes are unread. -/
structure BufferCells where
  cells : List UInt8
  position : Nat := 0
  limit : Nat := 0
  deriving DecidableEq

namespace BufferCells

variable {b : BufferCells} {q : ByteQueue}

def ofCapacity (n : Nat) : BufferCells :=
  { cells := List.replicate n 0 }

def available? (b : BufferCells) : Option Nat :=
  difference? b.limit b.position

def compact? (b : BufferCells) : Option BufferCells :=
  if b.position = 0 then some b
  else do
    let unread ← slice? b.cells b.position b.limit
    let cells ← overwrite? b.cells 0 unread
    let limit ← difference? b.limit b.position
    return { cells, limit }

def read? (b : BufferCells) (n : Nat) : Option (Except Refusal (List UInt8) × BufferCells) := do
  let available ← b.available?
  if available < n then
    return (.error (.short n available), b)
  let bytes ← slice? b.cells b.position (b.position + n)
  return (.ok bytes, { b with position := b.position + n })

def readByte? (b : BufferCells) : Option (Except Refusal UInt8 × BufferCells) := do
  match ← b.read? 1 with
  | (.ok bytes, b) => return (.ok (← bytes[0]?), b)
  | (.error e, b) => return (.error e, b)

def fill? (b : BufferCells) (r : ReadOutcome) : Option (BufferAnswer × BufferCells) := do
  let b ← b.compact?
  if b.limit = b.cells.length then
    return (.filled (.error .full) none, b)
  let free ← slice? b.cells b.limit b.cells.length
  match r.delivered free.length with
  | .ok bytes =>
    let cells ← overwrite? b.cells b.limit bytes
    return (.filled (.ok bytes) (some free.length),
      { b with cells, limit := b.limit + bytes.length })
  | .error f => return (.filled (.error (.fault f)) (some free.length), b)

/-- Whether the cells are too many is seen when the unread bytes have been moved. -/
def resize? (b : BufferCells) (n : Nat) : Option (BufferAnswer × BufferCells) := do
  let available ← b.available?
  if n < available ∨ n = 0 then
    return (.resized (.error (.tooSmall n available)), b)
  let b ← b.compact?
  if maxCapacity < n then
    return (.resized (.error .tooLarge), b)
  return (.resized (.ok ()),
    { b with cells := b.cells.take n ++ List.replicate (n - b.cells.length) 0 })

/-- Nothing comes back if a place lies outside of the cells, or a difference is negative. -/
def perform? (b : BufferCells) : BufferStep → Option (BufferAnswer × BufferCells)
  | .fill r => b.fill? r
  | .readByte => (b.readByte?).map fun (result, b) => (.byte result, b)
  | .read n => (b.read? n).map fun (result, b) => (.bytes result, b)
  | .resize n => b.resize? n
  | .compact => (b.compact?).map fun b => (.compacted, b)

def trace? (b : BufferCells) : List BufferStep → Option (List BufferAnswer × BufferCells)
  | [] => some ([], b)
  | step :: steps => do
    let (answer, b) ← b.perform? step
    let (answers, b) ← b.trace? steps
    return (answer :: answers, b)

structure Keeps (b : BufferCells) (q : ByteQueue) : Prop where
  position_le : b.position ≤ b.limit
  limit_le : b.limit ≤ b.cells.length
  unread : (b.cells.take b.limit).drop b.position = q.contents
  capacity : b.cells.length = q.capacity

def Follows (answered : Option (BufferAnswer × BufferCells)) (expected : BufferAnswer × ByteQueue) :
    Prop :=
  ∃ b : BufferCells, answered = some (expected.1, b) ∧ b.Keeps expected.2

theorem keeps_ofCapacity (n : Nat) : (ofCapacity n).Keeps { capacity := n } :=
  ⟨Nat.le_refl 0, Nat.zero_le _, rfl, List.length_replicate⟩

theorem difference?_of_le {a b : Nat} (le : b ≤ a) : difference? a b = some (a - b) :=
  if_pos le

theorem slice?_of_le {cells : List UInt8} {first last : Nat} (ordered : first ≤ last)
    (inside : last ≤ cells.length) : slice? cells first last = some ((cells.take last).drop first) :=
  if_pos ⟨ordered, inside⟩

theorem overwrite?_of_le {cells bytes : List UInt8} {first : Nat}
    (inside : first + bytes.length ≤ cells.length) :
    overwrite? cells first bytes =
      some (cells.take first ++ bytes ++ cells.drop (first + bytes.length)) :=
  if_pos inside

theorem Keeps.length (k : b.Keeps q) : q.contents.length = b.limit - b.position := by
  rw [← k.unread, List.length_drop, List.length_take_of_le k.limit_le]

theorem Keeps.available? (k : b.Keeps q) : b.available? = some q.contents.length := by
  rw [BufferCells.available?, difference?_of_le k.position_le, k.length]

theorem Keeps.compact? (k : b.Keeps q) :
    ∃ c : BufferCells, b.compact? = some c ∧ c.Keeps q ∧ c.position = 0 := by
  rw [BufferCells.compact?]
  split
  · next front => exact ⟨b, rfl, k, front⟩
  · have short : q.contents.length ≤ b.cells.length := by
      have := k.length
      have := k.limit_le
      omega
    have copied : overwrite? b.cells 0 q.contents =
        some (q.contents ++ b.cells.drop q.contents.length) := by
      simp [overwrite?, short]
    have limit : difference? b.limit b.position = some q.contents.length := k.available?
    refine ⟨{ cells := q.contents ++ b.cells.drop q.contents.length, limit := q.contents.length },
      ?_, ⟨Nat.zero_le _, ?_, ?_, ?_⟩, rfl⟩
    · simp [slice?_of_le k.position_le k.limit_le, k.unread, copied, limit]
    · simp
    · simp
    · rw [← k.capacity]
      simp [short]

theorem Keeps.read?_of_lt (k : b.Keeps q) {n : Nat} (short : q.contents.length < n) :
    b.read? n = some (.error (.short n q.contents.length), b) := by
  simp [BufferCells.read?, k.available?, short]

theorem Keeps.read?_of_le (k : b.Keeps q) {n : Nat} (enough : n ≤ q.contents.length) :
    ∃ c : BufferCells, b.read? n = some (.ok (q.contents.take n), c) ∧
      c.Keeps { q with contents := q.contents.drop n } := by
  have length := k.length
  have := k.position_le
  have := k.limit_le
  have taken : slice? b.cells b.position (b.position + n) = some (q.contents.take n) := by
    rw [slice?_of_le (by omega) (by omega), ← k.unread, List.take_drop, List.take_take,
      Nat.min_eq_left (by omega)]
  refine ⟨{ b with position := b.position + n }, ?_, ?_, k.limit_le, ?_, k.capacity⟩
  · simp [BufferCells.read?, k.available?, Nat.not_lt.mpr enough, taken]
  · change b.position + n ≤ b.limit
    omega
  · rw [← k.unread, List.drop_drop]

theorem Keeps.read? (k : b.Keeps q) (n : Nat) : Follows (b.perform? (.read n)) (q.read n) := by
  rw [perform?, ByteQueue.read]
  split
  · next short =>
    rw [k.read?_of_lt short]
    exact ⟨b, rfl, k⟩
  · next enough =>
    obtain ⟨c, read, kept⟩ := k.read?_of_le (Nat.not_lt.mp enough)
    rw [read]
    exact ⟨c, rfl, kept⟩

theorem Keeps.readByte? (k : b.Keeps q) : Follows (b.perform? .readByte) q.readByte := by
  rw [perform?, BufferCells.readByte?, ByteQueue.readByte]
  cases there : q.contents with
  | nil =>
    rw [k.read?_of_lt (by simp [there]), there]
    exact ⟨b, rfl, k⟩
  | cons first bytes =>
    obtain ⟨c, read, kept⟩ := k.read?_of_le (n := 1) (by simp [there])
    rw [there] at read kept
    rw [read]
    exact ⟨c, rfl, kept⟩

theorem Keeps.append (k : b.Keeps q) (front : b.position = 0) {bytes : List UInt8}
    (fits : bytes.length ≤ q.free) :
    ∃ cells, overwrite? b.cells b.limit bytes = some cells ∧
      Keeps { b with cells, limit := b.limit + bytes.length }
        { q with contents := q.contents ++ bytes } := by
  have limit : b.limit = q.contents.length := by rw [k.length, front, Nat.sub_zero]
  have unread : b.cells.take b.limit = q.contents := by simpa [front] using k.unread
  have inside : b.limit + bytes.length ≤ b.cells.length := by
    have := k.limit_le
    rw [ByteQueue.free, ← k.capacity, ← limit] at fits
    omega
  refine ⟨_, overwrite?_of_le inside, ?_⟩
  rw [unread]
  refine ⟨?_, ?_, ?_, ?_⟩
  · rw [front]
    exact Nat.zero_le _
  · simp [limit]
  · rw [front, List.drop_zero, limit, ← List.length_append, List.take_left]
  · rw [← k.capacity]
    simp only [List.length_append, List.length_drop, ← limit]
    omega

theorem Keeps.fill? (k : b.Keeps q) (r : ReadOutcome) :
    Follows (b.perform? (.fill r)) (q.fill r) := by
  obtain ⟨c, compacted, kept, front⟩ := k.compact?
  have limit : c.limit = q.contents.length := by rw [kept.length, front, Nat.sub_zero]
  have space : slice? c.cells c.limit c.cells.length = some (c.cells.drop c.limit) := by
    rw [slice?_of_le kept.limit_le (Nat.le_refl _), List.take_length]
  have free : (c.cells.drop c.limit).length = q.free := by
    rw [List.length_drop, kept.capacity, limit, ByteQueue.free]
  have same : q.contents.length = q.capacity ↔ c.limit = c.cells.length := by
    rw [limit, kept.capacity]
  rw [perform?, BufferCells.fill?, compacted, ByteQueue.fill]
  by_cases full : c.limit = c.cells.length
  · rw [if_pos (same.mpr full)]
    exact ⟨c, by simp [full], kept⟩
  · rw [if_neg (mt same.mp full)]
    cases r with
    | fault f => exact ⟨c, by simp [full, space, free, ReadOutcome.delivered], kept⟩
    | bytes arrived =>
      obtain ⟨cells, put, next⟩ := kept.append front (List.length_take_le q.free arrived)
      refine ⟨{ c with cells, limit := c.limit + (arrived.take q.free).length }, ?_, next⟩
      simp [full, space, free, put, ReadOutcome.delivered]

theorem Keeps.resized (k : b.Keeps q) {n : Nat} (fits : b.limit ≤ n) :
    Keeps { b with cells := b.cells.take n ++ List.replicate (n - b.cells.length) 0 }
      { q with capacity := n } := by
  have := k.limit_le
  refine ⟨k.position_le, ?_, ?_, ?_⟩
  · simp
    omega
  · rw [← k.unread, List.take_append_of_le_length (by simp; omega), List.take_take,
      Nat.min_eq_left fits]
  · simp
    omega

theorem Keeps.resize? (k : b.Keeps q) (n : Nat) :
    Follows (b.perform? (.resize n)) (q.resize n) := by
  rw [perform?, BufferCells.resize?, k.available?, ByteQueue.resize]
  by_cases small : n < q.contents.length ∨ n = 0
  · rw [if_pos small]
    exact ⟨b, by simp [small], k⟩
  · obtain ⟨c, compacted, kept, front⟩ := k.compact?
    rw [if_neg small]
    by_cases large : maxCapacity < n
    · rw [if_pos large]
      exact ⟨c, by simp [small, large, compacted], kept⟩
    · rw [if_neg large]
      have fits : c.limit ≤ n := by
        have := kept.length
        omega
      exact ⟨_, by simp [small, large, compacted], kept.resized fits⟩

theorem Keeps.perform? (k : b.Keeps q) (step : BufferStep) :
    Follows (b.perform? step) (q.perform step) := by
  cases step with
  | fill r => exact k.fill? r
  | readByte => exact k.readByte?
  | read n => exact k.read? n
  | resize n => exact k.resize? n
  | compact =>
    obtain ⟨c, compacted, kept, -⟩ := k.compact?
    rw [BufferCells.perform?, compacted]
    exact ⟨c, rfl, kept⟩

theorem Keeps.trace? (k : b.Keeps q) (steps : List BufferStep) :
    ∃ c, b.trace? steps = some ((traceBuffer ByteQueue.perform q steps).1, c) ∧
      c.Keeps (traceBuffer ByteQueue.perform q steps).2 := by
  induction steps generalizing b q with
  | nil => exact ⟨b, rfl, k⟩
  | cons step steps ih =>
    obtain ⟨next, performed, kept⟩ := k.perform? step
    obtain ⟨last, traced, held⟩ := ih kept
    refine ⟨last, ?_, held⟩
    rw [BufferCells.trace?, performed]
    change (next.trace? steps).bind _ = _
    rw [traced]
    rfl

end BufferCells

namespace InputStream

/-- Whatever is done to a new buffer, and wherever its unread bytes are moved to the front in
between, its marks and its cells in memory answer as the queue does and hold what it holds. -/
theorem buffers_run {n : Nat} (pos : 0 < n) (fits : n ≤ maxCapacity) (steps : List BufferStep) :
    ∃ first, create n = .ok first ∧
      let expected := traceBuffer ByteQueue.perform { capacity := n } steps
      let reached := traceBuffer perform first steps
      reached.1 = expected.1 ∧
      reached.2.position ≤ reached.2.limit ∧ reached.2.limit ≤ reached.2.capacity ∧
      reached.2.unread = expected.2.contents ∧ reached.2.capacity = expected.2.capacity ∧
      reached.2.available = expected.2.contents.length ∧
      (reached.2.isFull = true ↔ expected.2.free = 0) ∧
      ∃ b : BufferCells, (BufferCells.ofCapacity n).trace? steps = some (expected.1, b) ∧
        b.position ≤ b.limit ∧ b.limit ≤ b.cells.length ∧
        (b.cells.take b.limit).drop b.position = expected.2.contents ∧
        b.cells.length = expected.2.capacity := by
  refine ⟨ofCapacity n, ?_, ?_⟩
  · rw [create, if_neg (Nat.ne_of_gt pos), if_neg (Nat.not_lt.mpr fits)]
  · intro expected reached
    obtain ⟨answers, kept⟩ := (keeps_ofCapacity pos).trace steps
    obtain ⟨b, traced, cells⟩ := (BufferCells.keeps_ofCapacity n).trace? steps
    refine ⟨answers, kept.usable.position_le, kept.usable.limit_le, kept.unread, kept.capacity,
      kept.available, kept.isFull_iff, b, traced, cells.position_le, cells.limit_le,
      cells.unread, cells.capacity⟩

/-- The unread bytes wander to the end of a buffer of four bytes, which is filled again, refuses to
drop a byte or to hold none, shrinks, fails to receive and grows. -/
theorem buffers_run_wandering :
    let steps : List BufferStep :=
      [.fill (.bytes [1, 2, 3, 4, 5]), .fill (.bytes [6]), .read 2, .readByte,
        .fill (.bytes [7, 8]), .compact, .read 4, .resize 2, .resize 0, .resize 3,
        .fill (.bytes [9]), .readByte, .fill (.fault .wouldBlock), .resize (maxCapacity + 1),
        .resize 8, .read 2]
    0 < 4 ∧ 4 ≤ maxCapacity ∧ ∃ first, create 4 = .ok first ∧
      (traceBuffer perform first steps).1 =
        [.filled (.ok [1, 2, 3, 4]) (some 4), .filled (.error .full) none, .bytes (.ok [1, 2]),
          .byte (.ok 3), .filled (.ok [7, 8]) (some 3), .compacted,
          .bytes (.error (.short 4 3)), .resized (.error (.tooSmall 2 3)),
          .resized (.error (.tooSmall 0 3)), .resized (.ok ()), .filled (.error .full) none,
          .byte (.ok 4), .filled (.error (.fault .wouldBlock)) (some 1),
          .resized (.error .tooLarge), .resized (.ok ()), .bytes (.ok [7, 8])] ∧
      (traceBuffer perform first steps).2.unread = [] ∧
      ∃ b, (BufferCells.ofCapacity 4).trace? steps =
        some ((traceBuffer perform first steps).1, b) ∧ b.cells.length = 8 := by
  intro steps
  have fits : 4 ≤ maxCapacity := by decide
  obtain ⟨first, created, answers, -, -, unread, -, -, -, b, traced, -, -, -, cells⟩ :=
    buffers_run (by decide) fits steps
  refine ⟨by decide, fits, first, created, answers, unread, b, ?_, cells⟩
  rw [answers, traced]

/-- A size that memory cannot have is refused too, although nothing is unread. -/
theorem not_refused_iff_small :
    ¬ ∀ s : InputStream, create 1 = .ok s →
      ∀ n, (∃ breach, s.resize n = .error breach) ↔ n = 0 ∨ n < s.available := by
  intro claim
  have refused : (ofCapacity 1).resize (maxCapacity + 1) = .error .tooLarge := rfl
  rcases (claim _ rfl (maxCapacity + 1)).mp ⟨_, refused⟩ with zero | small
  · exact Nat.succ_ne_zero _ zero
  · exact Nat.not_lt_zero _ small

end InputStream

end RenderBroker
