import RenderBroker.Failure
import RenderBroker.Stream.Capacity
import RenderBroker.Stream.Outcome

/-!
# Input streams

An input stream is a buffer of a fixed size. The bytes between `position` and `limit` have been
received and not yet read; those behind `limit` are free. Unread bytes move to the front of the
buffer before more are received, and the buffer changes its size only when it is told to.
-/

namespace RenderBroker

/-- A receive buffer. Of its bytes only those in front of the free ones are kept. -/
structure InputStream where
  capacity : Nat
  /-- The bytes from the front of the buffer to where the unread ones end. -/
  buffer : Array UInt8 := #[]
  /-- Where the first unread byte lies. -/
  position : Nat := 0
  deriving DecidableEq, Repr

namespace InputStream

def limit (s : InputStream) : Nat :=
  s.buffer.size

def available (s : InputStream) : Nat :=
  s.limit - s.position

def isFull (s : InputStream) : Bool :=
  s.available == s.capacity

def unread (s : InputStream) : List UInt8 :=
  (s.buffer.extract s.position s.limit).toList

structure Sound (s : InputStream) : Prop where
  position_le : s.position ≤ s.limit
  limit_le : s.limit ≤ s.capacity

def ofCapacity (n : Nat) : InputStream :=
  { capacity := n }

/-- An empty buffer of a size that must not be zero. -/
def create (n : Nat) : Except CapacityBreach InputStream :=
  if n = 0 then .error .none
  else if maxCapacity < n then .error .tooLarge
  else .ok (ofCapacity n)

/-- Why an operation on a buffer fails. -/
inductive Refusal where
  /-- Fewer bytes are unread than wanted. -/
  | short (wanted unread : Nat)
  /-- All of the buffer is unread. -/
  | full
  | fault (f : Fault)
  deriving DecidableEq, Repr

def Refusal.failure : Refusal → Failure
  | .short wanted unread =>
    ⟨[], .fault .unexpectedEnd
      ("need " ++ Text.decimal wanted ++ " bytes, " ++ Text.decimal unread ++ " buffered")⟩
  | .full => ⟨[], .fault .outOfMemory "input buffer full of unread bytes"⟩
  | .fault f => ⟨[], .fault f f.description⟩

def Refusal.kind : Refusal → Fault
  | .short _ _ => .unexpectedEnd
  | .full => .outOfMemory
  | .fault f => f

def read (s : InputStream) (n : Nat) : Except Refusal (List UInt8 × InputStream) :=
  if s.available < n then .error (.short n s.available)
  else
    .ok ((s.buffer.extract s.position (s.position + n)).toList,
      { s with position := s.position + n })

def readByte (s : InputStream) : Except Refusal (UInt8 × InputStream) :=
  if s.available < 1 then .error (.short 1 s.available)
  else .ok (s.buffer.getD s.position 0, { s with position := s.position + 1 })

def compact (s : InputStream) : InputStream :=
  { s with buffer := s.buffer.extract s.position s.limit, position := 0 }

def resized (s : InputStream) (n : Nat) : InputStream :=
  { s.compact with capacity := n }

/-- Gives the buffer a new size, which must hold the unread bytes and not be zero. -/
def resize (s : InputStream) (n : Nat) : Except CapacityBreach InputStream :=
  if n < s.available ∨ n = 0 then .error (.tooSmall n s.available)
  else if maxCapacity < n then .error .tooLarge
  else .ok (s.resized n)

/-- Puts received bytes behind the unread ones, as many as are free there. -/
def append (s : InputStream) (bytes : List UInt8) : InputStream :=
  { s with buffer := s.buffer ++ (bytes.take (s.capacity - s.limit)).toArray }

/-- What a fill came to: the result, and the free space that was offered to the read, if there was
one. -/
structure Fill where
  result : Except Refusal (List UInt8)
  offered : Option Nat
  stream : InputStream

/-- Receives once from a socket into the free space. -/
def fill (s : InputStream) (r : ReadOutcome) : Fill :=
  let s := s.compact
  if s.limit = s.capacity then ⟨.error .full, none, s⟩
  else
    let space := s.capacity - s.limit
    match r.delivered space with
    | .ok bytes => ⟨.ok bytes, some space, s.append bytes⟩
    | .error f => ⟨.error (.fault f), some space, s⟩

/-- Receives once, into a buffer of twice the size if this one is full. -/
def fillGrowing (s : InputStream) (r : ReadOutcome) : Fill :=
  if s.isFull then (s.resized (s.capacity * 2)).fill r else s.fill r

theorem sound_ofCapacity (n : Nat) : (ofCapacity n).Sound :=
  ⟨Nat.le_refl 0, Nat.zero_le _⟩

@[simp] theorem unread_ofCapacity (n : Nat) : (ofCapacity n).unread = [] := by
  simp [ofCapacity, unread]

@[simp] theorem available_compact (s : InputStream) : s.compact.available = s.available := by
  simp [compact, available, limit]

@[simp] theorem available_resized (s : InputStream) (n : Nat) :
    (s.resized n).available = s.available :=
  s.available_compact

theorem available_of_read {s t : InputStream} {n : Nat} {bytes : List UInt8}
    (h : s.read n = .ok (bytes, t)) : t.available + n = s.available := by
  unfold read at h
  split at h
  · cases h
  · cases h
    simp only [available, limit] at *
    omega

theorem available_of_readByte {s t : InputStream} {b : UInt8} (h : s.readByte = .ok (b, t)) :
    t.available + 1 = s.available := by
  rw [readByte] at h
  split at h
  · cases h
  · cases h
    simp only [available, limit] at *
    omega

theorem available_of_resize {s t : InputStream} {n : Nat} (h : s.resize n = .ok t) :
    t.available = s.available := by
  rw [resize] at h
  split at h
  · cases h
  · split at h
    · cases h
    · cases h
      simp

theorem length_unread (s : InputStream) : s.unread.length = s.available := by
  simp [unread, available, limit]

theorem unread_eq (s : InputStream) : s.unread = s.buffer.toList.drop s.position := by
  rw [unread, Array.toList_extract, List.extract_eq_take_drop, limit]
  apply List.take_of_length_le
  simp

theorem bytes_of_read {s t : InputStream} {n : Nat} {bytes : List UInt8}
    (h : s.read n = .ok (bytes, t)) : bytes = s.unread.take n ∧ t.unread = s.unread.drop n := by
  rw [read] at h
  split at h
  · cases h
  · cases h
    rw [unread_eq, unread_eq, List.drop_drop, Array.toList_extract, List.extract_eq_take_drop]
    simp

@[simp] theorem unread_compact (s : InputStream) : s.compact.unread = s.unread := by
  rw [unread_eq, compact, List.drop_zero]
  rfl

@[simp] theorem limit_compact (s : InputStream) : s.compact.limit = s.available := by
  simp [compact, available, limit]

@[simp] theorem unread_resized (s : InputStream) (n : Nat) : (s.resized n).unread = s.unread :=
  s.unread_compact

theorem unread_append {s : InputStream} {bytes : List UInt8} (sound : s.Sound)
    (fits : bytes.length ≤ s.capacity - s.limit) :
    (s.append bytes).unread = s.unread ++ bytes := by
  have position : s.position ≤ s.buffer.toList.length := sound.position_le
  rw [unread_eq, unread_eq, append, List.take_of_length_le fits, Array.toList_append,
    List.drop_append_of_le_length position]

/-- A sound buffer that is not of size zero. -/
structure Usable (s : InputStream) : Prop extends Sound s where
  capacity_pos : 0 < s.capacity

theorem usable_ofCapacity {n : Nat} (pos : 0 < n) : (ofCapacity n).Usable :=
  ⟨sound_ofCapacity n, pos⟩

theorem usable_resized {s : InputStream} {n : Nat} (pos : 0 < n) (fits : s.available ≤ n) :
    (s.resized n).Usable := by
  refine ⟨⟨Nat.zero_le _, ?_⟩, pos⟩
  change s.compact.limit ≤ n
  rwa [limit_compact]

namespace Usable

variable {s t : InputStream}

theorem available_le (u : s.Usable) : s.available ≤ s.capacity :=
  Nat.le_trans (Nat.sub_le ..) u.limit_le

theorem compact (u : s.Usable) : s.compact.Usable := by
  refine ⟨⟨Nat.zero_le _, ?_⟩, u.capacity_pos⟩
  rw [limit_compact]
  exact u.available_le

theorem read (u : s.Usable) {n : Nat} {bytes : List UInt8} (h : s.read n = .ok (bytes, t)) :
    t.Usable := by
  rw [InputStream.read] at h
  split at h
  · cases h
  · next enough =>
    cases h
    have := u.position_le
    refine ⟨⟨?_, u.limit_le⟩, u.capacity_pos⟩
    simp only [available, limit] at *
    omega

theorem append (u : s.Usable) (bytes : List UInt8) : (s.append bytes).Usable := by
  have := u.position_le
  have := u.limit_le
  refine ⟨⟨?_, ?_⟩, u.capacity_pos⟩
  · simp only [InputStream.append, limit, Array.size_append] at *
    omega
  · simp only [InputStream.append, limit, Array.size_append, List.size_toArray,
      List.length_take] at *
    omega

/-- What a fill comes to that is offered free space: the bytes that it delivers are unread behind
those that were. -/
structure Filled (s : InputStream) (r : ReadOutcome) (f : Fill) : Prop where
  usable : f.stream.Usable
  offered : ∃ space, 0 < space ∧ f.offered = some space ∧
    f.result = (r.delivered space).mapError Refusal.fault
  unread : f.stream.unread = s.unread ++ (f.result.toOption.getD [])

theorem fill (u : s.Usable) (room : s.available < s.capacity) (r : ReadOutcome) :
    Filled s r (s.fill r) := by
  have free : s.compact.limit ≠ s.compact.capacity := by
    rw [limit_compact]
    exact Nat.ne_of_lt room
  have space : 0 < s.compact.capacity - s.compact.limit := by
    rw [limit_compact]
    exact Nat.sub_pos_of_lt room
  rw [InputStream.fill]
  dsimp only
  rw [if_neg free]
  cases r with
  | bytes arrived =>
    have fits := List.length_take_le (s.compact.capacity - s.compact.limit) arrived
    refine ⟨u.compact.append _, ⟨_, space, rfl, rfl⟩, ?_⟩
    exact (unread_append u.compact.toSound fits).trans (congrArg (· ++ _) s.unread_compact)
  | fault f =>
    refine ⟨u.compact, ⟨_, space, rfl, rfl⟩, ?_⟩
    exact s.unread_compact.trans (List.append_nil _).symm

/-- A fill of a full buffer gets free space by doubling it. -/
theorem fillGrowing (u : s.Usable) (r : ReadOutcome) : Filled s r (s.fillGrowing r) := by
  have pos := u.capacity_pos
  rw [InputStream.fillGrowing]
  split
  · next full =>
    have full : s.available = s.capacity := by simpa [isFull] using full
    have grown : (s.resized (s.capacity * 2)).Usable := usable_resized (by omega) (by omega)
    have room : (s.resized (s.capacity * 2)).available < (s.resized (s.capacity * 2)).capacity := by
      rw [available_resized]
      change s.available < s.capacity * 2
      omega
    obtain ⟨usable, offered, unread⟩ := grown.fill room r
    rw [unread_resized] at unread
    exact ⟨usable, offered, unread⟩
  · next free =>
    have free : s.available ≠ s.capacity := by simpa [isFull] using free
    exact u.fill (Nat.lt_of_le_of_ne u.available_le free) r

end Usable

end InputStream

end RenderBroker
