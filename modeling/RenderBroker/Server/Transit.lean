/-!
# Bytes on their way

A socket keeps the bytes that its peer has not received in blocks. It takes more as long as its
blocks weigh less than a limit, and tells that it is ready again when they weigh no more than a
quarter of that. A block weighs something beside its bytes, and keeps its weight until its last byte
was received.
-/

namespace RenderBroker

/-- Bytes that were sent together, with the number that was sent. -/
structure Block where
  size : Nat
  /-- The bytes that were not received yet. -/
  left : List UInt8

namespace Block

def maxSize : Nat :=
  36544

/-- What a block weighs beside its bytes. -/
def overhead : Nat :=
  576

def weight (b : Block) : Nat :=
  b.size + overhead

/-- Bytes in as few blocks as possible. -/
def ofBytes (bytes : List UInt8) : List Block :=
  if bytes = [] then []
  else
    let front := bytes.take maxSize
    ⟨front.length, front⟩ :: ofBytes (bytes.drop maxSize)
termination_by bytes.length
decreasing_by
  have : 0 < bytes.length := List.length_pos_iff.mpr ‹_›
  simp only [List.length_drop, maxSize]
  omega

theorem flatMap_ofBytes (bytes : List UInt8) : (ofBytes bytes).flatMap left = bytes := by
  fun_induction ofBytes bytes with
  | case1 => rfl
  | case2 bytes _ front ih =>
    rw [List.flatMap_cons, ih]
    exact List.take_append_drop maxSize bytes

end Block

/-- The blocks on their way, the first one to be received first. -/
structure Transit where
  blocks : List Block := []

namespace Transit

def bytes (t : Transit) : List UInt8 :=
  t.blocks.flatMap Block.left

/-- The weight from which a socket takes no more. -/
def limit : Nat :=
  212992

def weight (t : Transit) : Nat :=
  t.blocks.foldl (fun n b => n + b.weight) 0

/-- Whether the socket tells that it takes more. -/
def isReady (t : Transit) : Bool :=
  t.weight * 4 ≤ limit

/-- How many bytes the socket takes at most: full blocks until they weigh too much. -/
def room (t : Transit) : Nat :=
  let block := Block.maxSize + Block.overhead
  (limit - t.weight + (block - 1)) / block * Block.maxSize

def send (t : Transit) (bytes : List UInt8) : Transit :=
  ⟨t.blocks ++ Block.ofBytes bytes⟩

@[simp] theorem bytes_send (t : Transit) (bytes : List UInt8) :
    (t.send bytes).bytes = t.bytes ++ bytes := by
  simp [send, Transit.bytes, Block.flatMap_ofBytes]

def size (t : Transit) : Nat :=
  t.blocks.foldl (fun n b => n + b.left.length) 0

/-- The first bytes of blocks, at most `n`, and what they leave. -/
def receiveFrom (n : Nat) : List Block → List UInt8 × List Block
  | [] => ([], [])
  | b :: blocks =>
    if b.left.length ≤ n then
      let (bytes, blocks) := receiveFrom (n - b.left.length) blocks
      (b.left ++ bytes, blocks)
    else (b.left.take n, { b with left := b.left.drop n } :: blocks)

def receive (t : Transit) (n : Nat) : List UInt8 × Transit :=
  let (bytes, blocks) := receiveFrom n t.blocks
  (bytes, ⟨blocks⟩)

theorem receiveFrom_eq (n : Nat) (blocks : List Block) :
    (receiveFrom n blocks).1 = (blocks.flatMap Block.left).take n ∧
      (receiveFrom n blocks).2.flatMap Block.left = (blocks.flatMap Block.left).drop n := by
  fun_induction receiveFrom n blocks with
  | case1 => simp
  | case2 n b blocks h bytes rest e ih =>
    rw [e] at ih
    rw [List.flatMap_cons, List.take_append, List.drop_append, List.take_of_length_le h,
      List.drop_of_length_le h]
    exact ⟨congrArg _ ih.1, ih.2⟩
  | case3 n b blocks h =>
    have h' := Nat.le_of_not_le h
    rw [List.flatMap_cons, List.take_append_of_le_length h', List.drop_append_of_le_length h']
    exact ⟨rfl, rfl⟩

@[simp] theorem bytes_receive (t : Transit) (n : Nat) :
    (t.receive n).2.bytes = t.bytes.drop n :=
  (receiveFrom_eq n t.blocks).2

end Transit

end RenderBroker
