import Mathlib.Algebra.Group.Nat.Defs
import RenderBroker.Proofs.Buffers
import RenderBroker.Proofs.Frames

namespace RenderBroker

variable {τ : Type}

namespace InputStream

variable {s : InputStream} {n p q : Nat}

@[simp] theorem capacity_fill (s : InputStream) (r : ReadOutcome) :
    (s.fill r).stream.capacity = s.capacity := by
  rw [fill]
  dsimp only
  split
  · rfl
  · split <;> rfl

theorem capacity_fillGrowing (s : InputStream) (r : ReadOutcome) :
    (s.fillGrowing r).stream.capacity =
      if s.available = s.capacity then s.capacity * 2 else s.capacity := by
  rw [fillGrowing, isFull]
  split
  · next full =>
    rw [if_pos (beq_iff_eq.mp full)]
    exact capacity_fill ..
  · next free =>
    rw [if_neg (mt beq_iff_eq.mpr free)]
    exact capacity_fill ..

/-- A buffer that began with `n` bytes and has grown by doublings, of which none was made before `p`
bytes waited. -/
structure Grown (n p : Nat) (s : InputStream) : Prop where
  usable : s.Usable
  doubled : ∃ j, s.capacity = n * 2 ^ j
  bounded : s.capacity ≤ max n (2 * p)
  available_le : s.available ≤ p

theorem grown_ofCapacity (pos : 0 < n) : Grown n 0 (ofCapacity n) :=
  ⟨usable_ofCapacity pos, ⟨0, (mul_one n).symm⟩, Nat.le_max_left .., Nat.le_refl 0⟩

theorem Grown.mono (g : Grown n p s) (more : p ≤ q) : Grown n q s := by
  have := g.bounded
  have := g.available_le
  exact ⟨g.usable, g.doubled, by omega, by omega⟩

theorem Grown.fillGrowing (g : Grown n p s) (r : ReadOutcome) :
    Grown n (max p (s.fillGrowing r).stream.available) (s.fillGrowing r).stream := by
  have bounded := g.bounded
  have available := g.available_le
  refine ⟨(g.usable.fillGrowing r).usable, ?_, ?_, Nat.le_max_right ..⟩
  · obtain ⟨j, doubled⟩ := g.doubled
    rw [capacity_fillGrowing]
    split
    · exact ⟨j + 1, by rw [doubled, Nat.mul_assoc, pow_succ]⟩
    · exact ⟨j, doubled⟩
  · rw [capacity_fillGrowing]
    split <;> omega

def queue (s : InputStream) : ByteQueue :=
  ⟨s.unread, s.capacity⟩

theorem Grown.follow (g : Grown n p s) {answered : BufferAnswer × InputStream}
    {expected : BufferAnswer × ByteQueue} (follows : Follows answered expected)
    (capacity : expected.2.capacity = s.capacity)
    (contents : expected.2.contents.length ≤ s.unread.length) : Grown n p answered.2 := by
  obtain ⟨-, kept⟩ := follows
  have same := kept.capacity.trans capacity
  refine ⟨kept.usable, ?_, ?_, ?_⟩
  · rw [same]
    exact g.doubled
  · rw [same]
    exact g.bounded
  · rw [kept.available]
    rw [s.length_unread] at contents
    exact Nat.le_trans contents g.available_le

theorem Grown.read (g : Grown n p s) (k : Nat) : Grown n p (s.perform (.read k)).2 := by
  have kept : s.Keeps s.queue := ⟨g.usable, rfl, rfl⟩
  apply g.follow (kept.read k)
  · rw [ByteQueue.read]
    split <;> rfl
  · rw [ByteQueue.read]
    split
    · exact Nat.le_refl _
    · exact (List.drop_sublist ..).length_le

theorem Grown.readByte (g : Grown n p s) : Grown n p (s.perform .readByte).2 := by
  have kept : s.Keeps s.queue := ⟨g.usable, rfl, rfl⟩
  apply g.follow kept.readByte
  · rw [ByteQueue.readByte]
    split <;> rfl
  · rw [ByteQueue.readByte]
    split
    · exact Nat.le_refl _
    · next b bytes first =>
      change bytes.length ≤ s.queue.contents.length
      rw [first]
      exact Nat.le_succ _

end InputStream

theorem ReadOutcome.delivered_eq_nil_iff {space : Nat} (free : 0 < space) (r : ReadOutcome) :
    r.delivered space = .ok [] ↔ r = .bytes [] := by
  cases r with
  | bytes arrived => simp [delivered, Nat.ne_of_gt free]
  | fault f => simp [delivered]

theorem ReadOutcome.delivered_eq_error_iff {space : Nat} {f : Fault} (r : ReadOutcome) :
    r.delivered space = .error f ↔ r = .fault f := by
  cases r <;> simp [delivered]

/-- What happens to a client: the loop receives for it, and its handler takes bytes from its buffer,
or does something that leaves the buffer alone. -/
inductive ClientStep (τ : Type) where
  | receive (r : ReadOutcome)
  | readByte
  | read (n : Nat)
  | other (act : Client τ → Client τ)

namespace Client

open InputStream (Grown)

variable {a b c : Client τ} {s : InputStream} {n p : Nat}

def undergo (c : Client τ) : ClientStep τ → Client τ
  | .receive r => (c.receive r).client
  | .readByte => { c with input := c.input.map fun s => (s.perform .readByte).2 }
  | .read n => { c with input := c.input.map fun s => (s.perform (.read n)).2 }
  | .other act => { act c with input := c.input }

def undergoAll (c : Client τ) (steps : List (ClientStep τ)) : Client τ :=
  steps.foldl undergo c

def peak (c : Client τ) : List (ClientStep τ) → Nat
  | [] => c.available
  | step :: steps => max c.available ((c.undergo step).peak steps)

theorem available_le_peak (c : Client τ) (steps : List (ClientStep τ)) :
    c.available ≤ c.peak steps := by
  cases steps with
  | nil => exact Nat.le_refl _
  | cons step steps => exact Nat.le_max_left ..

theorem grown_undergo (there : c.input = some s) (g : Grown n p s) (step : ClientStep τ) :
    ∃ t, (c.undergo step).input = some t ∧ Grown n (max p t.available) t := by
  cases step with
  | receive r =>
    rw [undergo, receive, there]
    exact ⟨_, rfl, g.fillGrowing r⟩
  | readByte =>
    rw [undergo, there]
    exact ⟨_, rfl, g.readByte.mono (Nat.le_max_left ..)⟩
  | read k =>
    rw [undergo, there]
    exact ⟨_, rfl, (g.read k).mono (Nat.le_max_left ..)⟩
  | other act =>
    rw [undergo, there]
    exact ⟨s, rfl, g.mono (Nat.le_max_left ..)⟩

theorem grown_undergoAll (there : c.input = some s) (g : Grown n p s)
    (steps : List (ClientStep τ)) :
    ∃ t, (c.undergoAll steps).input = some t ∧ Grown n (max p (c.peak steps)) t := by
  induction steps generalizing c s p with
  | nil => exact ⟨s, there, g.mono (Nat.le_max_left ..)⟩
  | cons step steps ih =>
    obtain ⟨t, next, grown⟩ := grown_undergo there g step
    obtain ⟨u, last, grown⟩ := ih next grown
    have available : t.available ≤ (c.undergo step).peak steps := by
      have bound := (c.undergo step).available_le_peak steps
      simpa [Client.available, next] using bound
    refine ⟨u, last, grown.mono ?_⟩
    rw [peak]
    omega

theorem received (there : c.input = some s) (usable : s.Usable) (r : ReadOutcome) :
    ∃ space t, 0 < space ∧ c.receive r = ⟨r.delivered space, some space, { c with input := some t }⟩ ∧
      (s.fillGrowing r).result ≠ .error .full ∧ t = (s.fillGrowing r).stream ∧
      t.unread = s.unread ++ (r.delivered space).toOption.getD [] := by
  obtain ⟨-, ⟨space, free, offered, result⟩, unread⟩ := usable.fillGrowing r
  refine ⟨space, _, free, ?_, ?_, rfl, ?_⟩
  · rw [receive, there]
    simp only [offered, result]
    cases r <;> rfl
  · rw [result]
    cases r <;> simp [ReadOutcome.delivered, Except.mapError]
  · rw [unread, result]
    cases r <;> rfl

/-- A reception is offered free space and comes to what the socket said. The buffer is doubled just
if all of it was unread, so it is never refused as full, and at most twice as large as what was once
unread, or as it was. -/
theorem receptions_run (absent : a.input = none) (pos : 0 < a.inputCapacity)
    (created : a.createStreams = .ok b) (steps : List (ClientStep τ)) :
    ∃ s, (b.undergoAll steps).input = some s ∧
      (∃ j, s.capacity = a.inputCapacity * 2 ^ j) ∧
      s.capacity ≤ max a.inputCapacity (2 * b.peak steps) ∧
      ∀ r,
        let got := (b.undergoAll steps).receive r
        (∃ space, 0 < space ∧ got.offered = some space ∧ got.result = r.delivered space) ∧
        (got.result = .ok [] ↔ r = .bytes []) ∧
        (s.fillGrowing r).result ≠ .error .full ∧
        (got.result = .error .outOfMemory ↔ r = .fault .outOfMemory) ∧
        ∃ t, got.client.input = some t ∧
          t.capacity = (if s.unread.length = s.capacity then s.capacity * 2 else s.capacity) ∧
          t.unread = s.unread ++ got.result.toOption.getD [] := by
  have first := input_of_createStreams created absent pos
  obtain ⟨s, there, grown⟩ := grown_undergoAll first (InputStream.grown_ofCapacity pos) steps
  refine ⟨s, there, grown.doubled, ?_, ?_⟩
  · have := grown.bounded
    omega
  · intro r
    obtain ⟨space, t, free, received, roomy, stream, unread⟩ := received there grown.usable r
    rw [received, s.length_unread]
    refine ⟨⟨space, free, rfl, rfl⟩, ReadOutcome.delivered_eq_nil_iff free r, roomy,
      ReadOutcome.delivered_eq_error_iff r, t, rfl, ?_, unread⟩
    rw [stream, InputStream.capacity_fillGrowing]

/-- A buffer of two bytes is full twice; between the two its handler takes one byte, asks for more
than there are, and marks the client. -/
theorem receptions_run_doubled :
    let a : Client Unit :=
      { descriptor := 3, serial := 0, tag := (), inputCapacity := 2, outputCapacity := 0 }
    let steps : List (ClientStep Unit) :=
      [.receive (.bytes [1, 2, 3]), .readByte, .other kill, .read 9,
        .receive (.bytes [4, 5]), .receive (.bytes [6, 7, 8])]
    a.input = none ∧ 0 < a.inputCapacity ∧ ∃ b, a.createStreams = .ok b ∧ b.peak steps = 4 ∧
      ∃ s, (b.undergoAll steps).input = some s ∧ s.unread = [2, 4, 6, 7] ∧
        s.capacity = 2 * 2 ∧ s.capacity ≤ max 2 (2 * 4) ∧
        ∀ r, ((b.undergoAll steps).receive r).result = .ok [] ↔ r = .bytes [] := by
  intro a steps
  have created : a.createStreams = .ok { a with input := some (.ofCapacity 2) } := rfl
  obtain ⟨s, there, -, bounded, each⟩ := receptions_run rfl (by decide) created steps
  have peak : peak { a with input := some (.ofCapacity 2) } steps = 4 := by decide +kernel
  rw [peak] at bounded
  have now : (undergoAll { a with input := some (.ofCapacity 2) } steps).input =
      some ⟨4, #[2, 4, 6, 7], 0⟩ := by decide +kernel
  cases now.symm.trans there
  refine ⟨rfl, by decide, _, created, peak, _, now, by decide +kernel, rfl, bounded, ?_⟩
  intro r
  exact (each r).2.1

end Client

end RenderBroker
