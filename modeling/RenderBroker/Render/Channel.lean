/-!
# Channels

A channel carries items in the order they were sent, as long as its receiving end is held. When
that end is let go, the items still in the channel are gone, and no further one is taken.
-/

namespace RenderBroker

/-- The items in a channel, the next one first, and whether somebody can still receive them. -/
structure Channel (α : Type) where
  items : List α := []
  received : Bool := true

namespace Channel

variable {α : Type}

instance : Inhabited (Channel α) := ⟨{}⟩

def send (c : Channel α) (a : α) : Bool × Channel α :=
  if c.received then (true, { c with items := c.items ++ [a] }) else (false, c)

def receive (c : Channel α) : Option (α × Channel α) :=
  match c.items with
  | [] => none
  | a :: items => some (a, { c with items })

def close (_ : Channel α) : Channel α :=
  { items := [], received := false }

@[simp] theorem send_fst (c : Channel α) (a : α) : (c.send a).1 = c.received := by
  rw [send]
  split <;> simp_all

theorem items_send (c : Channel α) (a : α) :
    (c.send a).2.items = if c.received then c.items ++ [a] else c.items := by
  rw [send]
  split <;> simp_all

@[simp] theorem received_send (c : Channel α) (a : α) : (c.send a).2.received = c.received := by
  rw [send]
  split <;> simp_all

end Channel

end RenderBroker
