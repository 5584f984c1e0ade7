import RenderBroker.Render.Bridge
import RenderBroker.Turns

/-!
# The locks of drawables

Any number of threads resolve, redraw and change drawables at once. Each drawable has a render lock
and a lock on its texture slot, and who needs both takes the render lock first. A lock whose holder
panicked is marked, and the mark keeps nobody out. A call that nobody gets in the way of comes to
what the bridge says.
-/

namespace RenderBroker

/-- Which thread holds a lock, and whether one panicked while it did. -/
structure Lock where
  holder : Option Nat := none
  poisoned : Bool := false
  deriving DecidableEq, Repr

namespace Lock

/-- A thread takes the lock; it waits while the lock is held. -/
def take (l : Lock) (n : Nat) : Option Lock :=
  if l.holder.isNone then some { l with holder := some n } else none

def free (l : Lock) : Lock :=
  { l with holder := none }

def abandon (l : Lock) (n : Nat) : Lock :=
  if l.holder = some n then { holder := none, poisoned := true } else l

end Lock

abbrev Locks :=
  DrawableId → Lock

namespace Locks

def set (ls : Locks) (d : DrawableId) (l : Lock) : Locks :=
  fun e => if e = d then l else ls e

def take (ls : Locks) (d : DrawableId) (n : Nat) : Option Locks :=
  ((ls d).take n).map (ls.set d)

def free (ls : Locks) (d : DrawableId) : Locks :=
  ls.set d (ls d).free

/-- A thread panics, and lets every lock go that it holds. -/
def abandon (ls : Locks) (n : Nat) : Locks :=
  fun d => (ls d).abandon n

theorem take_of_free {ls : Locks} {d : DrawableId} (n : Nat) (h : (ls d).holder = none) :
    ls.take d n = some (ls.set d { ls d with holder := some n }) := by
  simp [take, Lock.take, h]

end Locks

inductive CallResult where
  | surface (s : WindowSurface)
  | redrawn
  | replaced (old : Option Texture)
  | buffer (b : Option HardwareBuffer)
  | panicked
  deriving DecidableEq

/-- What a call does next. -/
inductive CallStage where
  /-- It looks for the window to resolve. -/
  | resolve (id : UInt32)
  /-- It takes the render lock, to resolve a window. -/
  | enter (w : Window)
  /-- Under the render lock, it takes the slot lock. -/
  | reach (w : Window)
  /-- Under both locks, it looks at the slot. -/
  | check (w : Window)
  /-- Under both locks, it asks for an image to put into the slot. -/
  | provide (w : Window)
  /-- It lets the slot lock go, and holds the render lock. -/
  | withdraw (w : Window) (s : WindowSurface)
  /-- It looks for the window to redraw. -/
  | refresh (id : UInt32)
  /-- It takes the render lock, to redraw a window. -/
  | approach (w : Window)
  /-- Under the render lock, it redraws. -/
  | redraw (w : Window)
  /-- It lets the render lock go, and then ends. -/
  | leave (w : Window) (r : CallResult)
  /-- It takes the slot lock, to put a texture into the slot. -/
  | setTexture (d : DrawableId) (t : Texture)
  /-- Under the slot lock, it puts a texture there. -/
  | replace (d : DrawableId) (t : Texture)
  /-- It takes the slot lock, to look at the slot. -/
  | buffer (d : DrawableId)
  /-- Under the slot lock, it looks at the slot. -/
  | look (d : DrawableId)
  /-- It lets the slot lock go, and then ends. -/
  | release (d : DrawableId) (r : CallResult)
  | ended (r : CallResult)
  deriving DecidableEq

/-- Something that a thread did to a drawable. -/
inductive DrawableEvent where
  /-- It put a new image into the slot. -/
  | provided (n : Nat) (d : DrawableId) (b : HardwareBuffer)
  /-- It settled on the buffer that its call gives. -/
  | settled (n : Nat) (d : DrawableId) (b : HardwareBuffer)
  /-- It put a texture of its own into the slot. -/
  | replaced (n : Nat) (d : DrawableId)
  | redrawn (n : Nat) (d : DrawableId)
  deriving DecidableEq

/-- A bridge with the locks of its drawables, the calls of the threads by number, and what they did,
the latest first. -/
structure SharedBridge where
  bridge : Bridge
  render : Locks := fun _ => {}
  slot : Locks := fun _ => {}
  calls : List CallStage := []
  events : List DrawableEvent := []

namespace SharedBridge

inductive Turn where
  /-- A new thread makes a call. -/
  | begin (first : CallStage)
  | go (n : Nat)
  | panic (n : Nat)

/-- How a call may begin. -/
def isFirst : CallStage → Bool
  | .resolve _ | .refresh _ | .setTexture _ _ | .buffer _ => true
  | _ => false

def put (s : SharedBridge) (n : Nat) (next : CallStage) : SharedBridge :=
  { s with calls := s.calls.set n next }

def note (s : SharedBridge) (e : DrawableEvent) : SharedBridge :=
  { s with events := e :: s.events }

/-- Notes down the surface that a call settles on, if it has a buffer. -/
def settle (s : SharedBridge) (n : Nat) (w : Window) (surface : WindowSurface) : SharedBridge :=
  match surface.buffer with
  | some b => s.note (.settled n w.content b)
  | none => s

/-- A call puts a new image into the slot, unless the backend has none. -/
def provide (s : SharedBridge) (n : Nat) (w : Window) : SharedBridge :=
  let (surface, bridge) := s.bridge.provide w
  let s := { s with bridge }
  let s := match surface.buffer with
    | some b => s.note (.provided n w.content b)
    | none => s
  (s.settle n w surface).put n (.withdraw w surface)

/-- A call goes on from its stage; it waits for a lock that is held. -/
def advance (s : SharedBridge) (n : Nat) : CallStage → Option SharedBridge
  | .resolve id =>
    match s.bridge.scene.window? id with
    | none =>
      some ({ s with bridge := s.bridge.tell (.windowNotResolved id) }.put n
        (.ended (.surface .empty)))
    | some w => some (s.put n (.enter w))
  | .enter w => (s.render.take w.content n).map fun render => { s with render }.put n (.reach w)
  | .reach w => (s.slot.take w.content n).map fun slot => { s with slot }.put n (.check w)
  | .check w =>
    match s.bridge.buffer? w.content with
    | some b =>
      let surface := ⟨w.width, w.height, some b⟩
      some ((s.settle n w surface).put n (.withdraw w surface))
    | none => some (s.put n (.provide w))
  | .provide w => some (s.provide n w)
  | .withdraw w surface =>
    some ({ s with slot := s.slot.free w.content }.put n (.leave w (.surface surface)))
  | .refresh id =>
    match s.bridge.scene.window? id with
    | none =>
      some ({ s with bridge := s.bridge.tell (.windowNotRefreshed id) }.put n (.ended .redrawn))
    | some w => some (s.put n (.approach w))
  | .approach w => (s.render.take w.content n).map fun render => { s with render }.put n (.redraw w)
  | .redraw w =>
    some (({ s with bridge := s.bridge.redraw w.content }.note (.redrawn n w.content)).put n
      (.leave w .redrawn))
  | .leave w r => some ({ s with render := s.render.free w.content }.put n (.ended r))
  | .setTexture d t => (s.slot.take d n).map fun slot => { s with slot }.put n (.replace d t)
  | .replace d t =>
    let (old, bridge) := s.bridge.setTexture d t
    some (({ s with bridge }.note (.replaced n d)).put n (.release d (.replaced old)))
  | .buffer d => (s.slot.take d n).map fun slot => { s with slot }.put n (.look d)
  | .look d => some (s.put n (.release d (.buffer (s.bridge.buffer? d))))
  | .release d r => some ({ s with slot := s.slot.free d }.put n (.ended r))
  | .ended _ => none

/-- A call panics: it ends, and lets its locks go. -/
def panic (s : SharedBridge) (n : Nat) : SharedBridge :=
  { s with render := s.render.abandon n, slot := s.slot.abandon n }.put n (.ended .panicked)

def step (s : SharedBridge) : Turn → Option SharedBridge
  | .begin first =>
    if isFirst first then some { s with calls := s.calls ++ [first] } else none
  | .go n => s.calls[n]?.bind (s.advance n)
  | .panic n =>
    match s.calls[n]? with
    | none | some (.ended _) => none
    | some _ => some (s.panic n)

def Reachable (s : SharedBridge) : Prop :=
  ∃ bridge, Reaches step ⟨bridge, fun _ => {}, fun _ => {}, [], []⟩ s

/-- The shared bridge comes from one state to another while only one call goes on. -/
abbrev GoesOn (n : Nat) : SharedBridge → SharedBridge → Prop :=
  Reaches fun s (_ : Unit) => s.step (.go n)

/-- A call is at a stage, over a bridge. -/
structure At (s : SharedBridge) (n : Nat) (stage : CallStage) (b : Bridge) : Prop where
  stage_eq : s.calls[n]? = some stage
  bridge_eq : s.bridge = b

/-- A call goes on to its end, with a result and a bridge. -/
def Ends (s : SharedBridge) (n : Nat) (r : CallResult) (b : Bridge) : Prop :=
  ∃ t, GoesOn n s t ∧ t.At n (.ended r) b

theorem At.put {s t : SharedBridge} {n : Nat} {stage next : CallStage} {b c : Bridge}
    (h : s.At n stage b) (calls : t.calls = s.calls) (bridge : t.bridge = c) :
    (t.put n next).At n next c := by
  obtain ⟨hn, _⟩ := List.getElem?_eq_some_iff.mp h.stage_eq
  exact ⟨by simp [SharedBridge.put, calls, hn], bridge⟩

theorem At.ends_of_advance {s t : SharedBridge} {n : Nat} {stage : CallStage} {b c : Bridge}
    {r : CallResult} (h : s.At n stage b) (ha : s.advance n stage = some t) (k : t.Ends n r c) :
    s.Ends n r c := by
  obtain ⟨u, hu, hc⟩ := k
  exact ⟨u, .cons (t := ()) (by simp [step, h.stage_eq, ha]) hu, hc⟩

theorem At.ended {s : SharedBridge} {n : Nat} {b : Bridge} {r : CallResult}
    (h : s.At n (.ended r) b) : s.Ends n r b :=
  ⟨s, .refl, h⟩

theorem At.leave {s : SharedBridge} {n : Nat} {b : Bridge} {w : Window} {r : CallResult}
    (h : s.At n (.leave w r) b) : s.Ends n r b :=
  h.ends_of_advance rfl (At.ended (h.put rfl h.bridge_eq))

theorem At.withdraw {s : SharedBridge} {n : Nat} {b : Bridge} {w : Window} {u : WindowSurface}
    (h : s.At n (.withdraw w u) b) : s.Ends n (.surface u) b :=
  h.ends_of_advance rfl (At.leave (h.put rfl h.bridge_eq))

@[simp] theorem bridge_settle (s : SharedBridge) (n : Nat) (w : Window) (u : WindowSurface) :
    (s.settle n w u).bridge = s.bridge := by
  rw [settle]
  split <;> rfl

@[simp] theorem calls_settle (s : SharedBridge) (n : Nat) (w : Window) (u : WindowSurface) :
    (s.settle n w u).calls = s.calls := by
  rw [settle]
  split <;> rfl

theorem At.provide {s : SharedBridge} {n : Nat} {b : Bridge} {w : Window}
    (h : s.At n (.provide w) b) : s.Ends n (.surface (b.provide w).1) (b.provide w).2 := by
  obtain ⟨hs, rfl⟩ := h
  refine At.ends_of_advance ⟨hs, rfl⟩ rfl (At.withdraw (At.put ⟨hs, rfl⟩ ?_ ?_))
  · rw [calls_settle]; split <;> rfl
  · rw [bridge_settle]; split <;> rfl

theorem At.check {s : SharedBridge} {n : Nat} {b : Bridge} {w : Window}
    (h : s.At n (.check w) b) : s.Ends n (.surface (b.surfaceOf w).1) (b.surfaceOf w).2 := by
  obtain ⟨hs, rfl⟩ := h
  have h : s.At n (.check w) s.bridge := ⟨hs, rfl⟩
  cases hb : s.bridge.buffer? w.content with
  | none =>
    have ha : s.advance n (.check w) = some (s.put n (.provide w)) := by simp [advance, hb]
    simp only [Bridge.surfaceOf, hb]
    exact h.ends_of_advance ha (At.provide (h.put rfl rfl))
  | some buffer =>
    have ha : s.advance n (.check w) = some ((s.settle n w ⟨w.width, w.height, some buffer⟩).put n
        (.withdraw w ⟨w.width, w.height, some buffer⟩)) := by simp [advance, hb]
    simp only [Bridge.surfaceOf, hb]
    exact h.ends_of_advance ha (At.withdraw (h.put (calls_settle ..) (bridge_settle ..)))

theorem At.reach {s : SharedBridge} {n : Nat} {b : Bridge} {w : Window} (h : s.At n (.reach w) b)
    (slot : (s.slot w.content).holder = none) :
    s.Ends n (.surface (b.surfaceOf w).1) (b.surfaceOf w).2 := by
  have ha : s.advance n (.reach w) = some ({ s with
      slot := s.slot.set w.content { s.slot w.content with holder := some n } }.put n
        (.check w)) := by simp [advance, Locks.take_of_free n slot]
  exact h.ends_of_advance ha (At.check (h.put rfl h.bridge_eq))

theorem At.enter {s : SharedBridge} {n : Nat} {b : Bridge} {w : Window} (h : s.At n (.enter w) b)
    (render : (s.render w.content).holder = none) (slot : (s.slot w.content).holder = none) :
    s.Ends n (.surface (b.surfaceOf w).1) (b.surfaceOf w).2 := by
  have ha : s.advance n (.enter w) = some ({ s with
      render := s.render.set w.content { s.render w.content with holder := some n } }.put n
        (.reach w)) := by simp [advance, Locks.take_of_free n render]
  exact h.ends_of_advance ha (At.reach (h.put rfl h.bridge_eq) slot)

/-- A call that resolves a window, while nobody holds a lock and nobody else goes on, comes to what
the bridge says. -/
theorem At.resolve {s : SharedBridge} {n : Nat} {b : Bridge} {id : UInt32}
    (h : s.At n (.resolve id) b) (render : ∀ d, (s.render d).holder = none)
    (slot : ∀ d, (s.slot d).holder = none) :
    s.Ends n (.surface (b.resolve id).1) (b.resolve id).2 := by
  obtain ⟨hs, rfl⟩ := h
  have h : s.At n (.resolve id) s.bridge := ⟨hs, rfl⟩
  cases hw : s.bridge.scene.window? id with
  | none =>
    have ha : s.advance n (.resolve id) = some ({ s with
        bridge := s.bridge.tell (.windowNotResolved id) }.put n (.ended (.surface .empty))) := by
      simp [advance, hw]
    simp only [Bridge.resolve, hw]
    exact h.ends_of_advance ha (At.ended (h.put rfl rfl))
  | some w =>
    have ha : s.advance n (.resolve id) = some (s.put n (.enter w)) := by simp [advance, hw]
    simp only [Bridge.resolve, hw]
    exact h.ends_of_advance ha (At.enter (h.put rfl rfl) (render _) (slot _))

theorem At.redraw {s : SharedBridge} {n : Nat} {b : Bridge} {w : Window}
    (h : s.At n (.redraw w) b) : s.Ends n .redrawn (b.redraw w.content) := by
  obtain ⟨hs, rfl⟩ := h
  exact At.ends_of_advance ⟨hs, rfl⟩ rfl (At.leave (At.put ⟨hs, rfl⟩ rfl rfl))

theorem At.approach {s : SharedBridge} {n : Nat} {b : Bridge} {w : Window}
    (h : s.At n (.approach w) b) (render : (s.render w.content).holder = none) :
    s.Ends n .redrawn (b.redraw w.content) := by
  have ha : s.advance n (.approach w) = some ({ s with
      render := s.render.set w.content { s.render w.content with holder := some n } }.put n
        (.redraw w)) := by simp [advance, Locks.take_of_free n render]
  exact h.ends_of_advance ha (At.redraw (h.put rfl h.bridge_eq))

theorem At.refresh {s : SharedBridge} {n : Nat} {b : Bridge} {id : UInt32}
    (h : s.At n (.refresh id) b) (render : ∀ d, (s.render d).holder = none) :
    s.Ends n .redrawn (b.refresh id) := by
  obtain ⟨hs, rfl⟩ := h
  have h : s.At n (.refresh id) s.bridge := ⟨hs, rfl⟩
  cases hw : s.bridge.scene.window? id with
  | none =>
    have ha : s.advance n (.refresh id) = some ({ s with
        bridge := s.bridge.tell (.windowNotRefreshed id) }.put n (.ended .redrawn)) := by
      simp [advance, hw]
    simp only [Bridge.refresh, hw]
    exact h.ends_of_advance ha (At.ended (h.put rfl rfl))
  | some w =>
    have ha : s.advance n (.refresh id) = some (s.put n (.approach w)) := by simp [advance, hw]
    simp only [Bridge.refresh, hw]
    exact h.ends_of_advance ha (At.approach (h.put rfl rfl) (render _))

theorem At.release {s : SharedBridge} {n : Nat} {b : Bridge} {d : DrawableId} {r : CallResult}
    (h : s.At n (.release d r) b) : s.Ends n r b :=
  h.ends_of_advance rfl (At.ended (h.put rfl h.bridge_eq))

theorem At.setTexture {s : SharedBridge} {n : Nat} {b : Bridge} {d : DrawableId} {t : Texture}
    (h : s.At n (.setTexture d t) b) (slot : (s.slot d).holder = none) :
    s.Ends n (.replaced (b.setTexture d t).1) (b.setTexture d t).2 := by
  obtain ⟨hs, rfl⟩ := h
  have ha : s.advance n (.setTexture d t) = some ({ s with
      slot := s.slot.set d { s.slot d with holder := some n } }.put n (.replace d t)) := by
    simp [advance, Locks.take_of_free n slot]
  refine At.ends_of_advance ⟨hs, rfl⟩ ha ?_
  exact At.ends_of_advance (At.put ⟨hs, rfl⟩ rfl rfl) rfl
    (At.release (At.put (At.put ⟨hs, rfl⟩ rfl rfl) rfl rfl))

end SharedBridge

end RenderBroker
