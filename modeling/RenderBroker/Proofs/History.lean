import RenderBroker.Loop.History

namespace RenderBroker

inductive Callback where
  | opened
  | requested
  | closed
  deriving DecidableEq, Repr

/-- What a table keeps of a client, its streams apart. -/
structure Standing (τ : Type) where
  serial : Nat
  descriptor : Descriptor
  tag : τ
  killed : Bool

namespace Client

variable {τ : Type}

def standing (c : Client τ) : Standing τ :=
  { serial := c.serial, descriptor := c.descriptor, tag := c.tag, killed := c.killed }

@[simp] theorem serial_standing (c : Client τ) : c.standing.serial = c.serial :=
  rfl

@[simp] theorem descriptor_standing (c : Client τ) : c.standing.descriptor = c.descriptor :=
  rfl

@[simp] theorem tag_standing (c : Client τ) : c.standing.tag = c.tag :=
  rfl

end Client

namespace Occurrence

variable {τ ω : Type}

def callback? : Occurrence τ ω → Option Callback
  | .opened _ _ => some .opened
  | .requested _ _ _ => some .requested
  | .closed _ _ => some .closed
  | _ => none

def bytes : Occurrence τ ω → List UInt8
  | .read _ _ (.ok bytes) => bytes
  | _ => []

/-- What happened to one connection. -/
def own (n : Nat) (os : List (Occurrence τ ω)) : List (Occurrence τ ω) :=
  os.filter fun o => o.serial == n

def callbacks (os : List (Occurrence τ ω)) : List Callback :=
  os.reverse.filterMap callback?

def received (os : List (Occurrence τ ω)) : List UInt8 :=
  os.reverse.flatMap bytes

/-- The connections that are open after a history, in the order they were opened. -/
def standings : List (Occurrence τ ω) → List (Standing τ)
  | [] => []
  | .opened _ m :: os => standings os ++ [m.client.standing]
  | .requested _ _ m :: os =>
    (standings os).map fun s => if s.serial = m.client.serial then m.client.standing else s
  | .closed m _ :: os => (standings os).filter fun s => s.serial != m.client.serial
  | .abandoned c :: os => (standings os).filter fun s => s.serial != c.serial
  | .declined _ _ :: os | .read _ _ _ :: os | .flushed _ _ :: os => standings os

def lastWorld (w : ω) : List (Occurrence τ ω) → ω
  | [] => w
  | .opened _ m :: _ | .requested _ _ m :: _ => m.world
  | .closed _ w :: _ => w
  | .declined _ _ :: os | .read _ _ _ :: os | .flushed _ _ :: os | .abandoned _ :: os =>
    lastWorld w os

theorem own_cons_same {n : Nat} {o : Occurrence τ ω} (os : List (Occurrence τ ω))
    (h : o.serial = n) : own n (o :: os) = o :: own n os := by
  simp [own, h]

theorem own_cons_other {n : Nat} {o : Occurrence τ ω} (os : List (Occurrence τ ω))
    (h : o.serial ≠ n) : own n (o :: os) = own n os := by
  simp [own, h]

theorem own_eq_nil {n : Nat} {os : List (Occurrence τ ω)} (h : ∀ o ∈ os, o.serial ≠ n) :
    own n os = [] := by
  simpa [own] using h

theorem own_eq_self {n : Nat} {os : List (Occurrence τ ω)} (h : ∀ o ∈ os, o.serial = n) :
    own n os = os := by
  simpa [own] using h

theorem own_append (n : Nat) (os ps : List (Occurrence τ ω)) :
    own n (os ++ ps) = own n os ++ own n ps :=
  List.filter_append ..

theorem own_append_other {n : Nat} {os : List (Occurrence τ ω)} (ps : List (Occurrence τ ω))
    (h : ∀ o ∈ os, o.serial ≠ n) : own n (os ++ ps) = own n ps := by
  rw [own_append, own_eq_nil h, List.nil_append]

theorem own_append_same {n : Nat} {os : List (Occurrence τ ω)} (ps : List (Occurrence τ ω))
    (h : ∀ o ∈ os, o.serial = n) : own n (os ++ ps) = os ++ own n ps := by
  rw [own_append, own_eq_self h]

theorem mem_own {n : Nat} {o : Occurrence τ ω} {os : List (Occurrence τ ω)} :
    o ∈ own n os ↔ o ∈ os ∧ o.serial = n := by
  simp [own]

theorem callbacks_cons (o : Occurrence τ ω) (os : List (Occurrence τ ω)) :
    callbacks (o :: os) = callbacks os ++ o.callback?.toList := by
  cases h : o.callback? <;> simp [callbacks, h]

theorem callbacks_append (os ps : List (Occurrence τ ω)) :
    callbacks (os ++ ps) = callbacks ps ++ callbacks os := by
  simp [callbacks]

theorem received_cons (o : Occurrence τ ω) (os : List (Occurrence τ ω)) :
    received (o :: os) = received os ++ o.bytes := by
  simp [received]

theorem received_cons_silent {o : Occurrence τ ω} (silent : o.bytes = [])
    (os : List (Occurrence τ ω)) : received (o :: os) = received os := by
  rw [received_cons, silent, List.append_nil]

theorem received_append (os ps : List (Occurrence τ ω)) :
    received (os ++ ps) = received ps ++ received os := by
  simp [received]

end Occurrence

end RenderBroker
