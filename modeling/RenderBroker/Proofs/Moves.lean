import Mathlib.Logic.Relation
import RenderBroker.Loop.Basic
import RenderBroker.Proofs.History

namespace RenderBroker

namespace EventLoop

variable {τ ω : Type}

/-- Nothing that is open has this descriptor. -/
def Free (l : EventLoop τ ω) (d : Descriptor) : Prop :=
  d ≠ l.listener ∧ d ≠ l.waker ∧ ∀ s ∈ Occurrence.standings l.history, s.descriptor ≠ d

instance (l : EventLoop τ ω) (d : Descriptor) : Decidable (l.Free d) :=
  inferInstanceAs (Decidable (d ≠ l.listener ∧ d ≠ l.waker ∧
    ∀ s ∈ Occurrence.standings l.history, s.descriptor ≠ d))

section Accepted

variable (h : Handler τ ω) (P : EventLoop τ ω → Descriptor → Prop)

def AcceptsEach : EventLoop τ ω → List AcceptResult → Prop
  | l, .connection d setUp watched :: results =>
    P l d ∧ ((l.register h d setUp watched).crashed = false →
      AcceptsEach (l.register h d setUp watched) results)
  | l, .interrupted :: results => AcceptsEach l results
  | _, [] | _, .exhausted _ :: _ | _, .failed :: _ => True

def HandlesEach : EventLoop τ ω → List Event → Prop
  | _, [] => True
  | l, e :: batch =>
    (l.crashed = false → e.descriptor ≠ l.waker → e.descriptor = l.listener →
      AcceptsEach h P l e.accepts) ∧ HandlesEach (l.handle h e) batch

/-- Whatever connection a run accepts, this holds of its descriptor and the loop as it is then. -/
def EachAccepted : EventLoop τ ω → List Wait → Prop
  | l, .events batch resumed :: waits =>
    HandlesEach h P l batch ∧ EachAccepted (l.round h batch resumed) waits
  | _, [] | _, .failed :: _ => True

variable [∀ l d, Decidable (P l d)]

instance AcceptsEach.decidable :
    (l : EventLoop τ ω) → (results : List AcceptResult) → Decidable (AcceptsEach h P l results)
  | l, .connection d setUp watched :: results =>
    have := AcceptsEach.decidable (l.register h d setUp watched) results
    inferInstanceAs (Decidable (P l d ∧ ((l.register h d setUp watched).crashed = false →
      AcceptsEach h P (l.register h d setUp watched) results)))
  | l, .interrupted :: results => AcceptsEach.decidable l results
  | _, [] | _, .exhausted _ :: _ | _, .failed :: _ => .isTrue trivial

instance HandlesEach.decidable :
    (l : EventLoop τ ω) → (batch : List Event) → Decidable (HandlesEach h P l batch)
  | _, [] => .isTrue trivial
  | l, e :: batch =>
    have := HandlesEach.decidable (l.handle h e) batch
    inferInstanceAs (Decidable ((l.crashed = false → e.descriptor ≠ l.waker →
      e.descriptor = l.listener → AcceptsEach h P l e.accepts) ∧
      HandlesEach h P (l.handle h e) batch))

instance EachAccepted.decidable :
    (l : EventLoop τ ω) → (waits : List Wait) → Decidable (EachAccepted h P l waits)
  | l, .events batch resumed :: waits =>
    have := EachAccepted.decidable (l.round h batch resumed) waits
    inferInstanceAs (Decidable (HandlesEach h P l batch ∧
      EachAccepted h P (l.round h batch resumed) waits))
  | _, [] | _, .failed :: _ => .isTrue trivial

end Accepted

inductive Move (h : Handler τ ω) (l : EventLoop τ ω) : EventLoop τ ω → Prop
  | register {d : Descriptor} (setUp watched : Bool) (alive : l.crashed = false)
      (free : l.Free d) : Move h l (l.register h d setUp watched)
  | pause (paused : Bool) : Move h l (l.pause paused)
  | resume (resumed : Bool) : Move h l (l.resume resumed)
  | serve (e : Event) (alive : l.crashed = false) : Move h l (l.serveClient h e)
  | tearDown (d : Descriptor) (resumed : Bool) : Move h l (l.tearDown h d resumed)

abbrev Moves (h : Handler τ ω) : EventLoop τ ω → EventLoop τ ω → Prop :=
  Relation.ReflTransGen (Move h)

variable {h : Handler τ ω} {l m : EventLoop τ ω}

/-- What every move of a loop keeps, as long as the events that it serves are of some kind. -/
structure Keeps (h : Handler τ ω) (E : Event → Prop) (P : EventLoop τ ω → Prop) : Prop where
  register {l : EventLoop τ ω} {d : Descriptor} (setUp watched : Bool) (kept : P l)
    (alive : l.crashed = false) (free : l.Free d) : P (l.register h d setUp watched)
  pause {l : EventLoop τ ω} (paused : Bool) (kept : P l) : P (l.pause paused)
  resume {l : EventLoop τ ω} (resumed : Bool) (kept : P l) : P (l.resume resumed)
  serve {l : EventLoop τ ω} {e : Event} (kind : E e) (kept : P l) (alive : l.crashed = false) :
    P (l.serveClient h e)

def EachEvent (E : Event → Prop) (waits : List Wait) : Prop :=
  ∀ batch resumed, .events batch resumed ∈ waits → ∀ e ∈ batch, E e

namespace Keeps

variable {E : Event → Prop} {P : EventLoop τ ω → Prop}

theorem accept (keeps : Keeps h E P) {results : List AcceptResult} (alive : l.crashed = false)
    (fresh : AcceptsEach h Free l results) (kept : P l) : P (l.accept h results) := by
  induction results generalizing l with
  | nil => exact kept
  | cons r results ih =>
    cases r with
    | connection d setUp watched =>
      obtain ⟨free, rest⟩ := fresh
      have first := keeps.register setUp watched kept alive free
      rw [EventLoop.accept]
      split
      · exact first
      · next hc =>
        have hc : (l.register h d setUp watched).crashed = false := by simpa using hc
        exact ih hc (rest hc) first
    | interrupted => exact ih alive fresh kept
    | exhausted paused => exact keeps.pause paused kept
    | failed => exact kept

theorem handle (keeps : Keeps h E P) {e : Event} (kind : E e)
    (fresh : l.crashed = false → e.descriptor ≠ l.waker → e.descriptor = l.listener →
      AcceptsEach h Free l e.accepts) (kept : P l) : P (l.handle h e) := by
  rw [EventLoop.handle]
  split
  · exact kept
  · next hc =>
    obtain ⟨alive, hw⟩ : l.crashed = false ∧ e.descriptor ≠ l.waker := by simpa using hc
    split
    · next hl => exact keeps.accept alive (fresh alive hw (by simpa using hl)) kept
    · exact keeps.serve kind kept alive

theorem handleAll (keeps : Keeps h E P) {batch : List Event} (kind : ∀ e ∈ batch, E e)
    (fresh : HandlesEach h Free l batch) (kept : P l) : P (l.handleAll h batch) := by
  induction batch generalizing l with
  | nil => exact kept
  | cons e batch ih =>
    obtain ⟨first, rest⟩ := fresh
    obtain ⟨this, others⟩ := List.forall_mem_cons.mp kind
    exact ih others rest (keeps.handle this first kept)

theorem round (keeps : Keeps h E P) {batch : List Event} (kind : ∀ e ∈ batch, E e)
    (fresh : HandlesEach h Free l batch) (resumed : Bool) (kept : P l) :
    P (l.round h batch resumed) := by
  rw [EventLoop.round]
  split
  · exact keeps.resume resumed kept
  · exact keeps.handleAll kind fresh kept

theorem wait (keeps : Keeps h E P) {waits : List Wait} (kind : EachEvent E waits)
    (fresh : EachAccepted h Free l waits) (kept : P l) : P (l.wait h waits) := by
  induction waits generalizing l with
  | nil => exact kept
  | cons w waits ih =>
    cases w with
    | events batch resumed =>
      obtain ⟨first, rest⟩ := fresh
      have this := kind batch resumed List.mem_cons_self
      have others : EachEvent E waits := fun b r later => kind b r (List.mem_cons_of_mem _ later)
      exact ih others rest (keeps.round this first resumed kept)
    | failed => exact kept

end Keeps

/-- From one loop every move leads to loops that moves lead to. -/
theorem keeps_moves (h : Handler τ ω) (l : EventLoop τ ω) :
    Keeps h (fun _ => True) (Moves h l) where
  register setUp watched kept alive free := .tail kept (.register setUp watched alive free)
  pause paused kept := .tail kept (.pause paused)
  resume resumed kept := .tail kept (.resume resumed)
  serve _ kept alive := .tail kept (.serve _ alive)

theorem moves_handle {e : Event}
    (fresh : l.crashed = false → e.descriptor ≠ l.waker → e.descriptor = l.listener →
      AcceptsEach h Free l e.accepts) : Moves h l (l.handle h e) :=
  (keeps_moves h l).handle trivial fresh .refl

theorem moves_round {batch : List Event} (fresh : HandlesEach h Free l batch) (resumed : Bool) :
    Moves h l (l.round h batch resumed) :=
  (keeps_moves h l).round (fun _ _ => trivial) fresh resumed .refl

theorem moves_wait {waits : List Wait} (fresh : EachAccepted h Free l waits) :
    Moves h l (l.wait h waits) :=
  (keeps_moves h l).wait (fun _ _ _ _ _ => trivial) fresh .refl

theorem moves_tearDowns (ds : List Descriptor) (resumed : Descriptor → Bool) :
    Moves h l (ds.foldl (fun l d => l.tearDown h d (resumed d)) l) := by
  induction ds generalizing l with
  | nil => exact .refl
  | cons d ds ih => exact .head (.tearDown d (resumed d)) ih

theorem moves_shutdownAll (clearing : Clearing) : Moves h l (l.shutdownAll h clearing) :=
  moves_tearDowns _ clearing.resumed

theorem moves_run {waits : List Wait} (fresh : EachAccepted h Free l waits)
    (clearing : Clearing) : Moves h l (l.run h waits clearing) :=
  (moves_wait fresh).trans (moves_shutdownAll clearing)

section Implied

variable {Q : EventLoop τ ω → Descriptor → Prop}

theorem AcceptsEach.imp {results : List AcceptResult} (alive : l.crashed = false)
    (hq : ∀ m d, Moves h l m → m.crashed = false → m.Free d → Q m d)
    (fresh : AcceptsEach h Free l results) : AcceptsEach h Q l results := by
  induction results generalizing l with
  | nil => trivial
  | cons r results ih =>
    cases r with
    | connection d setUp watched =>
      obtain ⟨free, rest⟩ := fresh
      have first : Move h l (l.register h d setUp watched) := .register setUp watched alive free
      exact ⟨hq l d .refl alive free, fun hc =>
        ih hc (fun m d moves => hq m d (.head first moves)) (rest hc)⟩
    | interrupted => exact ih alive hq fresh
    | exhausted => trivial
    | failed => trivial

theorem HandlesEach.imp {batch : List Event}
    (hq : ∀ m d, Moves h l m → m.crashed = false → m.Free d → Q m d)
    (fresh : HandlesEach h Free l batch) : HandlesEach h Q l batch := by
  induction batch generalizing l with
  | nil => trivial
  | cons e batch ih =>
    obtain ⟨first, rest⟩ := fresh
    have moves := moves_handle first
    exact ⟨fun alive hw hl => (first alive hw hl).imp alive hq,
      ih (fun m d later => hq m d (moves.trans later)) rest⟩

theorem EachAccepted.imp {waits : List Wait}
    (hq : ∀ m d, Moves h l m → m.crashed = false → m.Free d → Q m d)
    (fresh : EachAccepted h Free l waits) : EachAccepted h Q l waits := by
  induction waits generalizing l with
  | nil => trivial
  | cons w waits ih =>
    cases w with
    | events batch resumed =>
      obtain ⟨first, rest⟩ := fresh
      have moves := moves_round first resumed
      exact ⟨first.imp hq, ih (fun m d later => hq m d (moves.trans later)) rest⟩
    | failed => trivial

end Implied

end EventLoop

end RenderBroker
