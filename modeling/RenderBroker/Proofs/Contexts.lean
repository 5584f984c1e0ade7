import Mathlib.Algebra.Order.Group.Multiset
import RenderBroker.Proofs.Callbacks
import RenderBroker.Proofs.Renderer

namespace RenderBroker

namespace BackendCall

def created? : BackendCall → Option ContextHandle
  | .create _ _ raw => ContextHandle.ofRaw? raw
  | _ => none

def destroyed? : BackendCall → Option ContextHandle
  | .destroy h => some h
  | _ => none

def created (cs : List BackendCall) : Multiset ContextHandle :=
  ↑(cs.filterMap created?)

def destroyed (cs : List BackendCall) : Multiset ContextHandle :=
  ↑(cs.filterMap destroyed?)

@[simp] theorem created_nil : created [] = 0 :=
  rfl

@[simp] theorem destroyed_nil : destroyed [] = 0 :=
  rfl

theorem created_append (cs ds : List BackendCall) :
    created (cs ++ ds) = created cs + created ds := by
  simp [created]

theorem destroyed_append (cs ds : List BackendCall) :
    destroyed (cs ++ ds) = destroyed cs + destroyed ds := by
  simp [destroyed]

theorem created_create (fd : Descriptor) (o : RenderOptions) (raw : Int64) :
    created [.create fd o raw] = ↑(ContextHandle.ofRaw? raw).toList := by
  cases h : ContextHandle.ofRaw? raw <;> simp [created, created?, h]

end BackendCall

namespace Occurrence

variable {τ : Type}

def calls : Occurrence τ Bridge → List BackendCall
  | .opened before after | .requested _ before after => after.world.callsSince before.world
  | .closed before world => world.callsSince before.world
  | _ => []

def called (os : List (Occurrence τ Bridge)) : List BackendCall :=
  os.reverse.flatMap calls

theorem called_cons (o : Occurrence τ Bridge) (os : List (Occurrence τ Bridge)) :
    called (o :: os) = called os ++ o.calls := by
  simp [called]

theorem called_append (os ps : List (Occurrence τ Bridge)) :
    called (os ++ ps) = called ps ++ called os := by
  simp [called]

end Occurrence

open BackendCall Occurrence

variable {opts : RenderOptions}

/-- The context that a tag holds, if any. -/
def held (tag : Option ContextHandle) : Multiset ContextHandle :=
  ↑tag.toList

theorem card_held_le (tag : Option ContextHandle) : (held tag).card ≤ 1 := by
  cases tag <;> simp [held]

theorem Session.Step.contexts {s t : Session (Option ContextHandle) Bridge}
    (step : Session.Step (Renderer.handler opts) s t) :
    ∃ p, t.history = p :: s.history ∧ p.calls.length ≤ 1 ∧
      t.world.backend.calls = p.calls.reverse ++ s.world.backend.calls ∧
      destroyed p.calls = 0 ∧ held s.client.tag + created p.calls = held t.client.tag := by
  cases step with
  | read r =>
    refine ⟨_, rfl, Nat.zero_le _, rfl, rfl, ?_⟩
    have same : (s.heard r).client.tag = s.client.tag := s.client.tag_receive r
    rw [same]
    exact add_zero _
  | @request e w back unmarked asked calm =>
    refine ⟨_, rfl, ?_⟩
    change (w.callsSince s.world).length ≤ 1 ∧
      w.backend.calls = (w.callsSince s.world).reverse ++ s.world.backend.calls ∧
      destroyed (w.callsSince s.world) = 0 ∧
      held s.client.tag + created (w.callsSince s.world) = held back.tag
    obtain ⟨code, reaction⟩ := Renderer.reaction_request asked
    cases reaction with
    | passed nothing calls tag killed =>
      have none : w.callsSince s.world = [] := Bridge.callsSince_eq [] calls
      rw [none, calls, tag]
      exact ⟨Nat.zero_le _, rfl, rfl, add_zero _⟩
    | asked raw asks empty calls tag killed =>
      have one : w.callsSince s.world = [.create s.client.descriptor opts raw] :=
        Bridge.callsSince_eq [_] calls
      rw [one, calls, tag, empty, created_create]
      exact ⟨Nat.le_refl _, rfl, rfl, zero_add _⟩
  | flush plan =>
    refine ⟨_, rfl, Nat.zero_le _, rfl, rfl, ?_⟩
    have same : (s.wrote plan).client.tag = s.client.tag := s.client.tag_flush plan
    rw [same]
    exact add_zero _

theorem Session.Path.contexts {s t : Session (Option ContextHandle) Bridge}
    (path : Session.Path (Renderer.handler opts) s t) (start : s.history = []) :
    destroyed (called t.history) = 0 ∧
      held s.client.tag + created (called t.history) = held t.client.tag := by
  induction path with
  | refl =>
    rw [start]
    exact ⟨rfl, add_zero _⟩
  | tail _ step ih =>
    obtain ⟨p, notes, -, -, destroys, creates⟩ := step.contexts
    rw [notes, called_cons, created_append, destroyed_append, destroys, ← add_assoc, ih.1, ih.2]
    exact ⟨rfl, creates⟩

theorem calls_opened {b b' : Bridge} {c back : RenderClient}
    (asked : (Renderer.handler opts).opened b c = some (b', back)) :
    (Occurrence.opened ⟨b, c⟩ ⟨b', c.returned back⟩).calls = [] := by
  obtain ⟨same, -⟩ := Renderer.opened_eq asked
  exact Bridge.callsSince_eq [] (congrArg (·.backend.calls) same)

theorem calls_closed (opts : RenderOptions) (b : Bridge) (c : RenderClient) :
    (Occurrence.closed ⟨b, c⟩ ((Renderer.handler opts).closed b c)).calls =
      (c.tag.map .destroy).toList := by
  apply (Bridge.callsSince_eq _ (Renderer.calls_release b c)).trans
  cases c.tag <;> rfl

theorem created_release (tag : Option ContextHandle) :
    created (tag.map BackendCall.destroy).toList = 0 := by
  cases tag <;> rfl

theorem destroyed_release (tag : Option ContextHandle) :
    destroyed (tag.map BackendCall.destroy).toList = held tag := by
  cases tag <;> rfl

/-- An open connection holds the context that was created for it; that of any other is destroyed. -/
def Owning (cs : List BackendCall) : Option RenderClient → Prop
  | some c => created cs = held c.tag ∧ destroyed cs = 0
  | none => created cs = destroyed cs ∧ (created cs).card ≤ 1

theorem Owning.serve {cs : List BackendCall} {b : Bridge} {c : RenderClient}
    {s : Session (Option ContextHandle) Bridge}
    (path : Session.Path (Renderer.handler opts) ⟨b, c, []⟩ s) (owning : Owning cs (some c)) :
    Owning (cs ++ called s.history) (some s.client) := by
  obtain ⟨creates, destroys⟩ := owning
  obtain ⟨none, some⟩ := Session.Path.contexts path rfl
  refine ⟨?_, ?_⟩
  · rw [created_append, creates]
    exact some
  · rw [destroyed_append, destroys, none]
    rfl

theorem Owning.close {cs : List BackendCall} {c : RenderClient} (b : Bridge)
    (owning : Owning cs (some c)) :
    Owning (cs ++ (Occurrence.closed ⟨b, c⟩ ((Renderer.handler opts).closed b c)).calls) none := by
  obtain ⟨creates, destroys⟩ := owning
  rw [calls_closed]
  have all : created (cs ++ (c.tag.map BackendCall.destroy).toList) = held c.tag := by
    rw [created_append, created_release, creates]
    exact add_zero _
  refine ⟨?_, ?_⟩
  · rw [all, destroyed_append, destroyed_release, destroys]
    exact (zero_add _).symm
  · rw [all]
    exact card_held_le _

theorem Life.owning {inputCapacity outputCapacity n : Nat} {c : Option RenderClient}
    {os : List (Occurrence (Option ContextHandle) Bridge)}
    (life : Life (Renderer.handler opts) inputCapacity outputCapacity n c os) :
    Owning (called os) c := by
  induction life with
  | absent => exact ⟨rfl, Nat.zero_le _⟩
  | declined => exact ⟨rfl, Nat.zero_le _⟩
  | opened guest asked =>
    obtain ⟨-, kept⟩ := Renderer.opened_eq asked
    rw [called_cons, calls_opened asked]
    refine ⟨?_, rfl⟩
    rw [kept, guest]
    rfl
  | kept life served ih =>
    rw [called_append]
    exact ih.serve (Session.path_of_serve served (by simp))
  | torn life served ih =>
    rw [called_cons, called_append]
    exact (ih.serve (Session.path_of_serve served (by simp))).close _
  | stopped life ih =>
    rw [called_cons]
    exact ih.close _

namespace EventLoop

def contexts (l : EventLoop (Option ContextHandle) Bridge) : Multiset ContextHandle :=
  ↑(l.clients.filterMap Client.tag)

/-- What the backend was called for, since it was as the bridge `b` has it, is what the history
tells; the contexts that it created are those that it destroyed and those that clients hold, and it
never destroyed one that it had not created. -/
structure Balanced (b : Bridge) (l : EventLoop (Option ContextHandle) Bridge) : Prop where
  calls : l.world.backend.calls = (called l.history).reverse ++ b.backend.calls
  balance : created (called l.history) = destroyed (called l.history) + l.contexts
  order : ∀ cs, cs <+: called l.history → destroyed cs ≤ created cs

variable {b : Bridge} {l m : EventLoop (Option ContextHandle) Bridge}

theorem contexts_of_perm {c : RenderClient} {cs : List RenderClient}
    (perm : l.clients.Perm (c :: cs)) :
    l.contexts = held c.tag + ↑(cs.filterMap Client.tag) := by
  have moved := Multiset.coe_eq_coe.mpr (perm.filterMap Client.tag)
  rw [contexts, moved]
  cases owned : c.tag <;> simp [held, owned]

theorem Alike.balanced (alike : Alike l m) (balanced : Balanced b l) : Balanced b m := by
  obtain ⟨clients, world, -, history, -⟩ := alike
  refine ⟨?_, ?_, ?_⟩
  · rw [world, history]
    exact balanced.calls
  · rw [history, contexts, clients]
    exact balanced.balance
  · rw [history]
    exact balanced.order

/-- The balance stays with a callback that makes one call at most and leaves the client with what
the call created, or without what it destroyed. -/
theorem Balanced.exchange {p : Occurrence (Option ContextHandle) Bridge} (balanced : Balanced b l)
    (noted : m.history = p :: l.history) (short : p.calls.length ≤ 1)
    (calls : m.world.backend.calls = p.calls.reverse ++ l.world.backend.calls)
    (swap : l.contexts + created p.calls = destroyed p.calls + m.contexts) : Balanced b m := by
  have balance : created (called m.history) = destroyed (called m.history) + m.contexts := by
    rw [noted, called_cons, created_append, destroyed_append, balanced.balance, add_assoc, swap,
      add_assoc]
  refine ⟨?_, balance, ?_⟩
  · rw [calls, balanced.calls, noted, called_cons, List.reverse_append, List.append_assoc]
  · intro cs part
    rcases hp : p.calls with _ | ⟨call, rest⟩
    · rw [noted, called_cons, hp, List.append_nil] at part
      exact balanced.order cs part
    · have one : rest = [] := List.eq_nil_of_length_eq_zero (by simpa [hp] using short)
      rw [noted, called_cons, hp, one] at part
      -- only the whole list ends with the new call, and for it the balance is known
      rcases List.prefix_concat_iff.mp part with whole | part
      · have all : cs = called m.history := by rw [whole, noted, called_cons, hp, one]
        rw [all, balance]
        exact Multiset.le_add_right _ _
      · exact balanced.order cs part

theorem Balanced.decline (balanced : Balanced b l) (d : Descriptor) : Balanced b (l.decline d) :=
  balanced.exchange rfl (Nat.zero_le _) rfl ((add_zero _).trans (zero_add _).symm)

theorem Balanced.enrol (balanced : Balanced b l) {d : Descriptor} {w : Bridge}
    {back : RenderClient}
    (asked : (Renderer.handler opts).opened l.world (l.newcomer (Renderer.handler opts) d) =
      some (w, back)) :
    Balanced b (l.enrol (l.newcomer (Renderer.handler opts) d) w back) := by
  obtain ⟨same, kept⟩ := Renderer.opened_eq asked
  have blank : back.tag = none := congrArg Client.tag kept
  have calls := calls_opened asked
  refine balanced.exchange rfl ?_ ?_ ?_
  · rw [calls]
    exact Nat.zero_le _
  · rw [calls, same]
    rfl
  · rw [calls]
    simp [contexts, EventLoop.enrol, Client.returned, blank]

theorem Balanced.absorb (balanced : Balanced b l) (o : Orderly l) {c : RenderClient}
    {s : Session (Option ContextHandle) Bridge} (member : c ∈ l.clients)
    (step : Session.Step (Renderer.handler opts) ⟨l.world, c, []⟩ s) : Balanced b (l.absorb s) := by
  obtain ⟨p, notes, short, calls, destroys, creates⟩ := step.contexts
  have noted : (l.absorb s).history = p :: l.history := congrArg (· ++ l.history) notes
  apply balanced.exchange noted short calls
  rw [contexts_of_perm (o.perm_erase member), destroys, add_right_comm, creates, zero_add]
  exact (contexts_of_perm (o.perm_update member step.descriptor)).symm

theorem Balanced.release (balanced : Balanced b l) (o : Orderly l) {c : RenderClient}
    (member : c ∈ l.clients) : Balanced b (l.release (Renderer.handler opts) c) := by
  have calls := calls_closed opts l.world c
  refine balanced.exchange rfl ?_ ?_ ?_
  · rw [calls]
    exact Option.length_toList_le
  · rw [calls]
    apply (Renderer.calls_release l.world c).trans
    cases c.tag <;> rfl
  · rw [calls, created_release, destroyed_release, contexts_of_perm (o.perm_erase member)]
    exact add_zero _

theorem Step.balanced (o : Orderly l) (balanced : Balanced b l)
    (step : Step (Renderer.handler opts) l m) : Balanced b m := by
  cases step with
  | declined d alike => exact alike.balanced (balanced.decline d)
  | opened free asked alike => exact alike.balanced (balanced.enrol asked)
  | served member step alike => exact alike.balanced (balanced.absorb o member step)
  | closed member alike => exact alike.balanced (balanced.release o member)
  | watched alike => exact alike.balanced balanced

theorem Path.balanced (o : Orderly l) (balanced : Balanced b l)
    (path : Path (Renderer.handler opts) l m) : Balanced b m := by
  induction path with
  | refl => exact balanced
  | tail path step ih => exact step.balanced (Path.orderly o path) ih

theorem Begins.balanced (begins : l.Begins) : Balanced l.world l := by
  obtain ⟨clients, history, -⟩ := begins
  refine ⟨?_, ?_, ?_⟩
  · rw [history]
    rfl
  · rw [history, contexts, clients]
    rfl
  · intro cs part
    rw [history] at part
    rw [List.prefix_nil.mp part]
    exact le_refl _

theorem Balanced.callsSince (balanced : Balanced b l) :
    l.world.callsSince b = called l.history := by
  rw [Bridge.callsSince_eq _ balanced.calls, List.reverse_reverse]

theorem Orderly.contexts_eq (o : Orderly l) :
    l.contexts = ↑((standings l.history).filterMap Standing.tag) := by
  rw [← o.table, List.filterMap_map]
  rfl

end EventLoop

def Renderer.loop (listener waker : Descriptor) (b : Bridge) :
    EventLoop (Option ContextHandle) Bridge :=
  .create listener waker inputCapacity outputCapacity b

namespace Renderer

open EventLoop

variable {listener waker : Descriptor} {b : Bridge}
  {m : EventLoop (Option ContextHandle) Bridge}

theorem begins_loop (listener waker : Descriptor) (b : Bridge) : (loop listener waker b).Begins :=
  begins_create ..

theorem alive_of_moves (moves : Moves (handler opts) (loop listener waker b) m) :
    m.crashed = false :=
  (Moves.calm (begins_loop ..).orderly (calm opts) moves rfl).1

theorem lives_of_moves (moves : Moves (handler opts) (loop listener waker b) m) :
    Lives (handler opts) inputCapacity outputCapacity m :=
  Moves.lives (begins_loop ..).orderly (begins_loop ..).lives moves (alive_of_moves moves)

end Renderer

namespace EventLoop

variable {listener waker : Descriptor} {b : Bridge} {waits : List Wait}

/-- At every moment between two callbacks the contexts created are those destroyed and those that
clients hold. A connection leads to one at most, which is destroyed on its behalf. -/
theorem contexts_run
    (fresh : EachAccepted (Renderer.handler opts) Free (Renderer.loop listener waker b) waits)
    (clearing : Clearing) :
    let l := Renderer.loop listener waker b
    let m := l.wait (Renderer.handler opts) waits
    let k := l.run (Renderer.handler opts) waits clearing
    (∀ os, os <:+ k.history →
      created ((lastWorld b os).callsSince b) =
        destroyed ((lastWorld b os).callsSince b) +
          ↑((standings os).filterMap Standing.tag)) ∧
    created (m.world.callsSince b) = destroyed (m.world.callsSince b) +
      ↑(m.clients.filterMap Client.tag) ∧
    (∀ cs, cs <+: k.world.callsSince b → destroyed cs ≤ created cs) ∧
    called k.history = k.world.callsSince b ∧
    (∀ n, (created (called (own n k.history))).card ≤ 1 ∧
      created (called (own n k.history)) = destroyed (called (own n k.history))) ∧
    created (k.world.callsSince b) = destroyed (k.world.callsSince b) ∧
    k.clients = [] ∧ k.crashed = false := by
  intro l m k
  have begins : l.Begins := Renderer.begins_loop ..
  have ordered := begins.orderly
  have waited : Moves (Renderer.handler opts) l m := moves_wait fresh
  have moves : Moves (Renderer.handler opts) l k := moves_run fresh clearing
  have alive := Renderer.alive_of_moves moves
  have path := moves.path ordered alive
  have balanced : Balanced b k := Path.balanced ordered begins.balanced path
  have everywhere {j : EventLoop (Option ContextHandle) Bridge}
      (path : Path (Renderer.handler opts) l j) :
      created (j.world.callsSince b) = destroyed (j.world.callsSince b) + j.contexts := by
    have balanced : Balanced b j := Path.balanced ordered begins.balanced path
    rw [balanced.callsSince]
    exact balanced.balance
  have empty : k.clients = [] := clients_run ..
  refine ⟨?_, ?_, ?_, balanced.callsSince.symm, ?_, ?_, empty, alive⟩
  · intro os part
    obtain ⟨j, path, rfl⟩ := Path.through path begins.history part
    have world : j.world = lastWorld b j.history := Path.world path begins.history
    rw [← world, ← (Path.orderly ordered path).contexts_eq]
    exact everywhere path
  · exact everywhere (waited.path ordered (Renderer.alive_of_moves waited))
  · rw [balanced.callsSince]
    exact balanced.order
  · intro n
    have lives := (Renderer.lives_of_moves moves).outside n (by simp [empty])
    exact ⟨lives.owning.2, lives.owning.1⟩
  · have none : k.contexts = 0 := by rw [contexts, empty]; rfl
    rw [everywhere path, none, add_zero]

/-- The first client asks twice and gets one context; the second gets none and is closed; the third
gets a context whose number is that of the first. -/
theorem contexts_run_scripted :
    let waits : List Wait :=
      [.events
        [{ descriptor := 3, accepts := [.connection 6 true true, .connection 7 true true] },
          { descriptor := 6, flags := { readable := true }, read := .bytes [1] },
          { descriptor := 7, flags := { readable := true }, read := .bytes [1] },
          { descriptor := 6, flags := { readable := true }, read := .bytes [1] }],
        .events
          [{ descriptor := 3, accepts := [.connection 7 true true] },
            { descriptor := 7, flags := { readable := true }, read := .bytes [1] }]]
    let b : Bridge := { backend := { creates := some [7, 0, 7] } }
    let k := (Renderer.loop 3 5 b).run (Renderer.handler {}) waits {}
    let seven : ContextHandle := ⟨7, by decide⟩
    created (k.world.callsSince b) = {seven, seven} ∧
      created (k.world.callsSince b) = destroyed (k.world.callsSince b) := by
  intro waits b k seven
  have fresh : EachAccepted (Renderer.handler {}) Free (Renderer.loop 3 5 b) waits := by
    decide +kernel
  obtain ⟨-, -, -, -, -, ended, -⟩ := contexts_run fresh {}
  exact ⟨by decide +kernel, ended⟩

end EventLoop

end RenderBroker
