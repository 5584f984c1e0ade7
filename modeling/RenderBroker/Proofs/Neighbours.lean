import RenderBroker.Proofs.Owners

namespace RenderBroker

variable {τ ω : Type} {h : Handler τ ω}

open Occurrence

/-- What the handler is called for changes nothing but the client that it is given, once the client
is open. -/
structure Handler.Private (h : Handler τ ω) : Prop where
  request : ∀ w c, (h.request w c).2.1 = w
  closed : ∀ w c, h.closed w c = w

namespace Session

variable {s t : Session τ ω}

theorem Step.world (priv : h.Private) (step : Step h s t) : t.world = s.world := by
  cases step with
  | read r => rfl
  | request unmarked asked calm =>
    have kept := priv.request s.world s.client
    rw [asked] at kept
    exact kept
  | flush plan => rfl

theorem Path.world (priv : h.Private) (path : Path h s t) : t.world = s.world := by
  induction path with
  | refl => rfl
  | tail _ step ih => exact (step.world priv).trans ih

def noted (h : Handler τ ω) (s : Session τ ω) : Verdict → List (Occurrence τ ω)
  | .tearDown => .closed ⟨s.world, s.client⟩ (h.closed s.world s.client) :: s.history
  | .keep | .crash => s.history

end Session

def Verdict.left (c : Client τ) : Verdict → Option (Client τ)
  | .keep => some c
  | .tearDown | .crash => none

namespace EventLoop

variable {l m k : EventLoop τ ω} {waits : List Wait} {e : Event} {c : Client τ} {d : Descriptor}
  {v : Verdict} {s : Session τ ω}

theorem Orderly.client?_iff (o : Orderly l) :
    l.client? d = some c ↔ c ∈ l.clients ∧ c.descriptor = d := by
  constructor
  · exact client?_eq_some
  · rintro ⟨member, rfl⟩
    exact o.client?_eq member

theorem client?_congr (same : m.clients = l.clients) (d : Descriptor) :
    m.client? d = l.client? d := by
  rw [client?, client?, same]

/-- The event of a client has come to a verdict on it and to a session, and the loop goes on. -/
structure Served (h : Handler τ ω) (v : Verdict) (s : Session τ ω) (l m : EventLoop τ ω) :
    Prop where
  alive : m.crashed = false
  world : h.Private → m.world = l.world
  client? : ∀ d, m.client? d = if d = s.client.descriptor then v.left s.client else l.client? d
  armed : ∀ d, d ∈ m.writeArmed ↔
    if d = s.client.descriptor then v = .keep ∧ s.client.hasQueued = true else d ∈ l.writeArmed
  paused : m.acceptPaused = (l.acceptPaused && v == .keep)
  history : m.history = s.noted h v ++ l.history

theorem resume_of_told (l : EventLoop τ ω) : (l.resume true).acceptPaused = false := by
  rw [resume, Bool.and_true]
  split
  · rfl
  · next going => simpa using going

theorem Orderly.client?_serveClient (o : Orderly l) (o' : Orderly (l.serveClient h e))
    (alive : (l.serveClient h e).crashed = false) (other : d ≠ e.descriptor) :
    (l.serveClient h e).client? d = l.client? d := by
  apply Option.ext
  intro b
  rw [o.client?_iff, o'.client?_iff]
  constructor
  · rintro ⟨there, rfl⟩
    exact ⟨(mem_serveClient other alive).mp there, rfl⟩
  · rintro ⟨there, rfl⟩
    exact ⟨(mem_serveClient other alive).mpr there, rfl⟩

/-- The event of a client that is in the table, with the verdict and the session that it comes to
where the poller does what it is told. -/
structure Due (h : Handler τ ω) (l : EventLoop τ ω) (e : Event) (v : Verdict) (s : Session τ ω) :
    Prop where
  client : ∃ c, l.client? e.descriptor = some c ∧
    Session.serve h ⟨l.world, c, []⟩ e.flags e.read e.writes = (v, s)
  told : e.control = {}

theorem Due.of_client (h : Handler τ ω) (there : (l.client? e.descriptor).isSome)
    (told : e.control = {}) : ∃ v s, Due h l e v s := by
  obtain ⟨c, found⟩ := Option.isSome_iff_exists.mp there
  exact ⟨_, _, ⟨c, found, rfl⟩, told⟩

theorem Due.descriptor (due : Due h l e v s) : s.client.descriptor = e.descriptor := by
  obtain ⟨c, found, served⟩ := due.client
  exact (Session.own_of_serve served rfl).1.trans (client?_eq_some found).2

theorem Due.serial (due : Due h l e v s) :
    ∃ c ∈ l.clients, c.descriptor = e.descriptor ∧ ∀ o ∈ s.noted h v, o.serial = c.serial := by
  obtain ⟨c, found, served⟩ := due.client
  obtain ⟨member, here⟩ := client?_eq_some found
  obtain ⟨-, serial, own⟩ := Session.own_of_serve served rfl
  refine ⟨c, member, here, ?_⟩
  cases v with
  | keep => exact own
  | tearDown => exact List.forall_mem_cons.mpr ⟨serial, own⟩
  | crash => exact own

theorem Due.serveClient_eq (due : Due h l e v s) :
    l.serveClient h e = (l.absorb s).settle h e s.client.hasQueued v := by
  obtain ⟨c, found, served⟩ := due.client
  exact EventLoop.serveClient_eq found served

theorem Due.client?_absorb (due : Due h l e v s) :
    (l.absorb s).client? e.descriptor = some s.client := by
  obtain ⟨c, found, -⟩ := due.client
  exact EventLoop.client?_absorb found due.descriptor

theorem Due.world (due : Due h l e v s) (priv : h.Private) (calm : v ≠ .crash) :
    s.world = l.world := by
  obtain ⟨c, -, served⟩ := due.client
  exact Session.Path.world priv (Session.path_of_serve served calm)

/-- What stands in the table behind an event is decided by what stands at its own descriptor. -/
theorem Due.client?_serveClient (due : Due h l e v s) (o : Orderly l) (alive : l.crashed = false)
    (going : (l.serveClient h e).crashed = false)
    (left : (l.serveClient h e).client? e.descriptor = v.left s.client) (d : Descriptor) :
    (l.serveClient h e).client? d =
      if d = s.client.descriptor then v.left s.client else l.client? d := by
  rw [due.descriptor]
  split
  · next here => rw [here, left]
  · next other =>
    have moves : Moves h l (l.serveClient h e) := .single (.serve e alive)
    exact o.client?_serveClient (Moves.orderly o moves going) going other

theorem Due.served_keep (due : Due h l e .keep s) (o : Orderly l) (alive : l.crashed = false) :
    Served h .keep s l (l.serveClient h e) := by
  have eq := due.serveClient_eq
  rw [settle, due.told] at eq
  have alike := alike_updateInterest (l.absorb s) e.descriptor s.client.hasQueued true
  rw [← eq] at alike
  have going : (l.serveClient h e).crashed = false := by
    rw [eq, updateInterest]
    split <;> exact alive
  apply Served.mk going
  · intro priv
    exact alike.world.trans (due.world priv (by simp))
  · apply due.client?_serveClient o alive going
    rw [client?_congr alike.clients]
    exact due.client?_absorb
  · intro d
    rw [eq, armed_updateInterest, due.descriptor]
    split
    · simp
    · exact .rfl
  · rw [eq, updateInterest, beq_self_eq_true, Bool.and_true]
    split <;> rfl
  · exact alike.history

theorem Due.served_tearDown (due : Due h l e .tearDown s) (o : Orderly l)
    (alive : l.crashed = false) : Served h .tearDown s l (l.serveClient h e) := by
  have eq := due.serveClient_eq
  have back := due.client?_absorb
  rw [settle, due.told] at eq
  have alike := alike_tearDown (h := h) back true
  have armed (d : Descriptor) := armed_tearDown (h := h) (e := d) back true
  rw [← eq] at alike armed
  have going : (l.serveClient h e).crashed = false := by
    rw [eq, crashed_tearDown]
    exact alive
  apply Served.mk going
  · intro priv
    exact alike.world.trans ((priv.closed _ _).trans (due.world priv (by simp)))
  · apply due.client?_serveClient o alive going
    apply client?_eq_none.mpr
    rw [alike.clients, ← due.descriptor]
    intro b hb
    exact (mem_erase.mp hb).2
  · intro d
    rw [armed, due.descriptor]
    split
    · next this => simp [this]
    · next other => exact and_iff_right other
  · rw [eq, tearDown_eq back, resume_of_told, beq_false_of_ne (by simp), Bool.and_false]
  · exact alike.history

theorem Due.served (due : Due h l e v s) (o : Orderly l) (alive : l.crashed = false)
    (calm : v ≠ .crash) : Served h v s l (l.serveClient h e) := by
  cases v with
  | keep => exact due.served_keep o alive
  | tearDown => exact due.served_tearDown o alive
  | crash => exact absurd rfl calm

structure Emptied (l : EventLoop τ ω) : Prop where
  crashed : l.crashed = true
  clients : l.clients = []
  unarmed : l.writeArmed = []
  poller : l.poller = {}
  paused : l.acceptPaused = false

theorem Due.emptied (due : Due h l e .crash s) : Emptied (l.serveClient h e) := by
  rw [due.serveClient_eq]
  exact ⟨rfl, rfl, rfl, rfl, rfl⟩

theorem Emptied.handle (empty : Emptied l) (e : Event) : Emptied (l.handle h e) := by
  rw [handle_of_crashed empty.crashed]
  exact empty

variable {a b : Event} {va vb : Verdict} {sa sb : Session τ ω}

/-- The event of another client still comes to what it would have come to. -/
theorem Served.due (served : Served h va sa l m) (priv : h.Private) (due : Due h l b vb sb)
    (other : b.descriptor ≠ sa.client.descriptor) : Due h m b vb sb := by
  obtain ⟨c, found, serves⟩ := due.client
  refine ⟨⟨c, ?_, ?_⟩, due.told⟩
  · rw [served.client?, if_neg other]
    exact found
  · rw [served.world priv]
    exact serves

theorem Due.handle (due : Due h l e v s) (r : Registered l) (alive : l.crashed = false) :
    l.handle h e = l.serveClient h e := by
  obtain ⟨c, found, -⟩ := due.client
  obtain ⟨member, here⟩ := client?_eq_some found
  obtain ⟨listener, waker⟩ := r.alone member
  rw [here] at listener waker
  exact handle_of_client alive waker listener

/-- Two events are handled one after the other, each as if it came alone. -/
theorem Due.both (dueA : Due h l a va sa) (dueB : Due h l b vb sb) (priv : h.Private)
    (o : Orderly l) (r : Registered l) (alive : l.crashed = false)
    (apart : a.descriptor ≠ b.descriptor) (calmA : va ≠ .crash) (calmB : vb ≠ .crash) :
    ∃ m, Served h va sa l m ∧ Served h vb sb m ((l.handle h a).handle h b) ∧
      Moves h l ((l.handle h a).handle h b) := by
  have first := dueA.served o alive calmA
  have later := first.due priv dueB (dueA.descriptor ▸ apart.symm)
  have o' := Moves.orderly o (.single (.serve a alive)) first.alive
  have r' : Registered (l.serveClient h a) := r.serveClient first.alive
  have second := later.served o' first.alive calmB
  rw [dueA.handle r alive, later.handle r' first.alive]
  exact ⟨_, first, second, .tail (.single (.serve a alive)) (.serve b first.alive)⟩

theorem Due.neither (dueA : Due h l a va sa) (dueB : Due h l b vb sb) (priv : h.Private)
    (o : Orderly l) (r : Registered l) (alive : l.crashed = false)
    (apart : a.descriptor ≠ b.descriptor) (panics : va = .crash ∨ vb = .crash) :
    Emptied ((l.handle h a).handle h b) := by
  rw [dueA.handle r alive]
  by_cases calmA : va = .crash
  · subst calmA
    exact dueA.emptied.handle b
  · have first := dueA.served o alive calmA
    have later := first.due priv dueB (dueA.descriptor ▸ apart.symm)
    rw [later.handle (r.serveClient first.alive) first.alive]
    obtain rfl := panics.resolve_left calmA
    exact later.emptied

theorem Registered.interest?_eq (r : Registered l) (d : Descriptor) :
    l.poller.interest? d =
      if d = l.listener then (if l.acceptPaused then none else some {})
      else if d = l.waker then some {}
      else (l.client? d).map fun _ => .client (l.writeArmed.contains d) := by
  split
  · next listener => rw [listener, r.listener]
  · next other =>
    split
    · next waker =>
      rw [waker] at other ⊢
      exact r.waker other
    · next asleep =>
      cases found : l.client? d with
      | some c =>
        obtain ⟨member, rfl⟩ := client?_eq_some found
        exact r.watched.interest c member
      | none =>
        cases watched : l.poller.interest? d with
        | none => rfl
        | some i =>
          obtain ⟨c, member, same⟩ := ((r.known d i watched).resolve_left asleep).resolve_left other
          exact absurd same (client?_eq_none.mp found c member)

structure Agree (l m : EventLoop τ ω) : Prop where
  crashed : l.crashed = m.crashed
  client? : ∀ d, l.client? d = m.client? d
  interest? : ∀ d, l.poller.interest? d = m.poller.interest? d
  armed : ∀ d, d ∈ l.writeArmed ↔ d ∈ m.writeArmed
  paused : l.acceptPaused = m.acceptPaused

theorem Emptied.agree (empty : Emptied l) (empty' : Emptied m) : Agree l m := by
  apply Agree.mk
  · rw [empty.crashed, empty'.crashed]
  · exact client?_congr (empty.clients.trans empty'.clients.symm)
  · intro d
    rw [empty.poller, empty'.poller]
  · intro d
    rw [empty.unarmed, empty'.unarmed]
  · rw [empty.paused, empty'.paused]

theorem Served.swap {m' k' : EventLoop τ ω} (first : Served h va sa l m)
    (second : Served h vb sb m k) (first' : Served h vb sb l m') (second' : Served h va sa m' k')
    (o : Orderly l) (r : Registered l) (moves : Moves h l k) (moves' : Moves h l k')
    (apart : sa.client.descriptor ≠ sb.client.descriptor) : Agree k k' := by
  have disjoint {d : Descriptor} (this : d = sb.client.descriptor) : d ≠ sa.client.descriptor :=
    fun here => apart (here.symm.trans this)
  have clients (d : Descriptor) : k.client? d = k'.client? d := by
    rw [second.client?, first.client?, second'.client?, first'.client?]
    apply ite_ite_comm
    exact disjoint
  have armed (d : Descriptor) : d ∈ k.writeArmed ↔ d ∈ k'.writeArmed := by
    rw [second.armed, first.armed, second'.armed, first'.armed]
    apply iff_of_eq
    apply ite_ite_comm
    exact disjoint
  have paused : k.acceptPaused = k'.acceptPaused := by
    rw [second.paused, first.paused, second'.paused, first'.paused, Bool.and_right_comm]
  apply Agree.mk _ clients _ armed paused
  · rw [second.alive, second'.alive]
  · intro d
    have contains : k.writeArmed.contains d = k'.writeArmed.contains d := by
      rw [Bool.eq_iff_iff, List.contains_iff_mem, List.contains_iff_mem]
      exact armed d
    have watched := Moves.registered r o moves second.alive
    have watched' := Moves.registered r o moves' second'.alive
    obtain ⟨listener, waker⟩ := Moves.sockets moves
    obtain ⟨listener', waker'⟩ := Moves.sockets moves'
    rw [watched.interest?_eq, watched'.interest?_eq, listener, waker, listener', waker', paused,
      clients, contains]

theorem own_swap {os ps : List (Occurrence τ ω)} {i j : Nat} (first : ∀ o ∈ os, o.serial = i)
    (second : ∀ o ∈ ps, o.serial = j) (apart : i ≠ j) (n : Nat) (rest : List (Occurrence τ ω)) :
    own n (os ++ (ps ++ rest)) = own n (ps ++ (os ++ rest)) := by
  by_cases here : n = i
  · have others : ∀ o ∈ ps, o.serial ≠ n := fun o ho => second o ho ▸ here ▸ apart.symm
    rw [own_append, own_append_other rest others, own_append_other _ others, own_append]
  · have others : ∀ o ∈ os, o.serial ≠ n := fun o ho => first o ho ▸ Ne.symm here
    rw [own_append_other _ others, own_append, own_append n ps, own_append_other rest others]

theorem Due.frame (due : Due h l e v s) (o : Orderly l) (r : Registered l)
    (alive : l.crashed = false) (going : (l.handle h e).crashed = false) (member : c ∈ l.clients)
    (other : c.descriptor ≠ e.descriptor) :
    (l.handle h e).client? c.descriptor = some c ∧
      (l.handle h e).poller.interest? c.descriptor = l.poller.interest? c.descriptor ∧
      (c.descriptor ∈ (l.handle h e).writeArmed ↔ c.descriptor ∈ l.writeArmed) ∧
      own c.serial (l.handle h e).history = own c.serial l.history := by
  rw [due.handle r alive] at going ⊢
  have calm : v ≠ .crash := by
    rintro rfl
    exact absurd (due.emptied.crashed.symm.trans going) (by simp)
  have served := due.served o alive calm
  obtain ⟨b, there, here, noted⟩ := due.serial
  rw [← due.descriptor] at other
  have armed := served.armed c.descriptor
  rw [if_neg other] at armed
  have found := served.client? c.descriptor
  rw [if_neg other, o.client?_eq member] at found
  refine ⟨found, ?_, armed, ?_⟩
  · have r' : Registered (l.serveClient h e) := r.serveClient going
    rw [r'.watched.interest c (client?_eq_some found).1, r.watched.interest c member]
    have contains : (l.serveClient h e).writeArmed.contains c.descriptor =
        l.writeArmed.contains c.descriptor := by
      rw [Bool.eq_iff_iff, List.contains_iff_mem, List.contains_iff_mem]
      exact armed
    rw [contains]
  · rw [served.history]
    apply o.own_others member there (here ▸ due.descriptor ▸ other) noted

/-- The events of two clients come to the same table, watch and histories in either order, if the
handler keeps to the client that it is given and the poller does what it is told. All others are
left as they were. -/
theorem events_swap (priv : h.Private) (listener waker : Descriptor)
    (inputCapacity outputCapacity : Nat) (world : ω)
    (fresh : EachAccepted h Free (create listener waker inputCapacity outputCapacity world) waits) :
    let m := (create listener waker inputCapacity outputCapacity world).wait h waits
    ∀ a b : Event, a.descriptor ≠ b.descriptor → a.control = {} → b.control = {} →
      (m.client? a.descriptor).isSome → (m.client? b.descriptor).isSome →
      let k := (m.handle h a).handle h b
      let k' := (m.handle h b).handle h a
      k.crashed = k'.crashed ∧ (∀ d, k.client? d = k'.client? d) ∧
      (∀ d, k.poller.interest? d = k'.poller.interest? d) ∧
      (∀ d, d ∈ k.writeArmed ↔ d ∈ k'.writeArmed) ∧ k.acceptPaused = k'.acceptPaused ∧
      (k.crashed = false → ∀ n, own n k.history = own n k'.history) ∧
      ((m.handle h a).crashed = false → ∀ c ∈ m.clients, c.descriptor ≠ a.descriptor →
        (m.handle h a).client? c.descriptor = some c ∧
        (m.handle h a).poller.interest? c.descriptor = m.poller.interest? c.descriptor ∧
        (c.descriptor ∈ (m.handle h a).writeArmed ↔ c.descriptor ∈ m.writeArmed) ∧
        own c.serial (m.handle h a).history = own c.serial m.history) := by
  intro m a b apart toldA toldB thereA thereB k k'
  have begins := begins_create (τ := τ) listener waker inputCapacity outputCapacity world
  have first := registered_create (τ := τ) listener waker inputCapacity outputCapacity world
  have moves : Moves h _ m := moves_wait fresh
  obtain ⟨va, sa, dueA⟩ := Due.of_client h thereA toldA
  obtain ⟨vb, sb, dueB⟩ := Due.of_client h thereB toldB
  have alive : m.crashed = false := by
    by_contra crashed
    have none := Moves.deserted moves (fun _ => begins.clients) (by simpa using crashed)
    simp [client?, none] at thereA
  have o : Orderly m := Moves.orderly begins.orderly moves alive
  have r : Registered m := Moves.registered first begins.orderly moves alive
  suffices same : Agree k k' ∧
      (k.crashed = false → ∀ n, own n k.history = own n k'.history) by
    obtain ⟨agree, histories⟩ := same
    refine ⟨agree.crashed, agree.client?, agree.interest?, agree.armed, agree.paused, histories, ?_⟩
    intro going c member other
    exact dueA.frame o r alive going member other
  by_cases panics : va = .crash ∨ vb = .crash
  · have empty : Emptied k := dueA.neither dueB priv o r alive apart panics
    have empty' : Emptied k' := dueB.neither dueA priv o r alive apart.symm panics.symm
    refine ⟨empty.agree empty', ?_⟩
    intro going
    exact absurd (empty.crashed.symm.trans going) (by simp)
  · obtain ⟨calmA, calmB⟩ := not_or.mp panics
    obtain ⟨n, firstA, thenB, past⟩ := dueA.both dueB priv o r alive apart calmA calmB
    obtain ⟨n', firstB, thenA, past'⟩ := dueB.both dueA priv o r alive apart.symm calmB calmA
    constructor
    · apply firstA.swap thenB firstB thenA o r past past'
      rw [dueA.descriptor, dueB.descriptor]
      exact apart
    · intro _ i
      obtain ⟨ca, memberA, hereA, notedA⟩ := dueA.serial
      obtain ⟨cb, memberB, hereB, notedB⟩ := dueB.serial
      rw [thenB.history, firstA.history, thenA.history, firstB.history]
      apply own_swap notedB notedA
      rw [← hereA, ← hereB] at apart
      exact Ne.symm (mt (o.same_iff memberA memberB).mpr apart)

/-- Descriptors have run out. In both orders the first client is torn down, the second waits for the
room to write, and connections are accepted again. -/
theorem events_swap_torn :
    let waits : List Wait :=
      [.events
        [{ descriptor := 3
           accepts := [.connection 6 true true, .connection 7 true true, .exhausted true] }]]
    let a : Event := { descriptor := 6, flags := { readable := true }, read := .bytes [] }
    let b : Event :=
      { descriptor := 7, flags := { readable := true }, read := .bytes [1],
        writes := [.fault .wouldBlock] }
    let m := (create 3 5 4 4 ()).wait sixthGreeter waits
    let k := (m.handle sixthGreeter a).handle sixthGreeter b
    let k' := (m.handle sixthGreeter b).handle sixthGreeter a
    m.acceptPaused = true ∧ k.clients.map Client.queued = [[2]] ∧ k.writeArmed = [7] ∧
      k'.acceptPaused = false ∧ (∀ d, k.client? d = k'.client? d) ∧
      (∀ d, k.poller.interest? d = k'.poller.interest? d) ∧
      (∀ n, own n k.history = own n k'.history) ∧
      (m.handle sixthGreeter a).client? 7 = m.client? 7 := by
  intro waits a b m k k'
  have priv : sixthGreeter.Private := ⟨fun _ _ => rfl, fun _ _ => rfl⟩
  have fresh : EachAccepted sixthGreeter Free (create 3 5 4 4 ()) waits := by decide +kernel
  obtain ⟨-, clients, watched, -, -, histories, others⟩ := events_swap priv 3 5 4 4 () fresh a b
    (by decide) rfl rfl (by decide +kernel) (by decide +kernel)
  obtain ⟨c, found⟩ : ∃ c, m.client? 7 = some c :=
    Option.isSome_iff_exists.mp (by decide +kernel)
  obtain ⟨member, here⟩ := client?_eq_some found
  obtain ⟨kept, -⟩ := others (by decide +kernel) c member (here ▸ by decide)
  refine ⟨by decide +kernel, by decide +kernel, by decide +kernel, by decide +kernel, clients,
    watched, histories (by decide +kernel), ?_⟩
  rw [← here, kept, here, found]

end EventLoop

end RenderBroker
