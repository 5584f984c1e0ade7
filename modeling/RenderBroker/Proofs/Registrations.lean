import RenderBroker.Proofs.Interests

namespace RenderBroker

variable {τ ω : Type} {h : Handler τ ω}

namespace EventLoop

variable {l m : EventLoop τ ω} {waits : List Wait}

/-- What is watched is what the loop has written down. -/
structure Registered (l : EventLoop τ ω) : Prop where
  watched : Watched l
  once : (l.poller.watched.map Prod.fst).Nodup
  known : ∀ d i, l.poller.interest? d = some i →
    d = l.waker ∨ d = l.listener ∨ ∃ c ∈ l.clients, c.descriptor = d
  listener : l.poller.interest? l.listener = if l.acceptPaused then none else some {}
  waker : l.waker ≠ l.listener → l.poller.interest? l.waker = some {}
  awake : ∀ c ∈ l.clients, c.descriptor ≠ l.waker

theorem registered_create (listener waker : Descriptor) (inputCapacity outputCapacity : Nat)
    (world : ω) :
    Registered (create listener waker inputCapacity outputCapacity world : EventLoop τ ω) := by
  refine ⟨watched_of_deserted rfl rfl, ?_, ?_, ?_, ?_, ?_⟩
  · have once : ((Poller.mk []).watched.map Prod.fst).Nodup := List.nodup_nil
    exact Poller.nodup_add (Poller.nodup_add once _ _) _ _
  · intro d i watched
    simp only [create, Poller.interest?_add] at watched ⊢
    by_cases first : d = waker
    · exact .inl first
    · by_cases second : d = listener
      · exact .inr (.inl second)
      · rw [if_neg first, if_neg second] at watched
        cases watched
  · simp only [create, Poller.interest?_add]
    split <;> simp
  · intro _
    simp [create, Poller.interest?_add]
  · intro c hc
    cases hc

theorem Registered.pause (r : Registered l) (paused : Bool) : Registered (l.pause paused) := by
  have watched := r.watched.pause paused
  rw [EventLoop.pause] at watched ⊢
  split
  · exact r
  · next changes =>
    rw [if_neg changes] at watched
    refine ⟨watched, Poller.nodup_remove r.once _, ?_, ?_, ?_, r.awake⟩
    · intro d i there
      rw [Poller.interest?_remove] at there
      split at there
      · cases there
      · exact r.known d i there
    · rw [Poller.interest?_remove, if_pos rfl]
      rfl
    · intro apart
      rw [Poller.interest?_remove, if_neg apart]
      exact r.waker apart

theorem Registered.resume (r : Registered l) (resumed : Bool) :
    Registered (l.resume resumed) := by
  have watched := r.watched.resume resumed
  rw [EventLoop.resume] at watched ⊢
  split
  · next changes =>
    rw [if_pos changes] at watched
    refine ⟨watched, Poller.nodup_add r.once _ _, ?_, ?_, ?_, r.awake⟩
    · intro d i there
      rw [Poller.interest?_add] at there
      split at there
      · next here => exact .inr (.inl here)
      · exact r.known d i there
    · rw [Poller.interest?_add, if_pos rfl]
      rfl
    · intro apart
      rw [Poller.interest?_add, if_neg apart]
      exact r.waker apart
  · exact r

/-- At one descriptor, which is not that of the waker or of the listening socket, the table and the
poller may change together. -/
theorem Registered.change (r : Registered l) {d : Descriptor}
    (alone : d ≠ l.listener ∧ d ≠ l.waker)
    (fixed : m.listener = l.listener ∧ m.waker = l.waker ∧ m.acceptPaused = l.acceptPaused)
    (watched : Watched m) (once : (m.poller.watched.map Prod.fst).Nodup)
    (poller : ∀ e, e ≠ d → m.poller.interest? e = l.poller.interest? e)
    (held : ∀ i, m.poller.interest? d = some i → ∃ c ∈ m.clients, c.descriptor = d)
    (clients : ∀ e, e ≠ d →
      ((∃ c ∈ m.clients, c.descriptor = e) ↔ ∃ c ∈ l.clients, c.descriptor = e)) :
    Registered m := by
  obtain ⟨listener, waker, paused⟩ := fixed
  refine ⟨watched, once, ?_, ?_, ?_, ?_⟩
  · intro e i there
    by_cases here : e = d
    · subst here
      exact .inr (.inr (held i there))
    · rw [poller e here] at there
      rw [listener, waker, clients e here]
      exact r.known e i there
  · rw [listener, paused, poller _ alone.1.symm]
    exact r.listener
  · rw [listener, waker, poller _ alone.2.symm]
    exact r.waker
  · intro c hc
    rw [waker]
    by_cases here : c.descriptor = d
    · rw [here]
      exact alone.2
    · obtain ⟨b, hb, same⟩ := (clients _ here).mp ⟨c, hc, rfl⟩
      rw [← same]
      exact r.awake b hb

theorem Registered.alone (r : Registered l) {c : Client τ} (member : c ∈ l.clients) :
    c.descriptor ≠ l.listener ∧ c.descriptor ≠ l.waker :=
  ⟨r.watched.apart c member, r.awake c member⟩

theorem Registered.register (r : Registered l) (o : Orderly l) {d : Descriptor} (free : l.Free d)
    {setUp watched : Bool} (alive : (l.register h d setUp watched).crashed = false) :
    Registered (l.register h d setUp watched) := by
  have agreed := r.watched.register (h := h) o free setUp watched
  rw [o.register_eq free] at agreed alive ⊢
  split at alive
  · next taken =>
    rw [if_pos taken] at agreed ⊢
    cases asked : h.opened l.world (l.newcomer h d) with
    | none =>
      rw [asked] at alive
      cases alive
    | some back =>
      rw [asked] at agreed
      have new : ∃ c ∈ l.clients ++ [(l.newcomer h d).returned back.2], c.descriptor = d :=
        ⟨_, List.mem_append_right _ (List.mem_singleton_self _), rfl⟩
      refine r.change ⟨free.1, free.2.1⟩ ⟨rfl, rfl, rfl⟩ agreed (Poller.nodup_add r.once _ _) ?_
        (fun _ _ => new) ?_
      · intro e other
        rw [Poller.interest?_add, if_neg other]
      · intro e other
        have apart : (l.newcomer h d).descriptor ≠ e := other.symm
        simp [enrol, or_and_right, exists_or, apart]
  · next dropped =>
    rw [if_neg dropped] at agreed ⊢
    exact ⟨agreed, r.once, r.known, r.listener, r.waker, r.awake⟩

theorem Registered.absorb (r : Registered l) {c : Client τ} {s : Session τ ω}
    (member : c ∈ l.clients) (same : s.client.descriptor = c.descriptor) :
    Registered (l.absorb s) := by
  have back : s.client ∈ (l.absorb s).clients := mem_update member same.symm
  refine r.change (same ▸ r.alone member) ⟨rfl, rfl, rfl⟩ (r.watched.absorb member same) r.once
    (fun _ _ => rfl) (fun _ _ => ⟨s.client, back, rfl⟩) ?_
  intro e other
  constructor
  · rintro ⟨b, hb, rfl⟩
    rcases of_mem_update hb with rfl | ⟨hb, -⟩
    · exact absurd rfl other
    · exact ⟨b, hb, rfl⟩
  · rintro ⟨b, hb, rfl⟩
    exact ⟨b, mem_update_of_ne hb other, rfl⟩

theorem Registered.updateInterest (r : Registered l) {c : Client τ} (member : c ∈ l.clients)
    (wanted modified : Bool) : Registered (l.updateInterest c.descriptor wanted modified) := by
  have agreed := r.watched.updateInterest member wanted modified
  rw [EventLoop.updateInterest] at agreed ⊢
  split
  · exact r
  · next changes =>
    rw [if_neg changes] at agreed
    refine r.change (r.alone member) ⟨rfl, rfl, rfl⟩ agreed (Poller.nodup_modify r.once _ _) ?_
      (fun _ _ => ⟨c, member, rfl⟩) (fun _ _ => .rfl)
    intro e other
    rw [Poller.interest?_modify, if_neg other]

theorem Registered.tearDown (r : Registered l) (d : Descriptor) (resumed : Bool) :
    Registered (l.tearDown h d resumed) := by
  have agreed := r.watched.tearDown (h := h) d false
  cases found : l.client? d with
  | none =>
    rw [EventLoop.tearDown]
    rw [found]
    exact r
  | some c =>
    obtain ⟨member, rfl⟩ := client?_eq_some found
    rw [tearDown_eq found] at agreed ⊢
    -- the listening socket is looked at when the client is gone
    rw [EventLoop.resume, if_neg (by simp)] at agreed
    apply Registered.resume
    refine r.change (r.alone member) ⟨rfl, rfl, rfl⟩ agreed (Poller.nodup_remove r.once _) ?_ ?_ ?_
    · intro e other
      rw [Poller.interest?_remove, if_neg other]
    · intro i there
      rw [Poller.interest?_remove, if_pos rfl] at there
      cases there
    · intro e other
      constructor
      · rintro ⟨b, hb, rfl⟩
        exact ⟨b, (mem_erase.mp hb).1, rfl⟩
      · rintro ⟨b, hb, rfl⟩
        exact ⟨b, mem_erase.mpr ⟨hb, other⟩, rfl⟩

theorem Registered.serveClient (r : Registered l) {e : Event}
    (alive : (l.serveClient h e).crashed = false) : Registered (l.serveClient h e) := by
  cases found : l.client? e.descriptor with
  | none =>
    rw [serveClient_of_none found]
    exact r
  | some c =>
    obtain ⟨member, here⟩ := client?_eq_some found
    rcases served : Session.serve h ⟨l.world, c, []⟩ e.flags e.read e.writes with ⟨v, s⟩
    rw [serveClient_eq found served] at alive ⊢
    cases v with
    | keep =>
      have path := Session.path_of_serve served (by simp)
      have same : s.client.descriptor = c.descriptor := Session.Path.descriptor path
      have back : s.client ∈ (l.absorb s).clients := mem_update member same.symm
      rw [settle, ← here, ← same]
      exact (r.absorb member same).updateInterest back _ _
    | tearDown =>
      have path := Session.path_of_serve served (by simp)
      have same : s.client.descriptor = c.descriptor := Session.Path.descriptor path
      exact (r.absorb member same).tearDown _ _
    | crash => cases alive

theorem sockets_resume (l : EventLoop τ ω) (resumed : Bool) :
    (l.resume resumed).listener = l.listener ∧ (l.resume resumed).waker = l.waker := by
  rw [EventLoop.resume]
  split <;> exact ⟨rfl, rfl⟩

theorem sockets_tearDown (h : Handler τ ω) (l : EventLoop τ ω) (d : Descriptor) (resumed : Bool) :
    (l.tearDown h d resumed).listener = l.listener ∧
      (l.tearDown h d resumed).waker = l.waker := by
  rw [EventLoop.tearDown]
  split
  · exact ⟨rfl, rfl⟩
  · exact sockets_resume _ resumed

theorem Move.sockets (move : Move h l m) : m.listener = l.listener ∧ m.waker = l.waker := by
  cases move with
  | @register d setUp watched =>
    rw [EventLoop.register]
    dsimp only
    split
    · cases h.opened l.world (l.newcomer h d) <;> exact ⟨rfl, rfl⟩
    · exact ⟨rfl, rfl⟩
  | pause paused =>
    rw [EventLoop.pause]
    split <;> exact ⟨rfl, rfl⟩
  | resume resumed => exact sockets_resume l resumed
  | serve e =>
    cases found : l.client? e.descriptor with
    | none =>
      rw [serveClient_of_none found]
      exact ⟨rfl, rfl⟩
    | some c =>
      rcases served : Session.serve h ⟨l.world, c, []⟩ e.flags e.read e.writes with ⟨v, s⟩
      rw [serveClient_eq found served]
      cases v with
      | keep =>
        rw [settle, updateInterest]
        split <;> exact ⟨rfl, rfl⟩
      | tearDown => exact sockets_tearDown h (l.absorb s) _ _
      | crash => exact ⟨rfl, rfl⟩
  | tearDown d resumed => exact sockets_tearDown h l d resumed

theorem Moves.sockets (moves : Moves h l m) : m.listener = l.listener ∧ m.waker = l.waker := by
  induction moves with
  | refl => exact ⟨rfl, rfl⟩
  | tail _ move ih => exact ⟨move.sockets.1.trans ih.1, move.sockets.2.trans ih.2⟩

theorem Move.registered (r : Registered l) (o : Orderly l) (move : Move h l m)
    (alive : m.crashed = false) : Registered m := by
  cases move with
  | register setUp watched _ free => exact r.register o free alive
  | pause paused => exact r.pause paused
  | resume resumed => exact r.resume resumed
  | serve e => exact r.serveClient alive
  | tearDown d resumed => exact r.tearDown d resumed

theorem Moves.registered (r : Registered l) (o : Orderly l) (moves : Moves h l m)
    (alive : m.crashed = false) : Registered m := by
  induction moves with
  | refl => exact r
  | tail moves move ih =>
    have before := move.alive alive
    exact move.registered (ih before) (Moves.orderly o moves before) alive

theorem Registered.watches_iff (r : Registered l) (apart : l.waker ≠ l.listener)
    (d : Descriptor) :
    l.poller.watches d = true ↔
      d = l.waker ∨ (d = l.listener ∧ l.acceptPaused = false) ∨
        ∃ c ∈ l.clients, c.descriptor = d := by
  rw [Poller.watches_iff]
  constructor
  · rintro ⟨i, there⟩
    rcases r.known d i there with first | rfl | client
    · exact .inl first
    · rw [r.listener] at there
      cases paused : l.acceptPaused with
      | true => simp [paused] at there
      | false => exact .inr (.inl ⟨rfl, rfl⟩)
    · exact .inr (.inr client)
  · rintro (rfl | ⟨rfl, going⟩ | ⟨c, hc, rfl⟩)
    · exact ⟨_, r.waker apart⟩
    · exact ⟨{}, by rw [r.listener, going]; rfl⟩
    · exact ⟨_, r.watched.interest c hc⟩

/-- Whatever the poller fails to do, between two events it watches the waker, the listening socket
unless accepting is paused, and each client of the table, for the room to write just if the client
is armed. -/
theorem registrations_wait (listener waker : Descriptor) (inputCapacity outputCapacity : Nat)
    (world : ω) (apart : waker ≠ listener)
    (fresh : EachAccepted h Free (create listener waker inputCapacity outputCapacity world) waits)
    (clearing : Clearing) :
    let start : EventLoop τ ω := create listener waker inputCapacity outputCapacity world
    let m := start.wait h waits
    let k := start.run h waits clearing
    (m.crashed = false →
      (m.poller.watched.map Prod.fst).Nodup ∧
      (∀ d, m.poller.watches d = true ↔
        d = waker ∨ (d = listener ∧ m.acceptPaused = false) ∨ ∃ c ∈ m.clients, c.descriptor = d) ∧
      (∀ d ∈ m.writeArmed, ∃ c ∈ m.clients, c.descriptor = d) ∧
      ∀ c ∈ m.clients, ∃ i, m.poller.interest? c.descriptor = some i ∧
        (i.write = true ↔ c.descriptor ∈ m.writeArmed) ∧ i.read = true ∧ i.peerClosed = true) ∧
    (k.crashed = false → ∀ d, k.poller.watches d = true ↔
      d = waker ∨ (d = listener ∧ k.acceptPaused = false)) := by
  intro start m k
  have begins : start.Begins := begins_create listener waker inputCapacity outputCapacity world
  have first : Registered start :=
    registered_create listener waker inputCapacity outputCapacity world
  refine ⟨?_, ?_⟩
  · intro alive
    have moves : Moves h start m := moves_wait fresh
    have r : Registered m := Moves.registered first begins.orderly moves alive
    obtain ⟨hl, hw⟩ := Moves.sockets moves
    refine ⟨r.once, ?_, r.watched.armed, ?_⟩
    · intro d
      rw [r.watches_iff (hl ▸ hw ▸ apart), hl, hw]
      rfl
    · intro c hc
      refine ⟨_, r.watched.interest c hc, ?_, rfl, rfl⟩
      exact List.contains_iff_mem
  · intro alive d
    have moves : Moves h start k := moves_run fresh clearing
    have r : Registered k := Moves.registered first begins.orderly moves alive
    obtain ⟨hl, hw⟩ := Moves.sockets moves
    have none : k.clients = [] := clients_run h start waits clearing
    rw [r.watches_iff (hl ▸ hw ▸ apart), hl, hw, none]
    simp [start, create]

/-- One connection cannot be watched and no descriptor is left for another; then a client cannot be
watched for room to write, and the listening socket not again. -/
theorem registrations_wait_failing :
    let waits : List Wait :=
      [.events
        [{ descriptor := 3
           accepts := [.connection 6 true true, .connection 7 true true, .connection 8 true false,
            .connection 9 true true, .exhausted true] },
          { descriptor := 7, flags := { readable := true }, read := .bytes [1],
            writes := [.fault .wouldBlock], control := { modify := false } },
          { descriptor := 9, flags := { readable := true }, read := .bytes [1],
            writes := [.fault .wouldBlock] }],
        .events
          [{ descriptor := 6, flags := { readable := true }, read := .bytes [],
             control := { resume := false } }]]
    let start : EventLoop Unit Unit := create 3 5 4 4 ()
    let m := start.wait sixthGreeter waits
    m.poller.watched = [(5, {}), (7, .client false), (9, .client true)] ∧
      m.clients.map Client.queued = [[2], [2]] ∧ m.acceptPaused = true ∧ m.writeArmed = [9] ∧
      (∀ d, m.poller.watches d = true ↔
        d = 5 ∨ (d = 3 ∧ m.acceptPaused = false) ∨ ∃ c ∈ m.clients, c.descriptor = d) ∧
      ∀ c ∈ m.clients, ∃ i, m.poller.interest? c.descriptor = some i ∧
        (i.write = true ↔ c.descriptor ∈ m.writeArmed) ∧ i.read = true ∧ i.peerClosed = true := by
  intro waits start m
  have fresh : EachAccepted sixthGreeter Free start waits := by decide +kernel
  have alive : m.crashed = false := by decide +kernel
  obtain ⟨agree, -⟩ := registrations_wait 3 5 4 4 () (by decide) fresh {}
  obtain ⟨-, exactly, -, interests⟩ := agree alive
  exact ⟨by decide +kernel, by decide +kernel, by decide +kernel, by decide +kernel, exactly,
    interests⟩

end EventLoop

end RenderBroker
