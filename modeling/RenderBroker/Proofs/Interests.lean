import RenderBroker.Proofs.Marks

namespace RenderBroker

variable {τ ω : Type} {h : Handler τ ω}

open Occurrence

namespace EventLoop

variable {l m : EventLoop τ ω} {waits : List Wait}

abbrev Armed (l : EventLoop τ ω) (c : Client τ) : Prop :=
  c.descriptor ∈ l.writeArmed

/-- The poller and the table agree, also when the poller did not do what it was told. -/
structure Watched (l : EventLoop τ ω) : Prop where
  interest : ∀ c ∈ l.clients,
    l.poller.interest? c.descriptor = some (.client (l.writeArmed.contains c.descriptor))
  armed : ∀ d ∈ l.writeArmed, ∃ c ∈ l.clients, c.descriptor = d
  apart : ∀ c ∈ l.clients, c.descriptor ≠ l.listener

/-- Nothing has happened to the client since it was opened. -/
def Untouched (l : EventLoop τ ω) (c : Client τ) : Prop :=
  ∃ before w, own c.serial l.history = [.opened before ⟨w, c⟩]

/-- The client is watched for room to write just if output waits, unless nothing has happened to it
since it was opened. -/
structure Attends (l : EventLoop τ ω) (c : Client τ) : Prop where
  armed : l.Armed c → c.hasQueued = true
  queued : c.hasQueued = true → l.Armed c ∨ l.Untouched c

theorem watched_of_deserted (clients : l.clients = []) (unarmed : l.writeArmed = []) :
    Watched l :=
  ⟨by simp [clients], by simp [unarmed], by simp [clients]⟩

theorem Attends.congr {c : Client τ} (a : l.Attends c) (armed : m.Armed c ↔ l.Armed c)
    (same : own c.serial m.history = own c.serial l.history) : m.Attends c := by
  constructor
  · intro watched
    exact a.armed (armed.mp watched)
  · intro queued
    rcases a.queued queued with watched | untouched
    · exact .inl (armed.mpr watched)
    · exact .inr (by rwa [Untouched, same])

theorem Watched.pause (w : Watched l) (paused : Bool) : Watched (l.pause paused) := by
  rw [EventLoop.pause]
  split
  · exact w
  · refine ⟨?_, w.armed, w.apart⟩
    intro c hc
    rw [Poller.interest?_remove, if_neg (w.apart c hc)]
    exact w.interest c hc

theorem Watched.resume (w : Watched l) (resumed : Bool) : Watched (l.resume resumed) := by
  rw [EventLoop.resume]
  split
  · refine ⟨?_, w.armed, w.apart⟩
    intro c hc
    rw [Poller.interest?_add, if_neg (w.apart c hc)]
    exact w.interest c hc
  · exact w

theorem writeArmed_pause (l : EventLoop τ ω) (paused : Bool) :
    (l.pause paused).writeArmed = l.writeArmed := by
  rw [EventLoop.pause]
  split <;> rfl

theorem writeArmed_resume (l : EventLoop τ ω) (resumed : Bool) :
    (l.resume resumed).writeArmed = l.writeArmed := by
  rw [EventLoop.resume]
  split <;> rfl

theorem attends_of_alike (alike : Alike l m) (armed : m.writeArmed = l.writeArmed)
    (all : ∀ c ∈ l.clients, l.Attends c) : ∀ c ∈ m.clients, m.Attends c := by
  intro c hc
  rw [alike.clients] at hc
  exact (all c hc).congr (by rw [Armed, armed]) (by rw [alike.history])

theorem Watched.not_armed (w : Watched l) (o : Orderly l) {d : Descriptor} (free : l.Free d) :
    d ∉ l.writeArmed := by
  intro armed
  obtain ⟨c, hc, same⟩ := w.armed d armed
  exact o.not_taken free c hc same

theorem Watched.register (w : Watched l) (o : Orderly l) {d : Descriptor} (free : l.Free d)
    (setUp watched : Bool) : Watched (l.register h d setUp watched) := by
  rw [o.register_eq free]
  split
  · cases asked : h.opened l.world (l.newcomer h d) with
    | none => exact watched_of_deserted rfl rfl
    | some r =>
      constructor
      · intro c hc
        rw [Poller.interest?_add]
        rcases List.mem_append.mp hc with hc | hc
        · rw [if_neg (o.not_taken free c hc)]
          exact w.interest c hc
        · have here : c.descriptor = d := by
            rw [List.mem_singleton.mp hc]
            rfl
          have unarmed : l.writeArmed.contains d = false := by simpa using w.not_armed o free
          rw [here, if_pos rfl]
          exact congrArg (fun armed => some (Interest.client armed)) unarmed.symm
      · intro e he
        obtain ⟨c, hc, same⟩ := w.armed e he
        exact ⟨c, List.mem_append_left _ hc, same⟩
      · intro c hc
        rcases List.mem_append.mp hc with hc | hc
        · exact w.apart c hc
        · rw [List.mem_singleton.mp hc]
          exact free.1
  · exact ⟨w.interest, w.armed, w.apart⟩

theorem attends_register (o : Orderly l) (w : Watched l) (all : ∀ c ∈ l.clients, l.Attends c)
    {d : Descriptor} (free : l.Free d) (setUp watched : Bool) :
    ∀ c ∈ (l.register h d setUp watched).clients, (l.register h d setUp watched).Attends c := by
  have other {c : Client τ} (hc : c ∈ l.clients) : l.nextSerial ≠ c.serial :=
    (Nat.ne_of_lt (o.known c hc)).symm
  rw [o.register_eq free]
  intro c hc
  split at hc
  · next taken =>
    rw [if_pos taken]
    cases asked : h.opened l.world (l.newcomer h d) with
    | none =>
      rw [asked] at hc
      cases hc
    | some r =>
      rw [asked] at hc
      rcases List.mem_append.mp hc with hc | hc
      · exact (all c hc).congr .rfl (own_cons_other _ (other hc))
      · -- the newcomer is not watched for room to write, whatever its callback has queued
        have first : own l.nextSerial l.history = [] := own_eq_nil o.noted_ne
        rw [List.mem_singleton.mp hc]
        refine ⟨fun armed => absurd armed (w.not_armed o free), fun _ => .inr ?_⟩
        exact ⟨_, _, (own_cons_same _ rfl).trans (congrArg _ first)⟩
  · next dropped =>
    rw [if_neg dropped]
    exact (all c hc).congr .rfl (own_cons_other _ (other hc))

theorem Watched.absorb (w : Watched l) {c : Client τ} {s : Session τ ω} (member : c ∈ l.clients)
    (same : s.client.descriptor = c.descriptor) : Watched (l.absorb s) := by
  constructor
  · intro b hb
    rcases of_mem_update hb with rfl | ⟨hb, -⟩
    · rw [same]
      exact w.interest c member
    · exact w.interest b hb
  · intro d hd
    obtain ⟨b, hb, rfl⟩ := w.armed d hd
    by_cases this : b.descriptor = s.client.descriptor
    · exact ⟨s.client, mem_update hb this, this.symm⟩
    · exact ⟨b, mem_update_of_ne hb this, rfl⟩
  · intro b hb
    rcases of_mem_update hb with rfl | ⟨hb, -⟩
    · rw [same]
      exact w.apart c member
    · exact w.apart b hb

theorem Watched.updateInterest (w : Watched l) {c : Client τ} (member : c ∈ l.clients)
    (wanted modified : Bool) : Watched (l.updateInterest c.descriptor wanted modified) := by
  rw [EventLoop.updateInterest]
  split
  · exact w
  · refine ⟨?_, ?_, w.apart⟩
    · intro b hb
      rw [Poller.interest?_modify, w.interest c member]
      by_cases same : b.descriptor = c.descriptor
      · rw [if_pos same, same]
        cases wanted <;> simp
      · rw [if_neg same, w.interest b hb]
        cases wanted <;> simp [same]
    · intro d hd
      cases wanted with
      | true =>
        rcases List.mem_cons.mp hd with rfl | hd
        · exact ⟨c, member, rfl⟩
        · exact w.armed d hd
      | false => exact w.armed d (List.mem_filter.mp hd).1

theorem Watched.tearDown (w : Watched l) (d : Descriptor) (resumed : Bool) :
    Watched (l.tearDown h d resumed) := by
  cases found : l.client? d with
  | none =>
    rw [EventLoop.tearDown]
    rw [found]
    exact w
  | some c =>
    obtain ⟨member, rfl⟩ := client?_eq_some found
    rw [tearDown_eq found]
    apply Watched.resume
    constructor
    · intro b hb
      obtain ⟨hb, other⟩ := mem_erase.mp hb
      rw [Poller.interest?_remove, if_neg other, w.interest b hb]
      simp [other]
    · intro d hd
      obtain ⟨hd, other⟩ := List.mem_filter.mp hd
      obtain ⟨b, hb, rfl⟩ := w.armed d hd
      exact ⟨b, mem_erase.mpr ⟨hb, by simpa using other⟩, rfl⟩
    · intro b hb
      exact w.apart b (mem_erase.mp hb).1

theorem watched_serveClient (w : Watched l) (e : Event) : Watched (l.serveClient h e) := by
  cases found : l.client? e.descriptor with
  | none => rwa [serveClient_of_none found]
  | some c =>
    obtain ⟨member, hd⟩ := client?_eq_some found
    rcases served : Session.serve h ⟨l.world, c, []⟩ e.flags e.read e.writes with ⟨v, s⟩
    rw [serveClient_eq found served]
    cases v with
    | keep =>
      have path := Session.path_of_serve served (by simp)
      have same : s.client.descriptor = c.descriptor := Session.Path.descriptor path
      have here : s.client ∈ (l.absorb s).clients := mem_update member same.symm
      rw [settle, ← hd, ← same]
      exact (w.absorb member same).updateInterest here _ _
    | tearDown =>
      have path := Session.path_of_serve served (by simp)
      have same : s.client.descriptor = c.descriptor := Session.Path.descriptor path
      exact (w.absorb member same).tearDown _ _
    | crash => exact watched_of_deserted rfl rfl

theorem armed_updateInterest (l : EventLoop τ ω) (d e : Descriptor) (wanted : Bool) :
    e ∈ (l.updateInterest d wanted true).writeArmed ↔
      if e = d then wanted = true else e ∈ l.writeArmed := by
  rw [EventLoop.updateInterest]
  split
  · next same =>
    split
    · next here =>
      have same : wanted = l.writeArmed.contains d := by simpa using same
      rw [same, here, List.contains_iff_mem]
    · exact .rfl
  · cases wanted with
    | true => by_cases here : e = d <;> simp [here]
    | false => by_cases here : e = d <;> simp [here]

theorem armed_tearDown {c : Client τ} {d e : Descriptor} (found : l.client? d = some c)
    (resumed : Bool) :
    e ∈ (l.tearDown h d resumed).writeArmed ↔ e ≠ d ∧ e ∈ l.writeArmed := by
  rw [tearDown_eq found, writeArmed_resume]
  simp [and_comm]

theorem Orderly.own_others (o : Orderly l) {b c : Client τ} (hb : b ∈ l.clients)
    (hc : c ∈ l.clients) (other : b.descriptor ≠ c.descriptor) {os : List (Occurrence τ ω)}
    (noted : ∀ p ∈ os, p.serial = c.serial) :
    own b.serial (os ++ l.history) = own b.serial l.history := by
  have serial : b.serial ≠ c.serial := mt (o.same_iff hb hc).mpr other
  exact own_append_other _ fun p hp => noted p hp ▸ serial.symm

theorem attends_serveClient (o : Orderly l) (all : ∀ c ∈ l.clients, l.Attends c) {e : Event}
    (told : e.control.modify = true) :
    ∀ c ∈ (l.serveClient h e).clients, (l.serveClient h e).Attends c := by
  cases found : l.client? e.descriptor with
  | none => rwa [serveClient_of_none found]
  | some c =>
    obtain ⟨member, hd⟩ := client?_eq_some found
    rcases served : Session.serve h ⟨l.world, c, []⟩ e.flags e.read e.writes with ⟨v, s⟩
    rw [serveClient_eq found served]
    intro b hb
    cases v with
    | keep =>
      have path := Session.path_of_serve served (by simp)
      have noted := Session.Path.own path rfl
      have same : s.client.descriptor = c.descriptor := Session.Path.descriptor path
      have alike := alike_updateInterest (l.absorb s) e.descriptor s.client.hasQueued true
      have armed := (l.absorb s).armed_updateInterest e.descriptor b.descriptor s.client.hasQueued
      rw [settle, told] at hb ⊢
      rw [alike.clients] at hb
      rcases of_mem_update hb with rfl | ⟨hb, other⟩
      · rw [if_pos (same.trans hd)] at armed
        exact ⟨armed.mp, fun queued => .inl (armed.mpr queued)⟩
      · rw [same] at other
        rw [if_neg (hd ▸ other)] at armed
        apply (all b hb).congr armed
        rw [alike.history]
        exact o.own_others hb member other noted
    | tearDown =>
      have path := Session.path_of_serve served (by simp)
      have noted := Session.Path.own path rfl
      have same : s.client.descriptor = e.descriptor := (Session.Path.descriptor path).trans hd
      have here := client?_absorb found same
      rw [settle] at hb ⊢
      rw [clients_tearDown] at hb
      obtain ⟨hb, other⟩ := mem_erase.mp hb
      have hb := ((of_mem_update hb).resolve_left fun this => other (this ▸ same)).1
      apply (all b hb).congr ((armed_tearDown here _).trans (and_iff_right other))
      rw [(alike_tearDown here e.control.resume).history]
      change own b.serial ((_ :: s.history) ++ l.history) = _
      apply o.own_others hb member (hd ▸ other)
      exact List.forall_mem_cons.mpr ⟨Session.Path.serial path, noted⟩
    | crash => cases hb

structure Vigilant (l : EventLoop τ ω) : Prop where
  watched : Watched l
  attends : ∀ c ∈ l.clients, l.Attends c

theorem vigilant_of_deserted (clients : l.clients = []) (unarmed : l.writeArmed = []) :
    Vigilant l :=
  ⟨watched_of_deserted clients unarmed, by simp [clients]⟩

theorem keeps_vigilant (h : Handler τ ω) (o : Orderly l) :
    Keeps h (fun e => e.control.modify = true) fun m => Moves h l m ∧ Vigilant m where
  register setUp watched kept alive free := by
    obtain ⟨moves, w, all⟩ := kept
    have o := Moves.orderly o moves alive
    exact ⟨.tail moves (.register setUp watched alive free), w.register o free setUp watched,
      attends_register o w all free setUp watched⟩
  pause paused kept := by
    obtain ⟨moves, w, all⟩ := kept
    exact ⟨.tail moves (.pause paused), w.pause paused,
      attends_of_alike (alike_pause _ paused) (writeArmed_pause _ paused) all⟩
  resume resumed kept := by
    obtain ⟨moves, w, all⟩ := kept
    exact ⟨.tail moves (.resume resumed), w.resume resumed,
      attends_of_alike (alike_resume _ resumed) (writeArmed_resume _ resumed) all⟩
  serve told kept alive := by
    obtain ⟨moves, w, all⟩ := kept
    have o := Moves.orderly o moves alive
    exact ⟨.tail moves (.serve _ alive), watched_serveClient w _, attends_serveClient o all told⟩

/-- A waiting loop asks for the room to write of a client just if output of the client waits, unless
it was only opened so far: what its opening has queued is left until the peer does something. -/
theorem interest_wait (listener waker : Descriptor) (inputCapacity outputCapacity : Nat) (world : ω)
    (fresh : EachAccepted h Free (create listener waker inputCapacity outputCapacity world) waits)
    (told : EachEvent (fun e => e.control.modify = true) waits) :
    let m := (create listener waker inputCapacity outputCapacity world).wait h waits
    (∀ c ∈ m.clients, ∃ i, m.poller.interest? c.descriptor = some i ∧
      (i.write = true → c.queued ≠ []) ∧
      (c.queued ≠ [] → i.write = true ∨
        ∃ before w, own c.serial m.history = [.opened before ⟨w, c⟩])) ∧
    ((∀ before after, .opened before after ∈ m.history → after.client.queued = []) →
      ∀ c ∈ m.clients, ∃ i, m.poller.interest? c.descriptor = some i ∧
        (i.write = true ↔ c.queued ≠ [])) := by
  intro m
  have begins := begins_create (τ := τ) listener waker inputCapacity outputCapacity world
  obtain ⟨-, watched, attends⟩ : Moves h _ m ∧ Vigilant m :=
    (keeps_vigilant h begins.orderly).wait told fresh
      ⟨.refl, vigilant_of_deserted begins.clients rfl⟩
  have each {c : Client τ} (member : c ∈ m.clients) :
      ∃ i, m.poller.interest? c.descriptor = some i ∧ (i.write = true → c.queued ≠ []) ∧
        (c.queued ≠ [] → i.write = true ∨ m.Untouched c) := by
    obtain ⟨armed, queued⟩ := attends c member
    rw [c.hasQueued_iff] at armed queued
    refine ⟨_, watched.interest c member, ?_, ?_⟩
    · simpa [Interest.client] using armed
    · simpa [Interest.client] using queued
  refine ⟨fun c member => each member, ?_⟩
  intro silent c member
  obtain ⟨i, interest, armed, queued⟩ := each member
  refine ⟨i, interest, armed, ?_⟩
  intro waits
  apply (queued waits).resolve_right
  rintro ⟨before, w, opened⟩
  have noted : .opened before ⟨w, c⟩ ∈ own c.serial m.history := by simp [opened]
  exact waits (silent before ⟨w, c⟩ (mem_own.mp noted).1)

def sixthGreeter : Handler Unit Unit where
  blank := ()
  opened w c :=
    match c.createStreams with
    | .ok b => some (w, if c.descriptor = 6 then b.reply [1] else b)
    | .error _ => none
  request w c := (.idle, w, c.reply [2])
  closed w _ := w
  backlog _ _ := 0
  backlog_lt asked := by cases asked

/-- Output waits for both clients, but the loop only asks for the room to write of the second, which
was served. -/
theorem interest_wait_greeted :
    let waits : List Wait :=
      [.events
        [{ descriptor := 3, accepts := [.connection 6 true true, .connection 7 true true] },
          { descriptor := 7, flags := { readable := true }, read := .bytes [1],
            writes := [.fault .wouldBlock] }]]
    let m := (create 3 5 4 4 ()).wait sixthGreeter waits
    m.clients.map Client.queued = [[1], [2]] ∧
      m.clients.map (fun c => m.poller.interest? c.descriptor) =
        [some (.client false), some (.client true)] ∧
      ∀ c ∈ m.clients, ∃ i, m.poller.interest? c.descriptor = some i ∧
        (i.write = true → c.queued ≠ []) ∧
        (c.queued ≠ [] → i.write = true ∨
          ∃ before w, own c.serial m.history = [.opened before ⟨w, c⟩]) := by
  intro waits m
  have fresh : EachAccepted sixthGreeter Free (create 3 5 4 4 ()) waits := by decide +kernel
  have told : EachEvent (fun e => e.control.modify = true) waits := by simp [EachEvent, waits]
  obtain ⟨asks, -⟩ := interest_wait 3 5 4 4 () fresh told
  exact ⟨by decide +kernel, by decide +kernel, asks⟩

end EventLoop

end RenderBroker
