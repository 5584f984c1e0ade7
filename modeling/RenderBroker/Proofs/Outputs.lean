import RenderBroker.Proofs.Marks

namespace RenderBroker

variable {τ ω : Type} {h : Handler τ ω}

namespace Occurrence

/-- The bytes that a callback queued. -/
def replied : Occurrence τ ω → List UInt8
  | .opened before after | .requested _ before after =>
    after.client.queued.drop before.client.queued.length
  | _ => []

/-- The bytes that the socket took. -/
def taken : Occurrence τ ω → List UInt8
  | .flushed _ f => f.taken
  | _ => []

def found? : Occurrence τ ω → Option (Client τ)
  | .opened before _ | .requested _ before _ | .closed before _ => some before.client
  | .abandoned c => some c
  | .declined _ _ | .read _ _ _ | .flushed _ _ => none

def replies (os : List (Occurrence τ ω)) : List UInt8 :=
  os.reverse.flatMap replied

def sent (os : List (Occurrence τ ω)) : List UInt8 :=
  os.reverse.flatMap taken

theorem replies_cons (o : Occurrence τ ω) (os : List (Occurrence τ ω)) :
    replies (o :: os) = replies os ++ o.replied := by
  simp [replies]

theorem sent_cons (o : Occurrence τ ω) (os : List (Occurrence τ ω)) :
    sent (o :: os) = sent os ++ o.taken := by
  simp [sent]

end Occurrence

open Occurrence

/-- The bytes that were sent and those that wait are the bytes that were queued. -/
def Conserved (c : Client τ) (os : List (Occurrence τ ω)) : Prop :=
  sent os ++ c.queued = replies os

/-- What was sent is what was queued first, and whenever a client was found, what was sent and what
waited were all that had been queued. -/
structure Delivered (os : List (Occurrence τ ω)) : Prop where
  ahead : sent os <+: replies os
  found : ∀ o c earlier, o :: earlier <:+ os → o.found? = some c → Conserved c earlier

structure Forwarded (c : Client τ) (os : List (Occurrence τ ω)) : Prop where
  conserved : Conserved c os
  delivered : Delivered os

variable {b c : Client τ} {o : Occurrence τ ω} {os : List (Occurrence τ ω)}

theorem Delivered.nil : Delivered ([] : List (Occurrence τ ω)) :=
  ⟨List.prefix_rfl, fun _ _ _ part => (nomatch List.suffix_nil.mp part)⟩

theorem Delivered.cons (delivered : Delivered os) (ahead : sent (o :: os) <+: replies (o :: os))
    (found : ∀ c, o.found? = some c → Conserved c os) : Delivered (o :: os) := by
  refine ⟨ahead, ?_⟩
  intro p c earlier part there
  rcases List.suffix_cons_iff.mp part with same | part
  · cases same
    exact found c there
  · exact delivered.found p c earlier part there

theorem Delivered.cons_silent (delivered : Delivered os) (replied : o.replied = [])
    (taken : o.taken = []) (found : ∀ c, o.found? = some c → Conserved c os) :
    Delivered (o :: os) := by
  apply delivered.cons _ found
  rw [sent_cons, replies_cons, replied, taken, List.append_nil, List.append_nil]
  exact delivered.ahead

theorem Forwarded.cons (f : Forwarded c os) (found : ∀ a, o.found? = some a → a = c)
    (conserved : Conserved b (o :: os)) : Forwarded b (o :: os) := by
  refine ⟨conserved, f.delivered.cons ⟨b.queued, conserved⟩ ?_⟩
  intro a there
  rw [found a there]
  exact f.conserved

/-- Every callback leaves the bytes that wait in place, and queues others behind them. -/
structure Handler.Appends (h : Handler τ ω) : Prop where
  opened : ∀ {w c w' back}, h.opened w c = some (w', back) → c.queued <+: back.queued
  request : ∀ {w c e w' back}, h.request w c = (e, w', back) → c.queued <+: back.queued

theorem Conserved.reply (conserved : Conserved c os) (queued : c.queued <+: b.queued)
    (silent : o.taken = []) (replied : o.replied = b.queued.drop c.queued.length) :
    Conserved b (o :: os) := by
  obtain ⟨bytes, more⟩ := queued
  have new : o.replied = bytes := by rw [replied, ← more, List.drop_left]
  rw [Conserved, sent_cons, replies_cons, silent, new, List.append_nil, ← more, ← List.append_assoc,
    conserved]

theorem Conserved.flush (conserved : Conserved c os) (plan : List WriteOutcome) (n : Nat) :
    Conserved (c.flush plan).2 (.flushed n (c.flush plan).1 :: os) := by
  calc
    sent (.flushed n (c.flush plan).1 :: os) ++ (c.flush plan).2.queued
      = sent os ++ ((c.flush plan).1.taken ++ (c.flush plan).2.queued) := by
        rw [sent_cons, List.append_assoc]
        rfl
    _ = sent os ++ c.queued := by
        rw [c.fst_flush, c.queued_flush, OutputStream.taken_append_left]
    _ = replies (.flushed n (c.flush plan).1 :: os) := by
        rw [conserved, replies_cons]
        exact (List.append_nil _).symm

theorem Client.queued_of_createStreams {a b : Client τ} (created : a.createStreams = .ok b) :
    b.queued = a.queued := by
  obtain ⟨_, _, -, second, rfl⟩ := of_createStreams created
  rw [orCreate] at second
  split at second
  · next absent =>
    cases new : OutputStream.create a.outputCapacity with
    | error breach =>
      rw [new] at second
      cases second
    | ok s =>
      rw [new] at second
      cases second
      have none : a.output = none := by simpa using absent.1
      rw [queued, queued, none]
      exact OutputStream.queued_of_create new
  · cases second
    rfl

theorem Client.queued_reply (c : Client τ) (bytes : List UInt8) :
    c.queued <+: (c.reply bytes).queued := by
  rw [queued, queued, reply]
  cases c.output with
  | none => exact List.prefix_rfl
  | some s => exact ⟨bytes, (s.queued_write bytes).symm⟩

theorem Script.queued_perform (w : ScriptLog) (c : ScriptClient) (frame : List UInt8)
    (a : ScriptAction) : c.queued <+: (perform w c frame a).2.2.queued := by
  cases a with
  | proceed | pause | kill | fail => exact List.prefix_rfl
  | echo | echoKill | echoFail => exact c.queued_reply frame
  | count => exact c.queued_reply [UInt8.ofNat c.tag.length]
  | reply size => exact c.queued_reply (List.replicate size replyByte)
  | resize size =>
    have kept : (resizeInput c size).2.output = c.output := by
      rw [resizeInput]
      split
      · rfl
      · split <;> rfl
    have same : (resizeInput c size).2.queued = c.queued := by
      rw [Client.queued, kept, Client.queued]
    exact ⟨[], (List.append_nil _).trans same.symm⟩

theorem Script.appends (k : Script) : k.handler.Appends := by
  constructor
  · intro w c w' back asked
    change k.opened w c = _ at asked
    rw [Script.opened] at asked
    cases streams : k.streams with
    | false =>
      rw [streams] at asked
      cases asked
      exact List.prefix_rfl
    | true =>
      cases created : c.createStreams with
      | error breach =>
        rw [streams, if_pos rfl, created] at asked
        cases asked
      | ok b =>
        rw [streams, if_pos rfl, created] at asked
        cases asked
        exact ⟨[], (List.append_nil _).trans (Client.queued_of_createStreams created).symm⟩
  · intro w c e w' back asked
    change k.request w c = _ at asked
    rw [Script.request] at asked
    split at asked
    · cases asked
      exact List.prefix_rfl
    · split at asked
      · cases asked
        exact List.prefix_rfl
      · next s _ _ frame t _ =>
        have more := queued_perform (note w c (.request frame t.available t.capacity))
          (seen c t frame) frame (k.action (frame.headD 0))
        rw [asked] at more
        exact more

namespace Session

variable {s t : Session τ ω} {flags : Readiness} {r : ReadOutcome} {plan : List WriteOutcome}
  {v : Verdict}

theorem forwarded_requested (appends : h.Appends) {e : RequestEnd} {w : ω} {back : Client τ}
    (asked : h.request s.world s.client = (e, w, back))
    (f : Forwarded s.client (s.history ++ os)) :
    Forwarded (s.requested e w back).client ((s.requested e w back).history ++ os) := by
  have queued : s.client.queued <+: back.queued := appends.request asked
  apply f.cons
  · intro a there
    exact (Option.some.inj there).symm
  · exact f.conserved.reply queued rfl rfl

theorem Step.forwarded (appends : h.Appends) (step : Step h s t)
    (f : Forwarded s.client (s.history ++ os)) : Forwarded t.client (t.history ++ os) := by
  cases step with
  | read r =>
    apply f.cons
    · intro a there
      cases there
    · exact f.conserved.reply (by simp [heard, note]) rfl (by simp [heard, note, replied])
  | request unmarked asked calm => exact forwarded_requested appends asked f
  | flush plan =>
    apply f.cons
    · intro a there
      cases there
    · exact f.conserved.flush plan _

theorem Path.forwarded (appends : h.Appends) (path : Path h s t)
    (f : Forwarded s.client (s.history ++ os)) : Forwarded t.client (t.history ++ os) := by
  induction path with
  | refl => exact f
  | tail _ step ih => exact step.forwarded appends ih

theorem forwarded_serve (appends : h.Appends) (served : s.serve h flags r plan = (v, t))
    (f : Forwarded s.client (s.history ++ os)) : Forwarded t.client (t.history ++ os) := by
  cases v with
  | keep => exact Path.forwarded appends (path_of_serve served (by simp)) f
  | tearDown => exact Path.forwarded appends (path_of_serve served (by simp)) f
  | crash =>
    obtain ⟨u, w, back, path, -, asked, rfl⟩ := panicked_of_crash served
    exact forwarded_requested appends asked (Path.forwarded appends path f)

theorem blocked_of_finish (finished : s.finish plan = (.keep, t)) (waits : t.client.queued ≠ []) :
    t = s.wrote plan ∧ (OutputStream.offer s.client.queued plan).ending = .blocked := by
  have same {u : Session τ ω}
      (ended : (if u.client.killed then Verdict.tearDown else .keep, u) = (.keep, t)) : u = t :=
    congrArg Prod.snd ended
  rw [finish, flush_eq] at finished
  by_cases queued : s.client.hasQueued = true
  · rw [if_pos queued, s.client.fst_flush] at finished
    cases ending : (OutputStream.offer s.client.queued plan).ending with
    | done =>
      rw [ending] at finished
      obtain rfl := same finished
      have nothing : (s.wrote plan).client.queued = [] :=
        (s.client.queued_flush plan).trans (OutputStream.left_of_done ending)
      exact absurd nothing waits
    | blocked =>
      rw [ending] at finished
      exact ⟨(same finished).symm, rfl⟩
    | failed f =>
      rw [ending] at finished
      cases finished
  · rw [if_neg queued] at finished
    obtain rfl := same finished
    exact absurd (s.client.hasQueued_iff.mpr waits) queued

/-- Of a client that is kept when its socket was ready bytes still wait only if the last thing that
happened was a write that would have blocked. -/
theorem blocked_of_kept (served : s.serve h flags r plan = (.keep, t))
    (ready : flags.readable = true ∨ flags.writable = true) (waits : t.client.queued ≠ []) :
    ∃ u : Session τ ω, t = u.wrote plan ∧
      (OutputStream.offer u.client.queued plan).ending = .blocked := by
  rw [serve] at served
  split at served
  · rcases received : s.receive h r with ⟨v, u⟩
    rw [received] at served
    cases v with
    | keep => exact ⟨u, blocked_of_finish served waits⟩
    | tearDown => cases served
    | crash => cases served
  · next unreadable =>
    rw [if_pos (ready.resolve_left unreadable)] at served
    exact ⟨s, blocked_of_finish served waits⟩

end Session

namespace EventLoop

variable {l m : EventLoop τ ω} {waits : List Wait}

structure Delivers (l : EventLoop τ ω) : Prop where
  inside : ∀ c ∈ l.clients, Conserved c (own c.serial l.history)
  each : ∀ n, Delivered (own n l.history)

theorem Begins.delivers (begins : l.Begins) : Delivers l := by
  constructor
  · simp [begins.clients]
  · intro n
    rw [begins.history]
    exact .nil

theorem Delivers.of_eq (d : Delivers l) (clients : m.clients = l.clients)
    (history : m.history = l.history) : Delivers m := by
  constructor
  · rw [clients, history]
    exact d.inside
  · rw [history]
    exact d.each

theorem Delivers.extend {n : Nat} (d : Delivers l) (history : m.history = os ++ l.history)
    (mine : ∀ o ∈ os, o.serial = n) (delivered : Delivered (os ++ own n l.history))
    (clients : ∀ c ∈ m.clients, c ∈ l.clients ∧ c.serial ≠ n ∨
      c.serial = n ∧ Conserved c (os ++ own n l.history)) : Delivers m := by
  have others {k : Nat} (other : k ≠ n) : own k m.history = own k l.history := by
    rw [history, own_append_other]
    intro o ho
    exact fun same => other (same.symm.trans (mine o ho))
  have same : own n m.history = os ++ own n l.history := by
    rw [history, own_append_same _ mine]
  constructor
  · intro c member
    rcases clients c member with ⟨there, other⟩ | ⟨this, conserved⟩
    · rw [others other]
      exact d.inside c there
    · rwa [this, same]
  · intro k
    by_cases this : k = n
    · rwa [this, same]
    · rw [others this]
      exact d.each k

theorem Delivers.note {p : Occurrence τ ω} (d : Delivers l) (history : m.history = p :: l.history)
    (delivered : Delivered (p :: own p.serial l.history))
    (clients : ∀ c ∈ m.clients, c ∈ l.clients ∧ c.serial ≠ p.serial ∨
      c.serial = p.serial ∧ Conserved c (p :: own p.serial l.history)) : Delivers m := by
  have split : m.history = [p] ++ l.history := history
  apply d.extend split _ delivered clients
  intro o ho
  rw [List.mem_singleton.mp ho]

theorem Delivers.pass (o : Orderly l) (d : Delivers l) {p : Occurrence τ ω}
    (serial : p.serial = l.nextSerial) (replied : p.replied = []) (taken : p.taken = [])
    (found : ∀ c, p.found? = some c → c.queued = []) (clients : m.clients = l.clients)
    (history : m.history = p :: l.history) : Delivers m := by
  have fresh : own p.serial l.history = [] := serial ▸ own_eq_nil o.noted_ne
  apply d.note history
  · rw [fresh]
    apply Delivered.nil.cons_silent replied taken
    intro c there
    simp [Conserved, found c there, sent, replies]
  · intro c member
    rw [clients] at member
    exact .inl ⟨member, serial ▸ Nat.ne_of_lt (o.known c member)⟩

theorem Delivers.enrol (o : Orderly l) (d : Delivers l) (appends : h.Appends) {e : Descriptor}
    {w : ω} {back : Client τ} (asked : h.opened l.world (l.newcomer h e) = some (w, back)) :
    Delivers (l.enrol (l.newcomer h e) w back) := by
  have fresh : own l.nextSerial l.history = [] := own_eq_nil o.noted_ne
  have start : Forwarded (l.newcomer h e) ([] : List (Occurrence τ ω)) := ⟨rfl, .nil⟩
  have queued : (l.newcomer h e).queued <+: back.queued := appends.opened asked
  have now : Forwarded ((l.newcomer h e).returned back)
      (.opened ⟨l.world, l.newcomer h e⟩ ⟨w, (l.newcomer h e).returned back⟩ ::
        own l.nextSerial l.history) := by
    rw [fresh]
    apply start.cons
    · intro a there
      exact (Option.some.inj there).symm
    · exact start.conserved.reply queued rfl rfl
  apply d.note rfl now.delivered
  intro c member
  rcases List.mem_append.mp member with member | member
  · exact .inl ⟨member, Nat.ne_of_lt (o.known c member)⟩
  · rw [List.mem_singleton.mp member]
    exact .inr ⟨rfl, now.conserved⟩

theorem Delivers.absorb (o : Orderly l) (d : Delivers l) {s : Session τ ω} (member : c ∈ l.clients)
    (descriptor : s.client.descriptor = c.descriptor) (serial : s.client.serial = c.serial)
    (mine : ∀ p ∈ s.history, p.serial = c.serial)
    (f : Forwarded s.client (s.history ++ own c.serial l.history)) : Delivers (l.absorb s) := by
  apply d.extend rfl mine f.delivered
  intro b there
  rcases of_mem_update there with rfl | ⟨there, other⟩
  · exact .inr ⟨serial, f.conserved⟩
  · rw [descriptor] at other
    exact .inl ⟨there, mt (o.same_iff there member).mpr other⟩

theorem Delivers.release (o : Orderly l) (d : Delivers l) (member : c ∈ l.clients) :
    Delivers (l.release h c) := by
  apply d.note rfl
  · apply (d.each c.serial).cons_silent rfl rfl
    intro a there
    cases there
    exact d.inside c member
  · intro b there
    obtain ⟨there, other⟩ := mem_erase.mp there
    exact .inl ⟨there, mt (o.same_iff there member).mpr other⟩

theorem Delivers.crash (d : Delivers l) (serials : (l.clients.map Client.serial).Nodup) :
    Delivers l.crash := by
  constructor
  · intro c member
    cases member
  · have each (cs : List (Client τ)) (there : ∀ c ∈ cs, c ∈ l.clients)
        (serials : (cs.map Client.serial).Nodup) (n : Nat) :
        Delivered (own n (cs.map .abandoned ++ l.history)) := by
      induction cs with
      | nil => exact d.each n
      | cons c cs ih =>
        obtain ⟨this, others⟩ := List.forall_mem_cons.mp there
        obtain ⟨once, serials⟩ := List.nodup_cons.mp serials
        have rest := ih others serials
        by_cases same : (Occurrence.abandoned c : Occurrence τ ω).serial = n
        · have before : own n (cs.map .abandoned ++ l.history) = own n l.history := by
            apply own_append_other
            intro p hp again
            obtain ⟨b, hb, rfl⟩ := List.mem_map.mp hp
            exact once (List.mem_map.mpr ⟨b, hb, again.trans same.symm⟩)
          rw [List.map_cons, List.cons_append, own_cons_same _ same]
          apply rest.cons_silent rfl rfl
          intro a there
          cases there
          rw [before, ← same]
          exact d.inside c this
        · rw [List.map_cons, List.cons_append, own_cons_other _ same]
          exact rest
    apply each
    · simp
    · rw [List.map_reverse]
      exact List.nodup_reverse.mpr serials

theorem Delivers.register (o : Orderly l) (d : Delivers l) (appends : h.Appends) {e : Descriptor}
    (free : l.Free e) (setUp watched : Bool) : Delivers (l.register h e setUp watched) := by
  rw [o.register_eq free]
  split
  · cases asked : h.opened l.world (l.newcomer h e) with
    | none =>
      have dropped : Delivers (EventLoop.note { l with nextSerial := l.nextSerial + 1 }
          (.abandoned (l.newcomer h e))) :=
        d.pass o rfl rfl rfl (by simp [found?, Client.queued, EventLoop.newcomer]) rfl rfl
      exact dropped.crash o.serials
    | some r => exact (d.enrol o appends asked).of_eq rfl rfl
  · exact d.pass o (p := .declined l.nextSerial e) rfl rfl rfl (by simp [found?]) rfl rfl

theorem Delivers.serveClient (o : Orderly l) (d : Delivers l) (appends : h.Appends) (e : Event) :
    Delivers (l.serveClient h e) := by
  cases found : l.client? e.descriptor with
  | none => rwa [serveClient_of_none found]
  | some c =>
    obtain ⟨member, here⟩ := client?_eq_some found
    rcases served : Session.serve h ⟨l.world, c, []⟩ e.flags e.read e.writes with ⟨v, s⟩
    have forwarded : Forwarded s.client (s.history ++ own c.serial l.history) :=
      Session.forwarded_serve appends served ⟨d.inside c member, d.each c.serial⟩
    obtain ⟨descriptor, serial, mine⟩ := Session.own_of_serve served rfl
    have absorbed := d.absorb o member descriptor serial mine forwarded
    rw [serveClient_eq found served]
    cases v with
    | keep =>
      have alike := alike_updateInterest (l.absorb s) e.descriptor s.client.hasQueued
        e.control.modify
      exact absorbed.of_eq alike.clients alike.history
    | tearDown =>
      have path := Session.path_of_serve served (by simp)
      have ordered := (o.path_absorb member path).orderly o
      have there : s.client ∈ (l.absorb s).clients := mem_update member descriptor.symm
      have again : (l.absorb s).client? e.descriptor = some s.client :=
        here ▸ descriptor ▸ ordered.client?_eq there
      have alike := alike_tearDown (h := h) again e.control.resume
      exact (absorbed.release ordered there).of_eq alike.clients alike.history
    | crash =>
      apply absorbed.crash
      exact (o.map_update member descriptor _ serial) ▸ o.serials

theorem Move.delivers (appends : h.Appends) (move : Move h l m)
    (ordered : l.crashed = false → Orderly l) (deserted : l.crashed = true → l.clients = [])
    (d : Delivers l) : Delivers m := by
  cases move with
  | register setUp watched alive free => exact d.register (ordered alive) appends free setUp watched
  | pause paused =>
    have alike := l.alike_pause paused
    exact d.of_eq alike.clients alike.history
  | resume resumed =>
    have alike := l.alike_resume resumed
    exact d.of_eq alike.clients alike.history
  | serve e alive => exact d.serveClient (ordered alive) appends e
  | tearDown e resumed =>
    cases found : l.client? e with
    | none =>
      rw [EventLoop.tearDown]
      rwa [found]
    | some c =>
      obtain ⟨member, -⟩ := client?_eq_some found
      have alive : l.crashed = false := by
        by_contra crashed
        simp [deserted (by simpa using crashed)] at member
      have alike := alike_tearDown (h := h) found resumed
      exact (d.release (ordered alive) member).of_eq alike.clients alike.history

theorem Moves.delivers (appends : h.Appends) (begins : l.Begins) (moves : Moves h l m) :
    Delivers m := by
  induction moves with
  | refl => exact begins.delivers
  | tail moves move ih =>
    have ordered := Moves.orderly begins.orderly moves
    have deserted := Moves.deserted moves fun _ => begins.clients
    exact move.delivers appends ordered deserted ih

theorem blocked_serveClient (l : EventLoop τ ω) {e : Event}
    (ready : e.flags.readable = true ∨ e.flags.writable = true)
    (member : c ∈ (l.serveClient h e).clients) (same : c.descriptor = e.descriptor)
    (waiting : c.queued ≠ []) :
    ∃ f used earlier, (l.serveClient h e).history = .flushed c.serial f :: earlier ∧
      f.left = c.queued ∧ e.writes = used ++ .fault .wouldBlock :: f.unused ∧
      f.offers.length = used.length + 1 := by
  cases found : l.client? e.descriptor with
  | none =>
    rw [serveClient_of_none found] at member
    exact absurd same (client?_eq_none.mp found c member)
  | some b =>
    obtain ⟨-, here⟩ := client?_eq_some found
    rcases served : Session.serve h ⟨l.world, b, []⟩ e.flags e.read e.writes with ⟨v, s⟩
    rw [serveClient_eq found served] at member ⊢
    cases v with
    | keep =>
      have alike := alike_updateInterest (l.absorb s) e.descriptor s.client.hasQueued
        e.control.modify
      obtain ⟨descriptor, -⟩ := Session.own_of_serve served rfl
      rw [settle, alike.clients] at member
      rw [settle, alike.history]
      rcases of_mem_update member with rfl | ⟨-, other⟩
      · obtain ⟨u, rfl, blocked⟩ := Session.blocked_of_kept served ready waiting
        obtain ⟨used, plan, count⟩ := OutputStream.blocked_last blocked
        rw [← u.client.fst_flush] at plan count
        refine ⟨(u.client.flush e.writes).1, used, _, rfl, ?_, plan, count⟩
        rw [u.client.fst_flush]
        exact (u.client.queued_flush e.writes).symm
      · exact absurd (same.trans (here.symm.trans descriptor.symm)) other
    | tearDown =>
      rw [settle, clients_tearDown] at member
      exact absurd same (mem_erase.mp member).2
    | crash => cases member

/-- What the socket of a client has taken and what waits for it is what the callbacks queued, in
order, at every callback and whenever a loop waits. Bytes wait behind an event only if its last
write would have blocked. -/
theorem outputs_run (appends : h.Appends) (begins : l.Begins) (fresh : EachAccepted h Free l waits)
    (clearing : Clearing) :
    let m := l.wait h waits
    (∀ c ∈ m.clients,
      sent (own c.serial m.history) ++ c.queued = replies (own c.serial m.history)) ∧
    (∀ n, Delivered (own n m.history)) ∧
    (∀ n, Delivered (own n (l.run h waits clearing).history)) ∧
    ∀ e : Event, e.flags.readable = true ∨ e.flags.writable = true →
      ∀ c ∈ (m.serveClient h e).clients, c.descriptor = e.descriptor → c.queued ≠ [] →
        ∃ f used earlier, (m.serveClient h e).history = .flushed c.serial f :: earlier ∧
          f.left = c.queued ∧ e.writes = used ++ .fault .wouldBlock :: f.unused ∧
          f.offers.length = used.length + 1 := by
  intro m
  have waiting : Delivers m := Moves.delivers appends begins (moves_wait fresh)
  have ended := Moves.delivers appends begins (moves_run fresh clearing)
  refine ⟨waiting.inside, waiting.each, ended.each, ?_⟩
  intro e ready c member same queued
  exact m.blocked_serveClient ready member same queued

/-- Four bytes of echo are taken in two writes around an interruption, two more come while the last
of them still waits, and the socket of another client refuses to take anything in the middle. -/
theorem outputs_run_partial :
    let k : Script := { frame := 2, frame_pos := by decide, action := fun _ => .echo }
    let readable (d : Descriptor) (bytes : List UInt8) (writes : List WriteOutcome) : Event :=
      { descriptor := d, flags := { readable := true }, read := .bytes bytes, writes }
    let waits : List Wait :=
      [.events
          [{ descriptor := 3, accepts := [.connection 6 true true, .connection 7 true true] },
            readable 6 [1, 2, 3, 4]
              [.accepts 1, .fault .interrupted, .accepts 2, .fault .wouldBlock],
            readable 7 [7, 8] [.accepts 1, .accepts 0]],
        .events [readable 6 [5, 6] [.accepts 1, .fault .wouldBlock]]]
    let writable : Event :=
      { descriptor := 6, flags := { writable := true }
        writes := [.accepts 1, .fault .wouldBlock, .accepts 1] }
    let m := (create 3 5 4 4 {}).wait k.handler waits
    m.clients.map Client.queued = [[5, 6]] ∧
      [0, 1].map (fun n => sent (own n m.history)) = [[1, 2, 3, 4], [7]] ∧
      [0, 1].map (fun n => replies (own n m.history)) = [[1, 2, 3, 4, 5, 6], [7, 8]] ∧
      (∀ c ∈ m.clients,
        sent (own c.serial m.history) ++ c.queued = replies (own c.serial m.history)) ∧
      (m.serveClient k.handler writable).clients.map Client.queued = [[6]] ∧
      ∀ c ∈ (m.serveClient k.handler writable).clients, c.descriptor = 6 → c.queued ≠ [] →
        ∃ f used earlier,
          (m.serveClient k.handler writable).history = .flushed c.serial f :: earlier ∧
          f.left = c.queued ∧ writable.writes = used ++ .fault .wouldBlock :: f.unused ∧
          f.offers.length = used.length + 1 := by
  intro k readable waits writable m
  have fresh : EachAccepted k.handler Free (create 3 5 4 4 {}) waits := by decide +kernel
  obtain ⟨conserved, -, -, blocked⟩ :=
    outputs_run k.appends (begins_create 3 5 4 4 {}) fresh {}
  exact ⟨by decide +kernel, by decide +kernel, by decide +kernel, conserved, by decide +kernel,
    blocked writable (.inr rfl)⟩

end EventLoop

end RenderBroker
