import Mathlib.Data.List.Induction
import RenderBroker.Proofs.Registrations

namespace RenderBroker

variable {τ ω : Type} {h : Handler τ ω}

open Occurrence

def Occurrence.OfEvent : Occurrence τ ω → Prop
  | .read _ _ _ | .requested _ _ _ | .flushed _ _ | .closed _ _ => True
  | .declined _ _ | .opened _ _ | .abandoned _ => False

namespace EventLoop

variable {l m : EventLoop τ ω} {waits : List Wait} {batch : List Event}

/-- A wait can come to this batch: each descriptor is in it at most once, and it is that of the
waker, of the listening socket or of a client. -/
structure Reports (l : EventLoop τ ω) (batch : List Event) : Prop where
  once : (batch.map Event.descriptor).Nodup
  ours : ∀ e ∈ batch, e.descriptor = l.waker ∨ e.descriptor = l.listener ∨
    ∃ c ∈ l.clients, c.descriptor = e.descriptor

theorem mem_tearDown {b : Client τ} {d : Descriptor} {resumed : Bool}
    (other : b.descriptor ≠ d) : b ∈ (l.tearDown h d resumed).clients ↔ b ∈ l.clients := by
  rw [clients_tearDown, mem_erase]
  exact and_iff_left other

theorem mem_serveClient {b : Client τ} {e : Event} (other : b.descriptor ≠ e.descriptor)
    (alive : (l.serveClient h e).crashed = false) :
    b ∈ (l.serveClient h e).clients ↔ b ∈ l.clients := by
  cases found : l.client? e.descriptor with
  | none => rw [serveClient_of_none found]
  | some c =>
    obtain ⟨-, here⟩ := client?_eq_some found
    rcases served : Session.serve h ⟨l.world, c, []⟩ e.flags e.read e.writes with ⟨v, s⟩
    rw [serveClient_eq found served] at alive ⊢
    have absorbed (calm : v ≠ .crash) : b ∈ (l.absorb s).clients ↔ b ∈ l.clients := by
      have path := Session.path_of_serve served calm
      have same : s.client.descriptor = e.descriptor := (Session.Path.descriptor path).trans here
      constructor
      · intro there
        exact ((of_mem_update there).resolve_left fun this => other (this ▸ same)).1
      · intro there
        exact mem_update_of_ne there (same ▸ other)
    cases v with
    | keep =>
      rw [settle, (alike_updateInterest _ _ _ _).clients]
      exact absorbed (by simp)
    | tearDown =>
      rw [settle, mem_tearDown other]
      exact absorbed (by simp)
    | crash => cases alive

theorem noted_serveClient {c : Client τ} {e : Event} (found : l.client? e.descriptor = some c) :
    ∃ os, (l.serveClient h e).history = os ++ l.history ∧
      ∀ o ∈ os, o.serial = c.serial ∨ ∃ b, o = .abandoned b := by
  obtain ⟨-, here⟩ := client?_eq_some found
  rcases served : Session.serve h ⟨l.world, c, []⟩ e.flags e.read e.writes with ⟨v, s⟩
  obtain ⟨same, serial, own⟩ := Session.own_of_serve served rfl
  rw [serveClient_eq found served]
  cases v with
  | keep =>
    refine ⟨s.history, (alike_updateInterest _ _ _ _).history, ?_⟩
    intro o ho
    exact .inl (own o ho)
  | tearDown =>
    have back := client?_absorb found (same.trans here)
    refine ⟨_ :: s.history, (alike_tearDown back _).history, ?_⟩
    intro o ho
    rcases List.mem_cons.mp ho with rfl | ho
    · exact .inl serial
    · exact .inl (own o ho)
  | crash =>
    refine ⟨_ ++ s.history, (List.append_assoc ..).symm, ?_⟩
    intro o ho
    rcases List.mem_append.mp ho with ho | ho
    · obtain ⟨b, -, rfl⟩ := List.mem_map.mp ho
      exact .inr ⟨b, rfl⟩
    · exact .inl (own o ho)

theorem Orderly.mem_register (o : Orderly l) {d : Descriptor} (free : l.Free d)
    {setUp watched : Bool} (alive : (l.register h d setUp watched).crashed = false)
    {c : Client τ} (member : c ∈ l.clients) : c ∈ (l.register h d setUp watched).clients := by
  rw [o.register_eq free] at alive ⊢
  split at alive
  · next taken =>
    rw [if_pos taken]
    cases asked : h.opened l.world (l.newcomer h d) with
    | none =>
      rw [asked] at alive
      cases alive
    | some back => exact List.mem_append_left _ member
  · next dropped =>
    rw [if_neg dropped]
    exact member

def Quiet (l m : EventLoop τ ω) : Prop :=
  ∃ os, m.history = os ++ l.history ∧ ∀ o ∈ os, ¬ o.OfEvent

theorem Quiet.of_eq (same : m.history = l.history) : Quiet l m :=
  ⟨[], same, by simp⟩

theorem Quiet.trans {k : EventLoop τ ω} (first : Quiet l m) (second : Quiet m k) : Quiet l k := by
  obtain ⟨os, hos, quiet⟩ := first
  obtain ⟨ps, hps, quiet'⟩ := second
  refine ⟨ps ++ os, by rw [hps, hos, List.append_assoc], ?_⟩
  intro o ho
  rcases List.mem_append.mp ho with ho | ho
  · exact quiet' o ho
  · exact quiet o ho

theorem quiet_crash (l : EventLoop τ ω) : Quiet l l.crash := by
  refine ⟨_, rfl, ?_⟩
  intro o ho
  obtain ⟨b, -, rfl⟩ := List.mem_map.mp ho
  exact id

theorem quiet_register (h : Handler τ ω) (l : EventLoop τ ω) (d : Descriptor)
    (setUp watched : Bool) : Quiet l (l.register h d setUp watched) := by
  rw [register]
  dsimp only
  split
  · cases asked : h.opened l.world (l.newcomer h d) with
    | none =>
      let k := EventLoop.note { l with nextSerial := l.nextSerial + 1 }
        (.abandoned (l.newcomer h d))
      have first : Quiet l k := ⟨[_], rfl, by simp [OfEvent]⟩
      exact first.trans (quiet_crash k)
    | some back => exact ⟨[_], rfl, by simp [OfEvent]⟩
  · exact ⟨[_], rfl, by simp [OfEvent]⟩

theorem keeps_quiet (h : Handler τ ω) (l : EventLoop τ ω) :
    Keeps h (fun _ => False) (Quiet l) where
  register setUp watched kept _ _ := kept.trans (quiet_register h _ _ setUp watched)
  pause paused kept := kept.trans (.of_eq (alike_pause _ paused).history)
  resume resumed kept := kept.trans (.of_eq (alike_resume _ resumed).history)
  serve never := never.elim

/-- A client stays as it is while a loop that goes on handles other events. -/
theorem keeps_member (h : Handler τ ω) (o : Orderly l) (c : Client τ) :
    Keeps h (fun e => e.descriptor ≠ c.descriptor)
      fun m => Moves h l m ∧ (m.crashed = false → c ∈ m.clients) where
  register setUp watched kept alive free := by
    obtain ⟨moves, there⟩ := kept
    have o := Moves.orderly o moves alive
    exact ⟨.tail moves (.register setUp watched alive free), fun going =>
      o.mem_register free going (there alive)⟩
  pause paused kept := by
    obtain ⟨moves, there⟩ := kept
    refine ⟨.tail moves (.pause paused), ?_⟩
    rw [crashed_pause, (alike_pause _ paused).clients]
    exact there
  resume resumed kept := by
    obtain ⟨moves, there⟩ := kept
    refine ⟨.tail moves (.resume resumed), ?_⟩
    rw [crashed_resume, (alike_resume _ resumed).clients]
    exact there
  serve other kept alive := by
    obtain ⟨moves, there⟩ := kept
    exact ⟨.tail moves (.serve _ alive), fun going =>
      (mem_serveClient other.symm going).mpr (there alive)⟩

theorem handlesEach_append {P : EventLoop τ ω → Descriptor → Prop} {before after : List Event} :
    HandlesEach h P l (before ++ after) ↔
      HandlesEach h P l before ∧ HandlesEach h P (l.handleAll h before) after := by
  induction before generalizing l with
  | nil => exact (and_iff_right trivial).symm
  | cons e before ih =>
    rw [List.cons_append, HandlesEach, HandlesEach, ih, and_assoc]
    rfl

theorem moves_handleAll (fresh : HandlesEach h Free l batch) : Moves h l (l.handleAll h batch) :=
  (keeps_moves h l).handleAll (fun _ _ => trivial) fresh .refl

/-- An event finds the connection that it was reported for, as it was when the wait returned. -/
theorem Reports.owner (reports : l.Reports batch) (o : Orderly l)
    (fresh : HandlesEach h Free l batch) {before rest : List Event} {e : Event}
    (split : batch = before ++ e :: rest) (waker : e.descriptor ≠ l.waker)
    (listener : e.descriptor ≠ l.listener) :
    ∃ c, l.client? e.descriptor = some c ∧ ((l.handleAll h before).crashed = false →
      (l.handleAll h before).client? e.descriptor = some c) := by
  subst split
  obtain ⟨c, member, same⟩ :=
    ((reports.ours e (by simp)).resolve_left waker).resolve_left listener
  have others : ∀ p ∈ before, p.descriptor ≠ c.descriptor := by
    intro p hp
    have once := reports.once
    rw [List.map_append, List.nodup_append] at once
    exact same ▸ once.2.2 _ (List.mem_map_of_mem hp) _ (by simp)
  obtain ⟨moves, there⟩ := (keeps_member h o c).handleAll others (handlesEach_append.mp fresh).1
    ⟨.refl, fun _ => member⟩
  rw [← same]
  refine ⟨c, o.client?_eq member, ?_⟩
  intro going
  exact (Moves.orderly o moves going).client?_eq (there going)

theorem handle_of_crashed (crashed : l.crashed = true) (e : Event) : l.handle h e = l := by
  simp [handle, crashed]

theorem handle_of_client {e : Event} (alive : l.crashed = false) (waker : e.descriptor ≠ l.waker)
    (listener : e.descriptor ≠ l.listener) : l.handle h e = l.serveClient h e := by
  simp [handle, alive, waker, listener]

theorem quiet_handle {e : Event}
    (fresh : l.crashed = false → e.descriptor ≠ l.waker → e.descriptor = l.listener →
      AcceptsEach h Free l e.accepts)
    (own : e.descriptor = l.waker ∨ e.descriptor = l.listener) : Quiet l (l.handle h e) := by
  rw [handle]
  split
  · exact .of_eq rfl
  · next going =>
    obtain ⟨alive, waker⟩ : l.crashed = false ∧ e.descriptor ≠ l.waker := by simpa using going
    have listener := own.resolve_left waker
    rw [if_pos (by simpa using listener)]
    exact (keeps_quiet h l).accept alive (fresh alive waker listener) (.of_eq rfl)

/-- A connection that comes while a batch is handled gets no event of the batch. -/
theorem Reports.newcomers (reports : l.Reports batch) (o : Orderly l)
    (fresh : HandlesEach h Free l batch) {before after : List Event}
    (split : batch = before ++ after) :
    ∀ p ∈ (l.handleAll h before).history, l.nextSerial ≤ p.serial → ¬ p.OfEvent := by
  induction before using List.reverseRecOn generalizing after with
  | nil =>
    intro p hp new
    exact absurd (o.noted p hp) (Nat.not_lt.mpr new)
  | append_singleton before e ih =>
    rw [List.append_assoc] at split
    have earlier := ih split
    obtain ⟨past, next⟩ := handlesEach_append.mp (split ▸ fresh)
    obtain ⟨hl, hw⟩ := Moves.sockets (moves_handleAll past)
    have last : l.handleAll h (before ++ [e]) = (l.handleAll h before).handle h e :=
      List.foldl_append ..
    -- the event adds to what was noted down, and nothing of it is about a newcomer
    suffices adds : ∃ os, ((l.handleAll h before).handle h e).history =
        os ++ (l.handleAll h before).history ∧
        ∀ p ∈ os, l.nextSerial ≤ p.serial → ¬ p.OfEvent by
      obtain ⟨os, noted, quiet⟩ := adds
      intro p hp new
      rw [last, noted] at hp
      rcases List.mem_append.mp hp with hp | hp
      · exact quiet p hp new
      · exact earlier p hp new
    by_cases own : e.descriptor = l.waker ∨ e.descriptor = l.listener
    · obtain ⟨os, noted, quiet⟩ := quiet_handle next.1 (hw ▸ hl ▸ own)
      exact ⟨os, noted, fun p hp _ => quiet p hp⟩
    · obtain ⟨waker, listener⟩ := not_or.mp own
      cases going : (l.handleAll h before).crashed with
      | true => exact ⟨[], by rw [handle_of_crashed going]; rfl, by simp⟩
      | false =>
        obtain ⟨c, owner, there⟩ := reports.owner o fresh split waker listener
        have known := o.known c (client?_eq_some owner).1
        obtain ⟨os, noted, about⟩ := noted_serveClient (h := h) (there going)
        rw [handle_of_client going (hw ▸ waker) (hl ▸ listener)]
        refine ⟨os, noted, ?_⟩
        intro p hp new
        rcases about p hp with same | ⟨b, rfl⟩
        · exact absurd (same ▸ known) (Nat.not_lt.mpr new)
        · exact id

/-- While a batch is handled, an event finds the connection that it was reported for, as it was when
the wait returned, and touches no other. A connection that comes meanwhile gets no event of the
batch. -/
theorem owners_batch (listener waker : Descriptor) (inputCapacity outputCapacity : Nat) (world : ω)
    (fresh : EachAccepted h Free (create listener waker inputCapacity outputCapacity world) waits) :
    let m := (create listener waker inputCapacity outputCapacity world).wait h waits
    ∀ batch, m.crashed = false → m.Reports batch → HandlesEach h Free m batch →
      ∀ before after, batch = before ++ after →
      let k := m.handleAll h before
      (∀ c ∈ k.clients, c.descriptor ≠ waker ∧ c.descriptor ≠ listener) ∧
      (∀ o ∈ k.history, m.nextSerial ≤ o.serial → ¬ o.OfEvent) ∧
      ∀ e rest, after = e :: rest → e.descriptor ≠ waker → e.descriptor ≠ listener →
        ∃ c, m.client? e.descriptor = some c ∧
          (k.crashed = true ∧ k.handle h e = k ∨
            k.client? e.descriptor = some c ∧
            (∃ os, (k.handle h e).history = os ++ k.history ∧
              ∀ o ∈ os, o.serial = c.serial ∨ ∃ b, o = .abandoned b) ∧
            ((k.handle h e).crashed = false → ∀ b, b.descriptor ≠ e.descriptor →
              (b ∈ (k.handle h e).clients ↔ b ∈ k.clients))) := by
  intro m batch alive reports fresh' before after split k
  have begins := begins_create (τ := τ) listener waker inputCapacity outputCapacity world
  have first := registered_create (τ := τ) listener waker inputCapacity outputCapacity world
  have past : Moves h _ m := moves_wait fresh
  have o : Orderly m := Moves.orderly begins.orderly past alive
  have moves : Moves h m k := moves_handleAll (handlesEach_append.mp (split ▸ fresh')).1
  obtain ⟨hl, hw⟩ : k.listener = listener ∧ k.waker = waker := Moves.sockets (past.trans moves)
  obtain ⟨ml, mw⟩ : m.listener = listener ∧ m.waker = waker := Moves.sockets past
  refine ⟨?_, reports.newcomers o fresh' split, ?_⟩
  · intro c hc
    cases going : k.crashed with
    | true =>
      have none := Moves.deserted (past.trans moves) (fun _ => begins.clients) going
      simp [none] at hc
    | false =>
      have r : Registered k := Moves.registered first begins.orderly (past.trans moves) going
      obtain ⟨apart, awake⟩ := r.alone hc
      exact ⟨hw ▸ awake, hl ▸ apart⟩
  · intro e rest next notWaker notListener
    obtain ⟨c, owner, there⟩ := reports.owner o fresh' (split.trans (congrArg _ next))
      (mw ▸ notWaker) (ml ▸ notListener)
    refine ⟨c, owner, ?_⟩
    cases going : k.crashed with
    | true => exact .inl ⟨rfl, handle_of_crashed going e⟩
    | false =>
      have found : k.client? e.descriptor = some c := there going
      rw [handle_of_client going (hw ▸ notWaker) (hl ▸ notListener)]
      exact .inr ⟨found, noted_serveClient found, fun on b other => mem_serveClient other on⟩

/-- The peer of the first client is gone, and its descriptor is given to a connection that comes
while the rest of the batch waits; then the waker's event and that of the second client follow. -/
theorem owners_batch_reused :
    let waits : List Wait :=
      [.events [{ descriptor := 3, accepts := [.connection 6 true true, .connection 7 true true] }]]
    let batch : List Event :=
      [{ descriptor := 6, flags := { readable := true }, read := .bytes [] },
        { descriptor := 3, accepts := [.connection 6 true true] }, { descriptor := 5 },
        { descriptor := 7, flags := { readable := true }, read := .bytes [1] }]
    let k : Script := { frame := 1, frame_pos := Nat.one_pos, action := fun _ => .proceed }
    let m := (create 3 5 4 4 {}).wait k.handler waits
    let n := m.handleAll k.handler batch
    m.clients.map (fun c => (c.descriptor, c.serial)) = [(6, 0), (7, 1)] ∧
      n.clients.map (fun c => (c.descriptor, c.serial)) = [(7, 1), (6, 2)] ∧
      callbacks (own 0 n.history) = [.opened, .closed] ∧
      callbacks (own 1 n.history) = [.opened, .requested, .requested] ∧
      callbacks (own 2 n.history) = [.opened] ∧
      ∀ o ∈ n.history, m.nextSerial ≤ o.serial → ¬ o.OfEvent := by
  intro waits batch k m n
  have fresh : EachAccepted k.handler Free (create 3 5 4 4 {}) waits := by decide +kernel
  have alive : m.crashed = false := by decide +kernel
  have reports : m.Reports batch := ⟨by decide +kernel, by decide +kernel⟩
  have fresh' : HandlesEach k.handler Free m batch := by decide +kernel
  obtain ⟨-, newcomers, -⟩ := owners_batch (h := k.handler) 3 5 4 4 {} fresh batch alive reports
    fresh' batch [] (List.append_nil _).symm
  exact ⟨by decide +kernel, by decide +kernel, by decide +kernel, by decide +kernel,
    by decide +kernel, newcomers⟩

end EventLoop

end RenderBroker
