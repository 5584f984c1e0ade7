import Mathlib.Data.List.Basic
import RenderBroker.Render.Crew

namespace RenderBroker

namespace ThreadStage

def end? : ThreadStage → Option ThreadEnd
  | .leaving e | .ended e => some e
  | .receiving | .running _ _ => none

def heard (s : ThreadStage) : List RenderMessage :=
  if s.end? = some .asked then [.stop] else []

end ThreadStage

namespace RenderCrew

variable {c d : RenderCrew}

def stops (ms : List RenderMessage) : Nat :=
  ms.countP fun m => m.task?.isNone

theorem stops_append (ms ns : List RenderMessage) : stops (ms ++ ns) = stops ms + stops ns :=
  List.countP_append ..

theorem stops_run (t : Task) : stops [.run t] = 0 :=
  rfl

theorem eq_map_run_of_stops {ms : List RenderMessage} (none : stops ms = 0) :
    ∃ ts : List Task, ms = ts.map .run := by
  induction ms with
  | nil => exact ⟨[], rfl⟩
  | cons m ms ih =>
    cases m with
    | run t =>
      obtain ⟨ts, rest⟩ := ih none
      exact ⟨t :: ts, congrArg _ rest⟩
    | stop => simp [stops, RenderMessage.task?] at none

/-- The messages that the channel has taken are the tasks that were begun, the request to end if it
was received, and what is left; that is in the channel as long as the thread holds its end. -/
def Ordered (c : RenderCrew) : Prop :=
  ∃ left, c.taken = c.begun.map .run ++ c.stage.heard ++ left ∧
    (c.channel.received = true → c.channel.items = left)

structure Sound (c : RenderCrew) : Prop where
  ordered : c.Ordered
  held : c.channel.received = false ↔ ∃ e, c.stage = .ended e
  stops : stops c.taken ≤ c.asked.toNat
  running : ∀ t left, c.stage = .running t left → t ∈ c.begun
  panicked : c.stage.end? = some .panicked → ∃ t ∈ c.begun, t.panics = true
  nested : ∀ t ∈ c.begun, ∀ n ∈ t.nested,
    .run n ∈ c.taken ∨ ∃ left, c.stage = .running t left ∧ n ∈ left
  joined : c.joined = true → c.asked = true ∧ ∃ e, c.stage = .ended e

theorem post_of_received (received : c.channel.received = true) (m : RenderMessage) :
    c.post m = { c with
      channel := { c.channel with items := c.channel.items ++ [m] }
      taken := c.taken ++ [m] } := by
  simp [post, Channel.send, received]

theorem post_of_closed (closed : c.channel.received = false) (m : RenderMessage) :
    c.post m = { c with refused := c.refused ++ m.task?.toList } := by
  simp [post, Channel.send, closed]

theorem sound_start : Sound {} := by
  constructor
  · exact ⟨[], rfl, fun _ => rfl⟩
  · simp
  · exact Nat.le_refl _
  · simp
  · simp [ThreadStage.end?]
  · simp
  · simp

theorem Sound.post (s : Sound c) (m : RenderMessage) (asked : Bool)
    (once : RenderCrew.stops [m] + c.asked.toNat ≤ asked.toNat) :
    Sound { c.post m with asked } := by
  have kept : c.asked = true → asked = true := by
    intro before
    have := Nat.le_of_add_left_le once
    cases asked <;> simp_all
  obtain ⟨left, order, items⟩ := s.ordered
  cases received : c.channel.received with
  | true =>
    rw [post_of_received received]
    constructor
    · refine ⟨left ++ [m], ?_, fun _ => ?_⟩
      · simp [order]
      · simp [items received]
    · exact s.held
    · change RenderCrew.stops (c.taken ++ [m]) ≤ asked.toNat
      rw [stops_append]
      have := s.stops
      omega
    · exact s.running
    · exact s.panicked
    · intro t ht n hn
      rcases s.nested t ht n hn with taken | running
      · exact .inl (List.mem_append_left _ taken)
      · exact .inr running
    · intro joined
      obtain ⟨before, ended⟩ := s.joined joined
      exact ⟨kept before, ended⟩
  | false =>
    rw [post_of_closed received]
    constructor
    · exact s.ordered
    · exact s.held
    · exact Nat.le_trans s.stops (Nat.le_of_add_left_le once)
    · exact s.running
    · exact s.panicked
    · exact s.nested
    · intro joined
      obtain ⟨before, ended⟩ := s.joined joined
      exact ⟨kept before, ended⟩

theorem Sound.going (s : Sound c) (going : ∀ e, c.stage ≠ .ended e) :
    c.channel.received = true ∧ c.joined = false := by
  constructor
  · by_contra closed
    obtain ⟨e, ended⟩ := s.held.mp (by simpa using closed)
    exact going e ended
  · by_contra joined
    obtain ⟨-, e, ended⟩ := s.joined (by simpa using joined)
    exact going e ended

theorem Sound.all_sent (s : Sound c) (idle : ∀ t left, c.stage ≠ .running t left) :
    ∀ t ∈ c.begun, ∀ n ∈ t.nested, .run n ∈ c.taken := by
  intro t ht n hn
  rcases s.nested t ht n hn with taken | ⟨left, running, -⟩
  · exact taken
  · exact absurd running (idle t left)

theorem Sound.begin (s : Sound c) {t : Task} {items : List RenderMessage}
    (stage : c.stage = .receiving) (next : c.channel.items = .run t :: items) :
    Sound { c with
      channel := { c.channel with items }
      stage := .running t t.nested
      begun := c.begun ++ [t] } := by
  obtain ⟨received, alone⟩ := s.going (by simp [stage])
  obtain ⟨left, order, same⟩ := s.ordered
  have left_eq : left = .run t :: items := (same received).symm.trans next
  constructor
  · refine ⟨items, ?_, fun _ => rfl⟩
    rw [order, left_eq, stage]
    simp [ThreadStage.heard, ThreadStage.end?]
  · simp [received]
  · exact s.stops
  · intro u left running
    cases running
    simp
  · simp [ThreadStage.end?]
  · intro u hu n hn
    rcases List.mem_append.mp hu with hu | hu
    · exact .inl (s.all_sent (by simp [stage]) u hu n hn)
    · cases List.mem_singleton.mp hu
      exact .inr ⟨_, rfl, hn⟩
  · simp [alone]

theorem Sound.hear (s : Sound c) {items : List RenderMessage} (stage : c.stage = .receiving)
    (next : c.channel.items = .stop :: items) :
    Sound { c with channel := { c.channel with items }, stage := .leaving .asked } := by
  obtain ⟨received, alone⟩ := s.going (by simp [stage])
  obtain ⟨left, order, same⟩ := s.ordered
  have left_eq : left = .stop :: items := (same received).symm.trans next
  constructor
  · refine ⟨items, ?_, fun _ => rfl⟩
    rw [order, left_eq, stage]
    simp [ThreadStage.heard, ThreadStage.end?]
  · simp [received]
  · exact s.stops
  · simp
  · simp [ThreadStage.end?]
  · intro u hu n hn
    exact .inl (s.all_sent (by simp [stage]) u hu n hn)
  · simp [alone]

theorem Sound.restage (s : Sound c) {stage : ThreadStage} (going : ∀ e, c.stage ≠ .ended e)
    (goes : ∀ e, stage ≠ .ended e) (heard : stage.heard = c.stage.heard)
    (running : ∀ t left, stage = .running t left → t ∈ c.begun)
    (panicked : stage.end? = some .panicked → ∃ t ∈ c.begun, t.panics = true)
    (nested : ∀ t ∈ c.begun, ∀ n ∈ t.nested,
      .run n ∈ c.taken ∨ ∃ left, stage = .running t left ∧ n ∈ left) :
    Sound { c with stage } := by
  obtain ⟨received, alone⟩ := s.going going
  obtain ⟨left, order, items⟩ := s.ordered
  constructor
  · exact ⟨left, by rw [order, heard], items⟩
  · simp [received, goes]
  · exact s.stops
  · exact running
  · exact panicked
  · exact nested
  · simp [alone]

theorem Sound.queue (s : Sound c) {t n : Task} {left : List Task}
    (stage : c.stage = .running t (n :: left)) :
    Sound { c.post (.run n) with stage := .running t left } := by
  have posted : Sound (c.post (.run n)) := s.post (.run n) c.asked (by simp [stops_run])
  have same : (c.post (.run n)).stage = .running t (n :: left) := stage
  obtain ⟨received, -⟩ := s.going (by simp [stage])
  apply posted.restage
  · simp [stage]
  · simp
  · rw [same]
    rfl
  · intro u left' running
    cases running
    exact s.running t _ stage
  · simp [ThreadStage.end?]
  · intro u hu m hm
    rcases posted.nested u hu m hm with taken | ⟨left', running, hm⟩
    · exact .inl taken
    · rw [same] at running
      cases running
      rcases List.mem_cons.mp hm with rfl | hm
      · rw [post_of_received received]
        exact .inl (List.mem_append_right _ (List.mem_singleton_self _))
      · exact .inr ⟨left, rfl, hm⟩

theorem Sound.finish (s : Sound c) {t : Task} (stage : c.stage = .running t []) :
    Sound { c with stage := if t.panics then .leaving .panicked else .receiving } := by
  have nested (u : Task) (hu : u ∈ c.begun) (n : Task) (hn : n ∈ u.nested) : .run n ∈ c.taken := by
    rcases s.nested u hu n hn with taken | ⟨left, running, hn⟩
    · exact taken
    · rw [stage] at running
      cases running
      cases hn
  apply s.restage
  · simp [stage]
  · split <;> simp
  · rw [stage]
    split <;> rfl
  · split <;> simp
  · split
    · next panics => exact fun _ => ⟨t, s.running t [] stage, panics⟩
    · simp [ThreadStage.end?]
  · exact fun u hu n hn => .inl (nested u hu n hn)

theorem Sound.leave (s : Sound c) {e : ThreadEnd} (stage : c.stage = .leaving e) :
    Sound { c with channel := c.channel.close, stage := .ended e } := by
  obtain ⟨-, alone⟩ := s.going (by simp [stage])
  obtain ⟨left, order, -⟩ := s.ordered
  have same : c.stage.end? = (ThreadStage.ended e).end? := by rw [stage]; rfl
  constructor
  · refine ⟨left, ?_, fun received => nomatch received⟩
    rw [order, ThreadStage.heard, same]
    rfl
  · exact ⟨fun _ => ⟨e, rfl⟩, fun _ => rfl⟩
  · exact s.stops
  · simp
  · rw [← same]
    exact s.panicked
  · intro u hu n hn
    exact .inl (s.all_sent (by simp [stage]) u hu n hn)
  · simp [alone]

theorem Sound.advance (s : Sound c) (h : c.advance = some d) : Sound d := by
  rw [RenderCrew.advance] at h
  cases stage : c.stage with
  | receiving =>
    rw [stage] at h
    dsimp only at h
    rw [Channel.receive] at h
    rcases items : c.channel.items with _ | ⟨_ | _, rest⟩
    · rw [items] at h
      cases h
    · rw [items] at h
      cases h
      exact s.begin stage items
    · rw [items] at h
      cases h
      exact s.hear stage items
  | running t left =>
    rw [stage] at h
    cases left with
    | nil =>
      cases h
      exact s.finish stage
    | cons n left =>
      cases h
      exact s.queue stage
  | leaving e =>
    rw [stage] at h
    cases h
    exact s.leave stage
  | ended e =>
    rw [stage] at h
    cases h

theorem Sound.step (s : Sound c) {t : Turn} (h : c.step t = some d) : Sound d := by
  cases t with
  | send t =>
    cases h
    exact s.post (.run t) c.asked (by simp [stops_run])
  | ask =>
    rw [RenderCrew.step] at h
    split at h
    · cases h
      exact s
    · next fresh =>
      cases h
      exact s.post .stop true (by simp [fresh, RenderCrew.stops, RenderMessage.task?])
  | advance => exact s.advance h
  | join =>
    rw [RenderCrew.step] at h
    split at h
    · next e stage =>
      split at h
      · next asked =>
        cases h
        exact ⟨s.ordered, s.held, s.stops, s.running, s.panicked, s.nested,
          fun _ => ⟨asked, e, stage⟩⟩
      · cases h
    · cases h

theorem Reachable.sound (h : c.Reachable) : Sound c :=
  h.keeps (fun s step => s.step step) sound_start

/-- The thread has ended and let go of its end, with these messages taken and these tasks begun. -/
structure Over (taken : List RenderMessage) (begun : List Task) (c : RenderCrew) : Prop where
  ended : ∃ e, c.stage = .ended e
  closed : c.channel.received = false
  taken : c.taken = taken
  begun : c.begun = begun

theorem Over.step {taken : List RenderMessage} {begun : List Task} (o : Over taken begun c)
    {t : Turn} (h : c.step t = some d) : Over taken begun d := by
  obtain ⟨⟨e, ended⟩, closed, taken, begun⟩ := o
  cases t with
  | send t =>
    cases h
    rw [post_of_closed closed]
    exact ⟨⟨e, ended⟩, closed, taken, begun⟩
  | ask =>
    rw [RenderCrew.step, post_of_closed closed] at h
    split at h <;> cases h <;> exact ⟨⟨e, ended⟩, closed, taken, begun⟩
  | advance =>
    rw [RenderCrew.step, RenderCrew.advance, ended] at h
    cases h
  | join =>
    rw [RenderCrew.step, ended] at h
    dsimp only at h
    split at h
    · cases h
      exact ⟨⟨e, rfl⟩, closed, taken, begun⟩
    · cases h

/-- When the owner of a thread whose tasks do not panic has returned, the tasks sent before the
request to end have run, once each and in order, and have queued theirs. What was sent behind it is
never run. -/
theorem tasks_joined (reachable : c.Reachable) (joined : c.joined = true)
    (calm : ∀ t ∈ c.begun, t.panics = false) :
    (∃ late : List Task, c.taken = c.begun.map .run ++ .stop :: late.map .run) ∧
    (∀ t ∈ c.begun, ∀ n ∈ t.nested, .run n ∈ c.taken) ∧ c.stage = .ended .asked ∧
    ∀ d, Reaches step c d → d.begun = c.begun ∧ d.taken = c.taken ∧
      ∀ t, ∃ e, d.step (.send t) = some e ∧ e.refused = d.refused ++ [t] := by
  have s := reachable.sound
  obtain ⟨asked, e, ended⟩ := s.joined joined
  have closed := s.held.mpr ⟨e, ended⟩
  obtain ⟨left, order, -⟩ := s.ordered
  have heard : e = .asked := by
    cases e with
    | asked => rfl
    | panicked =>
      obtain ⟨t, ht, panics⟩ := s.panicked (by rw [ended]; rfl)
      rw [calm t ht] at panics
      cases panics
  rw [heard] at ended
  have order : c.taken = c.begun.map .run ++ [.stop] ++ left := by
    rw [order, ended]
    rfl
  -- the request to end was made once, so there is none among what is left
  have alone : stops left = 0 := by
    have once := s.stops
    rw [order, stops_append, stops_append, asked] at once
    have heard : stops [.stop] = 1 := rfl
    have one : true.toNat = 1 := rfl
    omega
  obtain ⟨late, rfl⟩ := eq_map_run_of_stops alone
  refine ⟨⟨late, ?_⟩, ?_, ended, ?_⟩
  · rw [order, List.append_assoc]
    rfl
  · exact s.all_sent (by simp [ended])
  · intro d later
    have past : Over c.taken c.begun d :=
      later.keeps (fun o step => o.step step) ⟨⟨_, ended⟩, closed, rfl, rfl⟩
    refine ⟨past.begun, past.taken, ?_⟩
    intro t
    refine ⟨_, rfl, ?_⟩
    rw [post_of_closed past.closed]
    rfl

/-- A task that queues another one, and has done so after the thread was asked to end. -/
def lateSender : RenderCrew where
  channel := { items := [], received := false }
  stage := .ended .asked
  asked := true
  joined := true
  taken := [.run (.mk 0 [.mk 1 [] false false] false false), .stop, .run (.mk 1 [] false false)]
  begun := [.mk 0 [.mk 1 [] false false] false false]

theorem reachable_lateSender : lateSender.Reachable := by
  let turns : List Turn :=
    [.send (.mk 0 [.mk 1 [] false false] false false), .ask, .advance, .advance, .advance,
      .advance, .advance, .join]
  have run : turns.foldlM step {} = some lateSender := rfl
  exact Reaches.of_foldlM run

theorem tasks_joined_lateSender :
    (∃ late : List Task,
      lateSender.taken = lateSender.begun.map .run ++ .stop :: late.map .run) ∧
    ∀ d, Reaches step lateSender d → d.begun = lateSender.begun := by
  obtain ⟨taken, -, -, later⟩ := tasks_joined reachable_lateSender rfl (by decide)
  exact ⟨taken, fun d reached => (later d reached).1⟩

/-- Not every task that was taken has been begun when the owner has returned. -/
theorem not_all_taken_begun :
    ¬ ∀ c : RenderCrew, c.Reachable → c.joined = true → (∀ t ∈ c.begun, t.panics = false) →
      ∀ t, .run t ∈ c.taken → t ∈ c.begun := by
  intro all
  have begun := all lateSender reachable_lateSender rfl (by decide) (.mk 1 [] false false)
    (by simp [lateSender])
  simp [lateSender] at begun

end RenderCrew

end RenderBroker
