import RenderBroker.Proofs.Flushes
import RenderBroker.Proofs.Growth
import RenderBroker.Proofs.Sessions
import RenderBroker.Server.Script

namespace RenderBroker

variable {τ ω : Type} {h : Handler τ ω}

theorem Fault.isTransient_iff (f : Fault) :
    f.isTransient = true ↔ f = .wouldBlock ∨ f = .interrupted := by
  cases f <;> simp [isTransient]

/-- Requests one after the other: each finds what the one before has left, and comes to what the
handler answers there. -/
inductive Asked (h : Handler τ ω) : Moment τ ω → List (Occurrence τ ω) → Moment τ ω → Prop
  | none (m : Moment τ ω) : Asked h m [] m
  | ask {m last : Moment τ ω} {e : RequestEnd} {world : ω} {back : Client τ}
      {os : List (Occurrence τ ω)} (answer : h.request m.world m.client = (e, world, back))
      (rest : Asked h ⟨world, m.client.returned back⟩ os last) :
      Asked h m (.requested e m ⟨world, m.client.returned back⟩ :: os) last

def Occurrence.requestEnd? : Occurrence τ ω → Option RequestEnd
  | .requested e _ _ => some e
  | _ => none

def ComesTo (e : RequestEnd) (os : List (Occurrence τ ω)) : Prop :=
  e ∈ os.filterMap Occurrence.requestEnd?

/-- Every request is asked for a client that is not marked, and another one follows just if it was
served and its client is not marked then. -/
def Continued (os : List (Occurrence τ ω)) : Prop :=
  ∀ earlier e before after later, os = earlier ++ .requested e before after :: later →
    before.client.killed = false ∧ (later ≠ [] ↔ e = .served ∧ after.client.killed = false)

variable {m last : Moment τ ω} {os : List (Occurrence τ ω)} {e : RequestEnd}

theorem not_comesTo_nil : ¬ ComesTo e ([] : List (Occurrence τ ω)) := by
  simp [ComesTo]

theorem comesTo_cons {i : RequestEnd} {before after : Moment τ ω} :
    ComesTo e (.requested i before after :: os) ↔ e = i ∨ ComesTo e os := by
  simp [ComesTo, Occurrence.requestEnd?]

theorem continued_nil : Continued ([] : List (Occurrence τ ω)) := by
  intro earlier e before after later split
  simp at split

theorem Continued.cons {before after : Moment τ ω} (continued : Continued os)
    (unmarked : before.client.killed = false)
    (goes : os ≠ [] ↔ e = .served ∧ after.client.killed = false) :
    Continued (.requested e before after :: os) := by
  intro earlier i first second later split
  rcases List.cons_eq_append_iff.mp split with ⟨rfl, same⟩ | ⟨earlier, rfl, rest⟩
  · cases same
    exact ⟨unmarked, goes⟩
  · exact continued earlier i first second later rest

namespace Session

open OutputStream (Flushing)

variable {s t : Session τ ω} {v : Verdict}

structure Drained (h : Handler τ ω) (s : Session τ ω) (v : Verdict) (t : Session τ ω)
    (os : List (Occurrence τ ω)) : Prop where
  noted : t.history = os.reverse ++ s.history
  asked : Asked h ⟨s.world, s.client⟩ os ⟨t.world, t.client⟩
  continued : Continued os
  some : os ≠ [] ↔ s.client.killed = false
  crash : v = .crash ↔ ComesTo .panicked os
  tearDown : v = .tearDown ↔ ComesTo .failed os

theorem drained_last {world : ω} {back : Client τ} (unmarked : s.client.killed = false)
    (answer : h.request s.world s.client = (e, world, back)) (ends : e ≠ .served)
    (crash : v = .crash ↔ .panicked = e) (tearDown : v = .tearDown ↔ .failed = e) :
    Drained h s v (s.requested e world back)
      [.requested e ⟨s.world, s.client⟩ ⟨world, s.client.returned back⟩] where
  noted := rfl
  asked := .ask answer (.none _)
  continued := continued_nil.cons unmarked (by simp [ends])
  some := by simp [unmarked]
  crash := by simp [crash, comesTo_cons, not_comesTo_nil]
  tearDown := by simp [tearDown, comesTo_cons, not_comesTo_nil]

theorem Drained.cons {world : ω} {back : Client τ} (unmarked : s.client.killed = false)
    (answer : h.request s.world s.client = (.served, world, back))
    (rest : Drained h (s.requested .served world back) v t os) :
    Drained h s v t
      (.requested .served ⟨s.world, s.client⟩ ⟨world, s.client.returned back⟩ :: os) where
  noted := by simp [rest.noted, requested]
  asked := .ask answer rest.asked
  continued := rest.continued.cons unmarked (rest.some.trans ⟨fun on => ⟨rfl, on⟩, And.right⟩)
  some := by simp [unmarked]
  crash := by simp [rest.crash, comesTo_cons]
  tearDown := by simp [rest.tearDown, comesTo_cons]

theorem exists_drained (h : Handler τ ω) (s : Session τ ω) :
    ∃ os, Drained h s (s.drain h).1 (s.drain h).2 os := by
  fun_induction drain h s with
  | case1 s marked =>
    exact ⟨[], rfl, .none _, continued_nil, by simp [marked], by simp [not_comesTo_nil],
      by simp [not_comesTo_nil]⟩
  | case3 s unmarked world back answer ih =>
    obtain ⟨os, rest⟩ := ih
    exact ⟨_, rest.cons (by simpa using unmarked) answer⟩
  | case2 s unmarked _ _ answer | case4 s unmarked _ _ answer | case5 s unmarked _ _ answer =>
    exact ⟨_, drained_last (by simpa using unmarked) answer (by simp) (by simp) (by simp)⟩

def reads (s : Session τ ω) (flags : Readiness) (r : ReadOutcome) : List (Occurrence τ ω) :=
  if flags.readable then
    [.read s.client.serial (s.client.receive r).offered (s.client.receive r).result]
  else []

/-- What was read ends the connection: the end of the stream, or a fault that does not only ask for
patience. -/
def Closing (result : Except Fault (List UInt8)) : Prop :=
  result = .ok [] ∨ ∃ f, result = .error f ∧ f ≠ .wouldBlock ∧ f ≠ .interrupted

def Broken (flags : Readiness) (result : Except Fault (List UInt8))
    (os : List (Occurrence τ ω)) : Prop :=
  flags.readable = true ∧ (Closing result ∨ ComesTo .failed os)

/-- A flush is due: the event asks to read or to write, and nothing has ended it yet. -/
def Due (flags : Readiness) (result : Except Fault (List UInt8)) (os : List (Occurrence τ ω)) :
    Prop :=
  (flags.readable = true ∨ flags.writable = true) ∧ ¬ Broken flags result os ∧
    ¬ ComesTo .panicked os

def hear (h : Handler τ ω) (s : Session τ ω) (flags : Readiness) (r : ReadOutcome) :
    Verdict × Session τ ω :=
  if flags.readable then s.receive h r else (.keep, s)

theorem serve_eq (h : Handler τ ω) (s : Session τ ω) (flags : Readiness) (r : ReadOutcome)
    (plan : List WriteOutcome) : s.serve h flags r plan =
      if flags.readable || flags.writable then
        match s.hear h flags r with
        | (.keep, s) => s.finish plan
        | torn => torn
      else if flags.hangUp || flags.error then (.tearDown, s)
      else (.keep, s) := by
  rw [serve, hear]
  cases flags.readable <;> rfl

theorem serve_of_keep {flags : Readiness} {r : ReadOutcome}
    (ready : flags.readable = true ∨ flags.writable = true) (kept : s.hear h flags r = (.keep, t))
    (plan : List WriteOutcome) : s.serve h flags r plan = t.finish plan := by
  rw [serve_eq, if_pos (by simpa using ready), kept]

theorem serve_of_ne_keep {flags : Readiness} {r : ReadOutcome}
    (ready : flags.readable = true ∨ flags.writable = true) (torn : s.hear h flags r = (v, t))
    (ends : v ≠ .keep) (plan : List WriteOutcome) : s.serve h flags r plan = (v, t) := by
  rw [serve_eq, if_pos (by simpa using ready), torn]
  cases v with
  | keep => exact absurd rfl ends
  | tearDown | crash => rfl

theorem serve_unready {flags : Readiness} (readable : flags.readable = false)
    (writable : flags.writable = false) (r : ReadOutcome) (plan : List WriteOutcome) :
    s.serve h flags r plan =
      (if flags.hangUp = true ∨ flags.error = true then .tearDown else .keep, s) := by
  rw [serve_eq, readable, writable]
  cases flags.hangUp <;> cases flags.error <;> rfl

/-- What an event does before its flush comes to. -/
structure Heard (h : Handler τ ω) (s : Session τ ω) (flags : Readiness) (r : ReadOutcome)
    (v : Verdict) (t : Session τ ω) (os : List (Occurrence τ ω)) : Prop where
  noted : t.history = os.reverse ++ (s.reads flags r ++ s.history)
  asked : Asked h ⟨s.world, if flags.readable then (s.client.receive r).client else s.client⟩ os
    ⟨t.world, t.client⟩
  continued : Continued os
  some : os ≠ [] ↔ flags.readable = true ∧
    (∃ b bytes, (s.client.receive r).result = .ok (b :: bytes)) ∧ s.client.killed = false
  crash : v = .crash ↔ ComesTo .panicked os
  tearDown : v = .tearDown ↔ Broken flags (s.client.receive r).result os

theorem Heard.due_iff {flags : Readiness} {r : ReadOutcome} (heard : Heard h s flags r v t os)
    (ready : flags.readable = true ∨ flags.writable = true) :
    Due flags (s.client.receive r).result os ↔ v = .keep := by
  rw [Due, ← heard.tearDown, ← heard.crash]
  cases v <;> simp [ready]

theorem heard_silent {flags : Readiness} {r : ReadOutcome} (readable : flags.readable = true)
    (silent : ∀ b bytes, (s.client.receive r).result ≠ .ok (b :: bytes))
    (calm : v ≠ .crash) (tearDown : v = .tearDown ↔ Closing (s.client.receive r).result) :
    Heard h s flags r v (s.heard r) [] where
  noted := by simp [reads, readable, heard, note]
  asked := by
    rw [if_pos readable]
    exact .none _
  continued := continued_nil
  some := by simp [silent]
  crash := by simp [calm, not_comesTo_nil]
  tearDown := by simp [tearDown, Broken, readable, not_comesTo_nil]

theorem exists_heard (h : Handler τ ω) (s : Session τ ω) (flags : Readiness) (r : ReadOutcome) :
    ∃ os, Heard h s flags r (s.hear h flags r).1 (s.hear h flags r).2 os := by
  cases readable : flags.readable with
  | false =>
    rw [hear, if_neg (by simp [readable])]
    refine ⟨[], by simp [reads, readable], ?_, continued_nil, by simp [readable],
      by simp [not_comesTo_nil], by simp [Broken, readable]⟩
    rw [if_neg (by simp [readable])]
    exact .none _
  | true =>
    rw [hear, if_pos readable, receive_eq]
    cases got : (s.client.receive r).result with
    | error f =>
      dsimp only
      split
      next patience =>
        refine ⟨[], heard_silent readable (by simp [got]) (by simp) ?_⟩
        rw [Fault.isTransient_iff] at patience
        simp only [Closing, got]
        grind
      next hard =>
        refine ⟨[], heard_silent readable (by simp [got]) (by simp) ?_⟩
        rw [Fault.isTransient_iff] at hard
        simp only [Closing, got]
        grind
    | ok bytes =>
      cases bytes with
      | nil => exact ⟨[], heard_silent readable (by simp [got]) (by simp) (by simp [Closing, got])⟩
      | cons b bytes =>
        obtain ⟨os, drained⟩ := exists_drained h (s.heard r)
        refine ⟨os, ?_, ?_, drained.continued, ?_, drained.crash, ?_⟩
        · rw [drained.noted]
          simp [reads, readable, heard, note]
        · rw [if_pos readable]
          exact drained.asked
        · rw [drained.some]
          simp [readable, got, heard, note]
        · rw [drained.tearDown]
          simp [Broken, readable, Closing, got]

/-- The last write of a flush took nothing, or came to a fault that does not only ask for
patience. -/
def Refused (c : Client τ) (plan : List WriteOutcome) : Prop :=
  ∃ w, (Flushing.start (.ofQueued c.queued) plan).run.2.writes.getLast? = some w ∧
    (w.result = .ok 0 ∨ ∃ f, w.result = .error f ∧ f ≠ .wouldBlock ∧ f ≠ .interrupted)

theorem refused_iff (c : Client τ) (plan : List WriteOutcome) :
    Refused c plan ↔ ∃ f, (c.flush plan).1.ending = .failed f := by
  have ending := (Flushing.run_start (.ofQueued c.queued) plan).1
  have kept := Flushing.kept_start (.ofQueued c.queued) plan
  have ended := (kept.run fun _ none => by cases none).2
  rw [OutputStream.flush, OutputStream.queued_ofQueued, ← c.fst_flush] at ending
  have failed (f : Fault) : (c.flush plan).1.ending = .failed f ↔
      (c.flush plan).1.ending.result = .error f := by
    cases (c.flush plan).1.ending <;> simp [OutputStream.FlushEnd.result]
  rw [ending] at ended
  simp only [failed, ended.error_iff]
  constructor
  · rintro ⟨w, last, none | ⟨f, fault, full, again⟩⟩
    · exact ⟨_, w, last, .inl ⟨none, rfl⟩⟩
    · exact ⟨f, w, last, .inr ⟨fault, again, full⟩⟩
  · rintro ⟨f, w, last, ⟨none, -⟩ | ⟨fault, again, full⟩⟩
    · exact ⟨w, last, .inl none⟩
    · exact ⟨w, last, .inr ⟨f, fault, full, again⟩⟩

theorem not_refused_of_idle {c : Client τ} (idle : c.queued = []) (plan : List WriteOutcome) :
    ¬ Refused c plan := by
  rw [refused_iff, c.fst_flush, idle]
  simp [OutputStream.offer]

def flushes (c : Client τ) (plan : List WriteOutcome) : List (Occurrence τ ω) :=
  if c.queued = [] then [] else [.flushed c.serial (c.flush plan).1]

theorem finish_run (s : Session τ ω) (plan : List WriteOutcome) :
    (s.finish plan).2.history = flushes s.client plan ++ s.history ∧
    (s.finish plan).2.client.killed = s.client.killed ∧ (s.finish plan).1 ≠ .crash ∧
    ((s.finish plan).1 = .tearDown ↔ Refused s.client plan ∨ s.client.killed = true) := by
  rw [finish, flush_eq, flushes]
  by_cases idle : s.client.queued = []
  · have none : s.client.hasQueued = false := by
      simpa [idle] using s.client.hasQueued_iff.not
    have calm := not_refused_of_idle idle plan
    simp only [none, idle, calm]
    cases marked : s.client.killed <;> simp [marked]
  · rw [if_pos (s.client.hasQueued_iff.mpr idle), if_neg idle, refused_iff]
    cases ending : (s.client.flush plan).1.ending with
    | failed f => simp [wrote, note]
    | done | blocked => cases marked : s.client.killed <;> simp [wrote, note, marked]

theorem receive_result {c : Client τ} (usable : ∀ i, c.input = some i → i.Usable)
    (r : ReadOutcome) : ∃ space, 0 < space ∧ (c.receive r).result = r.delivered space := by
  cases there : c.input with
  | none =>
    refine ⟨Client.discardSize, by decide, ?_⟩
    rw [Client.receive, there]
  | some i =>
    obtain ⟨space, _, free, received, -⟩ := Client.received there (usable i there) r
    exact ⟨space, free, by rw [received]⟩

/-- A read gives the end of the stream or a fault just if the socket does. -/
theorem receive_iff {c : Client τ} (usable : ∀ i, c.input = some i → i.Usable) (r : ReadOutcome) :
    ((c.receive r).result = .ok [] ↔ r = .bytes []) ∧
      ∀ f, (c.receive r).result = .error f ↔ r = .fault f := by
  obtain ⟨space, free, result⟩ := receive_result usable r
  simp only [result]
  exact ⟨r.delivered_eq_nil_iff free, fun f => r.delivered_eq_error_iff⟩

/-- What a whole event comes to: its requests, what it flushed, and its verdict. -/
structure Ruled (h : Handler τ ω) (s : Session τ ω) (flags : Readiness) (r : ReadOutcome)
    (plan : List WriteOutcome) (served : Verdict × Session τ ω)
    (requests flushed : List (Occurrence τ ω)) (last : Moment τ ω) : Prop where
  noted : served.2.history = flushed ++ (requests.reverse ++ (s.reads flags r ++ s.history))
  asked : Asked h ⟨s.world, if flags.readable then (s.client.receive r).client else s.client⟩
    requests last
  some : requests ≠ [] ↔ flags.readable = true ∧
    (∃ b bytes, (s.client.receive r).result = .ok (b :: bytes)) ∧ s.client.killed = false
  continued : Continued requests
  due : Due flags (s.client.receive r).result requests → flushed = flushes last.client plan
  undue : ¬ Due flags (s.client.receive r).result requests → flushed = []
  crash : served.1 = .crash ↔ ComesTo .panicked requests
  tearDown : served.1 ≠ .crash → (served.1 = .tearDown ↔
    flags.readable = false ∧ flags.writable = false ∧
      (flags.hangUp = true ∨ flags.error = true) ∨
    Broken flags (s.client.receive r).result requests ∨
    Due flags (s.client.receive r).result requests ∧ Refused last.client plan ∨
    (flags.readable = true ∨ flags.writable = true) ∧ served.2.client.killed = true)

section Events

variable {flags : Readiness} {r : ReadOutcome} {os : List (Occurrence τ ω)} {u : Session τ ω}

theorem ruled_unready (readable : flags.readable = false) (writable : flags.writable = false)
    (plan : List WriteOutcome) :
    Ruled h s flags r plan (s.serve h flags r plan) [] [] ⟨s.world, s.client⟩ := by
  have undue : ¬ Due flags (s.client.receive r).result ([] : List (Occurrence τ ω)) := by
    simp [Due, readable, writable]
  rw [serve_unready readable writable]
  refine ⟨by simp [reads, readable], ?_, by simp [readable], continued_nil,
    fun due => absurd due undue, fun _ => rfl, ?_, fun _ => ?_⟩
  · rw [if_neg (by simp [readable])]
    exact .none _
  · simp only [not_comesTo_nil]
    split <;> simp
  · simp only [readable, writable, Broken, undue]
    split <;> simp_all

theorem ruled_keep (ready : flags.readable = true ∨ flags.writable = true)
    (hear : s.hear h flags r = (.keep, u)) (heard : Heard h s flags r .keep u os)
    (plan : List WriteOutcome) :
    Ruled h s flags r plan (s.serve h flags r plan) os (flushes u.client plan)
      ⟨u.world, u.client⟩ := by
  obtain ⟨noted, killed, calm, tearDown⟩ := u.finish_run plan
  have due : Due flags (s.client.receive r).result os := (heard.due_iff ready).mpr rfl
  have silent : ¬ ComesTo .panicked os := heard.crash.not.mp (by simp)
  have whole : ¬ Broken flags (s.client.receive r).result os := heard.tearDown.not.mp (by simp)
  rw [serve_of_keep ready hear plan]
  refine ⟨?_, heard.asked, heard.some, heard.continued, fun _ => rfl,
    fun undue => absurd due undue, ?_, fun _ => ?_⟩
  · rw [noted, heard.noted]
  · simp only [calm, silent]
  · simp only [killed, tearDown]
    grind

theorem ruled_over {v : Verdict} (ready : flags.readable = true ∨ flags.writable = true)
    (hear : s.hear h flags r = (v, u)) (ended : v ≠ .keep) (heard : Heard h s flags r v u os)
    (plan : List WriteOutcome) :
    Ruled h s flags r plan (s.serve h flags r plan) os [] ⟨u.world, u.client⟩ := by
  have due : Due flags (s.client.receive r).result os ↔ v = .keep := heard.due_iff ready
  rw [serve_of_ne_keep ready hear ended plan]
  refine ⟨?_, heard.asked, heard.some, heard.continued, fun goes => absurd (due.mp goes) ended,
    fun _ => rfl, heard.crash, ?_⟩
  · rw [heard.noted, List.nil_append]
  · intro alive
    have down : v = .tearDown := by cases v <;> simp_all
    have broken : Broken flags (s.client.receive r).result os := heard.tearDown.mp down
    simp only [down, broken, true_or, or_true]

theorem exists_ruled (h : Handler τ ω) (s : Session τ ω) (flags : Readiness) (r : ReadOutcome)
    (plan : List WriteOutcome) :
    ∃ requests flushed last,
      Ruled h s flags r plan (s.serve h flags r plan) requests flushed last := by
  cases ready : flags.readable || flags.writable with
  | false =>
    obtain ⟨readable, writable⟩ := Bool.or_eq_false_iff.mp ready
    exact ⟨[], [], _, ruled_unready readable writable plan⟩
  | true =>
    rw [Bool.or_eq_true] at ready
    obtain ⟨os, heard⟩ := exists_heard h s flags r
    rcases hear : s.hear h flags r with ⟨v, u⟩
    rw [hear] at heard
    by_cases keep : v = .keep
    · subst keep
      exact ⟨os, _, _, ruled_keep ready hear heard plan⟩
    · exact ⟨os, [], _, ruled_over ready hear keep heard plan⟩

end Events

/-- An event comes to one read, to requests and to one flush, each just when it is due. The
connection is torn down just for a hang-up or an error alone, an end or a fault of the read, a
failed request or write, or a mark. -/
theorem verdicts_run (h : Handler τ ω) (s : Session τ ω) (flags : Readiness) (r : ReadOutcome)
    (plan : List WriteOutcome) :
    let got := (s.client.receive r).result
    let verdict := (s.serve h flags r plan).1
    let t := (s.serve h flags r plan).2
    ∃ (requests flushed : List (Occurrence τ ω)) (last : Moment τ ω),
      t.history = flushed ++ (requests.reverse ++ (s.reads flags r ++ s.history)) ∧
      Asked h ⟨s.world, if flags.readable then (s.client.receive r).client else s.client⟩
        requests last ∧
      (requests ≠ [] ↔ flags.readable = true ∧ (∃ b bytes, got = .ok (b :: bytes)) ∧
        s.client.killed = false) ∧
      Continued requests ∧
      (Due flags got requests → flushed = flushes last.client plan) ∧
      (¬ Due flags got requests → flushed = []) ∧
      (verdict = .crash ↔ ComesTo .panicked requests) ∧
      (verdict ≠ .crash → (verdict = .tearDown ↔
        flags.readable = false ∧ flags.writable = false ∧
          (flags.hangUp = true ∨ flags.error = true) ∨
        Broken flags got requests ∨
        Due flags got requests ∧ Refused last.client plan ∨
        (flags.readable = true ∨ flags.writable = true) ∧ t.client.killed = true)) ∧
      ((∀ i, s.client.input = some i → i.Usable) →
        (got = .ok [] ↔ r = .bytes []) ∧ ∀ f, got = .error f ↔ r = .fault f) := by
  intro got verdict t
  obtain ⟨requests, flushed, last, ruled⟩ := exists_ruled h s flags r plan
  exact ⟨requests, flushed, last, ruled.noted, ruled.asked, ruled.some, ruled.continued, ruled.due,
    ruled.undue, ruled.crash, ruled.tearDown, fun usable => receive_iff usable r⟩

/-- Two bytes are read and each is answered, but the second write of the flush takes nothing. -/
theorem verdicts_run_refused :
    let k : Script := { frame := 1, frame_pos := Nat.one_pos, action := fun _ => .echo }
    let c : ScriptClient :=
      { descriptor := 6, serial := 0, tag := [], inputCapacity := 4, outputCapacity := 4
        input := some (.ofCapacity 4), output := some {} }
    let plan : List WriteOutcome := [.fault .interrupted, .accepts 0]
    let served := Session.serve k.handler ⟨{}, c, []⟩ { readable := true } (.bytes [1, 2]) plan
    served.1 = .tearDown ∧ served.2.client.killed = false ∧
      ∃ (requests : List (Occurrence (List UInt8) ScriptLog))
        (last : Moment (List UInt8) ScriptLog),
        Asked k.handler ⟨{}, (c.receive (.bytes [1, 2])).client⟩ requests last ∧
        requests ≠ [] ∧ ¬ Broken { readable := true } (.ok [1, 2]) requests ∧
        Refused last.client plan := by
  intro k c plan served
  have torn : served.1 = .tearDown := by decide +kernel
  have unmarked : served.2.client.killed = false := by decide +kernel
  have calm : ¬ ComesTo .failed served.2.history := by
    unfold ComesTo
    decide +kernel
  obtain ⟨requests, flushed, last, noted, asked, some, -, -, -, -, tearDown, -⟩ :=
    verdicts_run k.handler ⟨{}, c, []⟩ { readable := true } (.bytes [1, 2]) plan
  have whole : ¬ Broken { readable := true } (.ok [1, 2]) requests := by
    rintro ⟨-, (closing | ⟨f, closing, -⟩) | failed⟩
    · cases closing
    · cases closing
    · refine calm ?_
      simp only [served, noted, ComesTo, List.filterMap_append, List.filterMap_reverse,
        List.mem_append, List.mem_reverse]
      exact .inr (.inl failed)
  refine ⟨torn, unmarked, requests, last, asked, some.mpr ⟨rfl, ⟨1, [2], rfl⟩, rfl⟩, whole, ?_⟩
  have alive : served.1 ≠ .crash := by
    rw [torn]
    simp
  rcases (tearDown alive).mp torn with
    ⟨none, -⟩ | broken | ⟨-, refused⟩ | ⟨-, marked⟩
  · cases none
  · exact absurd broken whole
  · exact refused
  · exact absurd (marked.symm.trans unmarked) (by decide)

end Session

end RenderBroker
