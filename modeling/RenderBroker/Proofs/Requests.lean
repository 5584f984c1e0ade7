import Mathlib.Data.List.Induction
import RenderBroker.Proofs.Contexts

namespace RenderBroker

open BackendCall Occurrence

/-- What a client has come to, and the calls that were made for it. -/
structure Conduct where
  tag : Option ContextHandle := none
  killed : Bool := false
  calls : List BackendCall := []

namespace Conduct

variable {fd : Descriptor} {opts : RenderOptions} {raw : Int64} {bytes : List UInt8}

/-- The first 1 creates a context, for which the backend answers `raw`. All other bytes do nothing,
and none is looked at when the client has been marked. -/
def hear (fd : Descriptor) (opts : RenderOptions) (raw : Int64) (k : Conduct) (code : UInt8) :
    Conduct :=
  if code = 1 ∧ k.tag = none ∧ k.killed = false then
    { tag := ContextHandle.ofRaw? raw
      killed := raw ≤ 0
      calls := k.calls ++ [.create fd opts raw] }
  else k

def of (fd : Descriptor) (opts : RenderOptions) (raw : Int64) (bytes : List UInt8) : Conduct :=
  bytes.foldl (hear fd opts raw) {}

theorem of_append (code : UInt8) :
    of fd opts raw (bytes ++ [code]) = (of fd opts raw bytes).hear fd opts raw code := by
  simp [of]

theorem hear_eq_self {k : Conduct} {code : UInt8} (nothing : code = 1 → k.tag ≠ none) :
    k.hear fd opts raw code = k :=
  if_neg fun asks => nothing asks.1 asks.2.1

theorem le_of_none (absent : ContextHandle.ofRaw? raw = none) : raw ≤ 0 := by
  rw [ContextHandle.ofRaw?] at absent
  split at absent
  · cases absent
  · next low => exact Int64.not_lt.mp low

theorem isNone_ofRaw? (raw : Int64) : (ContextHandle.ofRaw? raw).isNone = decide (raw ≤ 0) := by
  rw [ContextHandle.ofRaw?]
  split
  · next high => simpa using high
  · next low => simpa using low

theorem of_eq (fd : Descriptor) (opts : RenderOptions) (raw : Int64) (bytes : List UInt8) :
    of fd opts raw bytes =
      if 1 ∈ bytes then ⟨ContextHandle.ofRaw? raw, raw ≤ 0, [.create fd opts raw]⟩ else {} := by
  induction bytes using List.reverseRecOn with
  | nil => rfl
  | append_singleton bytes code ih =>
    rw [of_append, ih]
    by_cases before : 1 ∈ bytes
    · have after : 1 ∈ bytes ++ [code] := List.mem_append_left _ before
      rw [if_pos before, if_pos after]
      apply if_neg
      intro ⟨_, absent, unmarked⟩
      have marked := le_of_none absent
      simp [marked] at unmarked
    · rw [if_neg before]
      by_cases asks : code = 1
      · have after : 1 ∈ bytes ++ [code] := by simp [asks]
        rw [if_pos after]
        exact if_pos ⟨asks, rfl, rfl⟩
      · have after : 1 ∉ bytes ++ [code] := by simp [before, Ne.symm asks]
        rw [if_neg after]
        exact if_neg fun h => asks h.1

end Conduct

/-- The client is what its bytes make of it for some answer of the backend, and so are the calls. -/
def Follows (opts : RenderOptions) (c : RenderClient) (cs : List BackendCall)
    (bytes : List UInt8) : Prop :=
  ∃ raw, cs = (Conduct.of c.descriptor opts raw bytes).calls ∧
    c.tag = (Conduct.of c.descriptor opts raw bytes).tag ∧
    c.killed = (Conduct.of c.descriptor opts raw bytes).killed

variable {opts : RenderOptions} {b w : Bridge} {c back : RenderClient} {cs : List BackendCall}
  {bytes : List UInt8}

theorem Follows.fresh (follows : Follows opts c cs bytes) (unmarked : c.killed = false)
    (empty : c.tag = none) : cs = [] ∧ 1 ∉ bytes := by
  obtain ⟨raw, calls, tag, killed⟩ := follows
  rw [Conduct.of_eq] at calls tag killed
  by_cases before : 1 ∈ bytes
  · rw [if_pos before] at tag killed
    have marked := Conduct.le_of_none (tag.symm.trans empty)
    rw [unmarked] at killed
    simp [marked] at killed
  · rw [if_neg before] at calls
    exact ⟨calls, before⟩

theorem Follows.hear {code : UInt8} (follows : Follows opts c cs bytes)
    (unmarked : c.killed = false) (same : back.descriptor = c.descriptor)
    (reaction : Renderer.Reaction opts b c (some code) w back) :
    Follows opts back (cs ++ w.callsSince b) (bytes ++ [code]) := by
  cases reaction with
  | passed nothing calls tag killed =>
    obtain ⟨raw, before⟩ := follows
    have silent : w.callsSince b = [] := Bridge.callsSince_eq [] calls
    have nothing : code = 1 → (Conduct.of c.descriptor opts raw bytes).tag ≠ none :=
      fun asks => before.2.1 ▸ nothing (congrArg some asks)
    refine ⟨raw, ?_⟩
    rw [silent, List.append_nil, same, Conduct.of_append, Conduct.hear_eq_self nothing, tag, killed]
    exact before
  | asked raw asks empty calls tag killed =>
    obtain ⟨calm, first⟩ := follows.fresh unmarked empty
    have one : w.callsSince b = [.create c.descriptor opts raw] := Bridge.callsSince_eq [_] calls
    have there : 1 ∈ bytes ++ [code] := by simp [Option.some.inj asks]
    refine ⟨raw, ?_⟩
    rw [one, calm, same, Conduct.of_eq, if_pos there, tag, killed, unmarked, Conduct.isNone_ofRaw?]
    exact ⟨rfl, rfl, Bool.false_or _⟩

structure Ready (c : RenderClient) : Prop where
  unmarked : c.killed = false
  silent : c.output = none
  empty : ∃ s, c.input = some s ∧ s.capacity = 1 ∧ s.available = 0

def InputStream.one (bytes : List UInt8) : InputStream :=
  { capacity := 1, buffer := bytes.toArray }

theorem InputStream.fillGrowing_one {s : InputStream} (capacity : s.capacity = 1)
    (empty : s.available = 0) (r : ReadOutcome) :
    s.fillGrowing r =
      match r.delivered 1 with
      | .ok bytes => ⟨.ok bytes, some 1, .one bytes⟩
      | .error f => ⟨.error (.fault f), some 1, .one []⟩ := by
  have compacted : s.compact = .one [] := by
    obtain ⟨n, buffer, position⟩ := s
    simp only [available, limit] at empty
    simp only [compact, one, limit] at capacity ⊢
    rw [capacity, Array.extract_empty_of_size_le_start (by omega)]
  have room : s.isFull = false := by simp [isFull, capacity, empty]
  rw [fillGrowing, room]
  simp only [Bool.false_eq_true, if_false, fill, compacted]
  cases r with
  | bytes arrived =>
    simp [ReadOutcome.delivered, one, limit, append]
  | fault f => simp [ReadOutcome.delivered, one, limit]

theorem Session.drain_spent (opts : RenderOptions) {s : Session (Option ContextHandle) Bridge}
    {t : InputStream} (there : s.client.input = some t) (empty : t.available = 0) :
    ∃ os, s.drain (Renderer.handler opts) = (.keep, { s with history := os }) ∧
      called os = called s.history ∧ received os = received s.history := by
  by_cases marked : s.client.killed = true
  · exact ⟨s.history, drain_marked _ marked, rfl, rfl⟩
  · have asked := Renderer.request_idle (o := opts) (b := s.world) there empty
    have quiet := drain_idle (by simpa using marked) asked
    refine ⟨(s.requested .idle s.world s.client).history, ?_, ?_, ?_⟩
    · rw [quiet, requested, Client.returned_self]
    · have silent : s.world.callsSince s.world = [] := Bridge.callsSince_eq [] rfl
      exact (called_cons _ _).trans ((congrArg _ silent).trans (List.append_nil _))
    · exact received_cons_silent rfl _

namespace Ready

theorem receive (ready : Ready c) (r : ReadOutcome) :
    c.receive r =
      match r.delivered 1 with
      | .ok bytes => ⟨.ok bytes, some 1, { c with input := some (.one bytes) }⟩
      | .error f => ⟨.error f, some 1, { c with input := some (.one []) }⟩ := by
  obtain ⟨s, there, capacity, empty⟩ := ready.empty
  rw [Client.receive, there]
  simp only [InputStream.fillGrowing_one capacity empty r]
  cases r.delivered 1 <;> rfl

theorem emptied (ready : Ready c) : Ready { c with input := some (.one []) } :=
  ⟨ready.unmarked, ready.silent, _, rfl, rfl, rfl⟩

theorem drain (ready : Ready c) (opts : RenderOptions) (b : Bridge) (code : UInt8)
    (os : List (Occurrence (Option ContextHandle) Bridge)) :
    ∃ s, Session.drain (Renderer.handler opts)
        ⟨b, { c with input := some (.one [code]) }, os⟩ = (.keep, s) ∧
      s.client.descriptor = c.descriptor ∧
      Renderer.Reaction opts b c (some code) s.world s.client ∧
      called s.history = called os ++ s.world.callsSince b ∧ received s.history = received os ∧
      (s.client.killed = false → Ready s.client) ∧ s.client.output = none := by
  let t : InputStream := { InputStream.one [code] with position := 1 }
  rcases performed : Renderer.perform opts b { c with input := some t } code with ⟨w, back⟩
  have reaction := Renderer.reaction_perform opts b { c with input := some t } code
  have input := Renderer.input_perform opts b { c with input := some t } code
  have output := Renderer.output_perform opts b { c with input := some t } code
  rw [performed] at reaction input output
  have silent := output.trans ready.silent
  let s := Session.requested ⟨b, { c with input := some (.one [code]) }, os⟩ .served w back
  have killed : s.client.killed = back.killed := by
    simp [s, Session.requested, ready.unmarked]
  -- the buffer held one byte, so the handler finds nothing when it is asked again
  obtain ⟨ps, spent, calls, bytes⟩ := Session.drain_spent opts (s := s) input rfl
  rw [Session.drain_served ready.unmarked (congrArg (RequestEnd.served, ·) performed)]
  refine ⟨_, spent, rfl, reaction.congr rfl rfl killed, ?_, ?_, ?_, silent⟩
  · exact calls.trans (called_cons _ _)
  · exact bytes.trans (received_cons_silent rfl _)
  · intro unmarked
    exact ⟨unmarked, silent, t, input, rfl, rfl⟩

theorem receive_session (ready : Ready c) (opts : RenderOptions) (b : Bridge) (r : ReadOutcome) :
    Session.receive (Renderer.handler opts) ⟨b, c, []⟩ r =
      match r with
      | .bytes [] =>
        (.tearDown, ⟨b, { c with input := some (.one []) }, [.read c.serial (some 1) (.ok [])]⟩)
      | .bytes (code :: _) =>
        Session.drain (Renderer.handler opts)
          ⟨b, { c with input := some (.one [code]) }, [.read c.serial (some 1) (.ok [code])]⟩
      | .fault f =>
        (if f.isTransient then .keep else .tearDown,
          ⟨b, { c with input := some (.one []) }, [.read c.serial (some 1) (.error f)]⟩) := by
  rw [Session.receive_eq, Session.heard, ready.receive r]
  cases r with
  | bytes arrived => cases arrived <;> rfl
  | fault f =>
    simp only [ReadOutcome.delivered]
    split <;> rfl

theorem serve {flags : Readiness} {r : ReadOutcome} {plan : List WriteOutcome} {v : Verdict}
    {s : Session (Option ContextHandle) Bridge} (ready : Ready c)
    (served : Session.serve (Renderer.handler opts) ⟨b, c, []⟩ flags r plan = (v, s))
    (follows : Follows opts c cs bytes) :
    Follows opts s.client (cs ++ called s.history) (bytes ++ received s.history) ∧
      (v = .keep → Ready s.client) := by
  have unserved : Follows opts c (cs ++ []) (bytes ++ []) := by simpa using follows
  rw [Session.serve] at served
  cases readable : flags.readable with
  | false =>
    simp only [readable, Bool.false_eq_true, if_false,
      Session.finish_silent (s := ⟨b, c, []⟩) ready.silent, ready.unmarked] at served
    split at served
    · cases served
      exact ⟨unserved, fun _ => ready⟩
    · split at served
      · cases served
        exact ⟨unserved, by simp⟩
      · cases served
        exact ⟨unserved, fun _ => ready⟩
  | true =>
    have emptied := ready.emptied
    have first := ready.receive_session opts b r
    rw [readable, if_pos rfl] at served
    rcases r with (_ | ⟨code, rest⟩) | f
    · rw [first] at served
      cases served
      exact ⟨unserved, by simp⟩
    · obtain ⟨t, drained, same, reaction, calls, heard, next, silent⟩ :=
        ready.drain opts b code [.read c.serial (some 1) (.ok [code])]
      rw [first.trans drained] at served
      simp only [Session.finish_silent silent] at served
      cases served
      rw [calls, heard]
      refine ⟨follows.hear ready.unmarked same reaction, ?_⟩
      intro keep
      apply next
      simpa using keep
    · dsimp only at first
      by_cases transient : f.isTransient = true
      · rw [first, if_pos transient] at served
        simp only [Session.finish_silent (s := ⟨b, _, _⟩) emptied.silent] at served
        cases served
        exact ⟨unserved, fun _ => emptied⟩
      · rw [first, if_neg transient] at served
        cases served
        exact ⟨unserved, by simp⟩

end Ready

/-- An open connection follows its bytes and is ready for more. One that was closed has followed
them to the end, and then had its context destroyed. -/
def Conducted (opts : RenderOptions) (os : List (Occurrence (Option ContextHandle) Bridge)) :
    Option RenderClient → Prop
  | some c => Follows opts c (called os) (received os) ∧ Ready c
  | none => called os = [] ∧ received os = [] ∧ callbacks os = [] ∨
    ∃ before after ps, os = .closed before after :: ps ∧
      Follows opts before.client (called ps) (received os) ∧
      called os = called ps ++ (before.client.tag.map BackendCall.destroy).toList

theorem Follows.close {ps : List (Occurrence (Option ContextHandle) Bridge)} (b : Bridge)
    (follows : Follows opts c (called ps) (received ps)) :
    Conducted opts (.closed ⟨b, c⟩ ((Renderer.handler opts).closed b c) :: ps) none := by
  refine .inr ⟨_, _, ps, rfl, ?_, ?_⟩
  · simpa [received_cons, Occurrence.bytes] using follows
  · rw [called_cons, calls_closed]

theorem Life.conducted {n : Nat} {c : Option RenderClient}
    {os : List (Occurrence (Option ContextHandle) Bridge)}
    (life : Life (Renderer.handler opts) Renderer.inputCapacity Renderer.outputCapacity n c os) :
    Conducted opts os c := by
  induction life with
  | absent => exact .inl ⟨rfl, rfl, rfl⟩
  | declined => exact .inl ⟨rfl, rfl, rfl⟩
  | opened guest asked =>
    have calls := calls_opened asked
    rw [guest, Renderer.opened_guest] at asked
    cases asked
    subst guest
    refine ⟨⟨0, ?_⟩, rfl, rfl, _, rfl, rfl, rfl⟩
    rw [called_cons, calls]
    exact ⟨rfl, rfl, rfl⟩
  | kept life served ih =>
    obtain ⟨follows, next⟩ := ih.2.serve served ih.1
    rw [Conducted, called_append, received_append]
    exact ⟨follows, next rfl⟩
  | torn life served ih =>
    obtain ⟨follows, -⟩ := ih.2.serve served ih.1
    rw [← called_append, ← received_append] at follows
    exact follows.close _
  | stopped life ih => exact ih.1.close _

namespace EventLoop

variable {listener waker : Descriptor} {waits : List Wait}

/-- However the bytes of a client arrive, the client and the calls for it are what the reference
makes of the bytes received so far. Between events its buffer of one byte is empty. -/
theorem requests_run
    (fresh : EachAccepted (Renderer.handler opts) Free (Renderer.loop listener waker b) waits)
    (clearing : Clearing) :
    let l := Renderer.loop listener waker b
    let m := l.wait (Renderer.handler opts) waits
    let k := l.run (Renderer.handler opts) waits clearing
    (∀ c ∈ m.clients,
      Follows opts c (called (own c.serial m.history)) (received (own c.serial m.history)) ∧
      c.killed = false ∧ ∃ s, c.input = some s ∧ s.capacity = 1 ∧ s.unread = []) ∧
    ∀ n, called (own n k.history) = [] ∧ received (own n k.history) = [] ∧
        callbacks (own n k.history) = [] ∨
      ∃ before after os, own n k.history = .closed before after :: os ∧
        Follows opts before.client (called os) (received (own n k.history)) ∧
        called (own n k.history) =
          called os ++ (before.client.tag.map BackendCall.destroy).toList := by
  intro l m k
  have lives := Renderer.lives_of_moves (m := m) (moves_wait fresh)
  have ended := Renderer.lives_of_moves (m := k) (moves_run fresh clearing)
  have empty : k.clients = [] := clients_run ..
  refine ⟨?_, ?_⟩
  · intro c member
    obtain ⟨follows, ready⟩ := (lives.inside c member).conducted
    obtain ⟨s, there, capacity, empty⟩ := ready.empty
    refine ⟨follows, ready.unmarked, s, there, capacity, ?_⟩
    rw [← List.length_eq_zero_iff, s.length_unread]
    exact empty
  · intro n
    exact (ended.outside n (by simp [empty])).conducted

/-- The bytes 9, 1 and 1 come one by one, with nothing to read in between, and create one context;
another client asks at once with all of its bytes and gets none. -/
theorem requests_run_chopped :
    let waits : List Wait :=
      [.events
        [{ descriptor := 3, accepts := [.connection 6 true true, .connection 7 true true] },
          { descriptor := 6, flags := { readable := true }, read := .bytes [9, 1, 1] },
          { descriptor := 6, flags := { readable := true }, read := .fault .wouldBlock },
          { descriptor := 6, flags := { readable := true }, read := .bytes [1, 1] },
          { descriptor := 7, flags := { readable := true }, read := .bytes [1, 1] },
          { descriptor := 6, flags := { readable := true }, read := .bytes [1] }]]
    let b : Bridge := { backend := { creates := some [7, -1] } }
    let m := (Renderer.loop 3 5 b).wait (Renderer.handler {}) waits
    received (own 0 m.history) = [9, 1, 1] ∧ m.clients.map Client.serial = [0] ∧
      ∀ c ∈ m.clients, Follows {} c (called (own c.serial m.history))
        (received (own c.serial m.history)) := by
  intro waits b m
  have fresh : EachAccepted (Renderer.handler {}) Free (Renderer.loop 3 5 b) waits := by
    decide +kernel
  obtain ⟨follow, -⟩ := requests_run fresh {}
  exact ⟨by decide +kernel, by decide +kernel, fun c member => (follow c member).1⟩

end EventLoop

end RenderBroker
