import RenderBroker.Proofs.Callbacks

namespace RenderBroker

variable {τ ω : Type} {h : Handler τ ω}

namespace Occurrence

def Marks : Occurrence τ ω → Prop
  | .requested e _ after => e ≠ .panicked ∧ after.client.killed = true
  | _ => False

def nextCallback? (later : List (Occurrence τ ω)) : Option (Occurrence τ ω) :=
  later.reverse.find? fun o => o.callback?.isSome

theorem nextCallback?_append (os ps : List (Occurrence τ ω)) :
    nextCallback? (os ++ ps) = (nextCallback? ps).or (nextCallback? os) := by
  rw [nextCallback?, List.reverse_append, List.find?_append]
  rfl

theorem nextCallback?_cons_quiet {o : Occurrence τ ω} (quiet : o.callback? = none)
    (os : List (Occurrence τ ω)) : nextCallback? (o :: os) = nextCallback? os := by
  simp [nextCallback?, quiet]

/-- Every request that marks its client is followed by the closing of that client, with no callback
in between. -/
def Honoured (os : List (Occurrence τ ω)) : Prop :=
  ∀ later o earlier, os = later ++ o :: earlier → Marks o →
    ∃ m w, nextCallback? later = some (.closed m w) ∧ m.client.serial = o.serial

variable {os ps : List (Occurrence τ ω)}

theorem honoured_of_unmarked (unmarked : ∀ o ∈ os, ¬ Marks o) : Honoured os := by
  intro later o earlier split marks
  have there : o ∈ os := by simp [split]
  exact absurd marks (unmarked o there)

theorem Honoured.append (first : Honoured ps) (second : Honoured os) : Honoured (os ++ ps) := by
  intro later o earlier split marks
  -- a closing that follows within the earlier part still comes first when more is noted down
  rcases List.append_eq_append_iff.mp split with ⟨mid, hl, hp⟩ | ⟨mid, ho, he⟩
  · obtain ⟨m, w, next, same⟩ := first mid o earlier hp marks
    refine ⟨m, w, ?_, same⟩
    rw [hl, nextCallback?_append, next]
    rfl
  · rcases List.cons_eq_append_iff.mp he with ⟨hm, hp⟩ | ⟨mid, hm, -⟩
    · obtain ⟨m, w, next, -⟩ := first [] o earlier hp marks
      cases next
    · exact second later o mid (hm ▸ ho) marks

/-- No callback comes after a request that marks its client. -/
def Final (os : List (Occurrence τ ω)) : Prop :=
  ∀ later o earlier, os = later ++ o :: earlier → Marks o → nextCallback? later = none

theorem Final.cons_quiet {o : Occurrence τ ω} (final : Final os) (quiet : o.callback? = none) :
    Final (o :: os) := by
  intro later p earlier split marks
  rcases List.cons_eq_append_iff.mp split with ⟨hl, hp⟩ | ⟨later', hl, hp⟩
  · rw [hl]
    rfl
  · rw [hl, nextCallback?_cons_quiet quiet]
    exact final later' p earlier hp marks

theorem Final.close {m : Moment τ ω} (final : Final os) (own : ∀ o ∈ os, o.serial = m.client.serial)
    (w : ω) : Honoured (.closed m w :: os) := by
  intro later o earlier split marks
  rcases List.cons_eq_append_iff.mp split with ⟨-, ho⟩ | ⟨later', hl, hp⟩
  · cases ho
    exact marks.elim
  · have there : o ∈ os := by simp [hp]
    refine ⟨m, w, ?_, (own o there).symm⟩
    rw [hl, ← List.singleton_append, nextCallback?_append, final later' o earlier hp marks]
    rfl

end Occurrence

open Occurrence

namespace Session

variable {s t : Session τ ω}

/-- A request that has marked the client is the last one so far. -/
structure Settled (s : Session τ ω) : Prop where
  final : Final s.history
  marked : ∀ o ∈ s.history, Marks o → s.client.killed = true

theorem Step.settled (settled : Settled s) (step : Step h s t) : Settled t := by
  cases step with
  | read r =>
    refine ⟨settled.final.cons_quiet rfl, ?_⟩
    intro o ho marks
    rcases List.mem_cons.mp ho with rfl | ho
    · exact marks.elim
    · exact (s.client.killed_receive r).trans (settled.marked o ho marks)
  | @request e w back unmarked asked calm =>
    have before : ∀ o ∈ s.history, ¬ Marks o := by
      intro o ho marks
      simp [settled.marked o ho marks] at unmarked
    refine ⟨?_, ?_⟩
    · intro later o earlier split marks
      rcases List.cons_eq_append_iff.mp split with ⟨hl, -⟩ | ⟨later', -, hp⟩
      · rw [hl]
        rfl
      · exact absurd marks (before o (by simp [hp]))
    · intro o ho marks
      rcases List.mem_cons.mp ho with rfl | ho
      · exact marks.2
      · exact absurd marks (before o ho)
  | flush plan =>
    refine ⟨settled.final.cons_quiet rfl, ?_⟩
    intro o ho marks
    rcases List.mem_cons.mp ho with rfl | ho
    · exact marks.elim
    · exact (s.client.killed_flush plan).trans (settled.marked o ho marks)

theorem Path.settled (path : Path h s t) (start : s.history = []) : Settled t := by
  induction path with
  | refl =>
    refine ⟨?_, by simp [start]⟩
    intro later o earlier split
    simp [start] at split
  | tail _ step ih => exact step.settled ih

theorem Step.killed (step : Step h s t) (marked : s.client.killed = true) :
    t.client.killed = true := by
  cases step with
  | read r => exact (s.client.killed_receive r).trans marked
  | request unmarked => simp [marked] at unmarked
  | flush plan => exact (s.client.killed_flush plan).trans marked

theorem Path.killed (path : Path h s t) (marked : s.client.killed = true) :
    t.client.killed = true := by
  induction path with
  | refl => exact marked
  | tail _ step ih => exact step.killed ih

theorem unmarked_of_finish {plan : List WriteOutcome} (finished : s.finish plan = (.keep, t)) :
    t.client.killed = false := by
  rw [finish] at finished
  rcases flushed : s.flush plan with ⟨v, u⟩
  rw [flushed] at finished
  cases v with
  | keep =>
    cases marked : u.client.killed with
    | true => simp [marked] at finished
    | false =>
      simp only [marked, Bool.false_eq_true, if_false] at finished
      cases finished
      exact marked
  | tearDown => cases finished
  | crash => cases finished

/-- A client that is kept is not marked, unless nothing was done for it. -/
theorem unmarked_of_kept {flags : Readiness} {r : ReadOutcome} {plan : List WriteOutcome}
    (served : s.serve h flags r plan = (.keep, t)) : t = s ∨ t.client.killed = false := by
  rw [serve] at served
  split at served
  · rcases received : s.receive h r with ⟨v, u⟩
    rw [received] at served
    cases v with
    | keep => exact .inr (unmarked_of_finish served)
    | tearDown => cases served
    | crash => cases served
  · split at served
    · exact .inr (unmarked_of_finish served)
    · split at served
      · cases served
      · cases served
        exact .inl rfl

theorem panicked_of_drain (crashed : s.drain h = (.crash, t)) :
    ∃ u w back, Path h s u ∧ u.client.killed = false ∧
      h.request u.world u.client = (.panicked, w, back) ∧ t = u.requested .panicked w back := by
  fun_induction drain h s with
  | case1 => cases crashed
  | case2 => cases crashed
  | case3 s unmarked w back asked ih =>
    obtain ⟨u, w', back', path, last⟩ := ih crashed
    exact ⟨u, w', back', .head (.request (by simpa using unmarked) asked (by simp)) path, last⟩
  | case4 => cases crashed
  | case5 s unmarked w back asked =>
    cases crashed
    exact ⟨s, w, back, .refl, by simpa using unmarked, asked, rfl⟩

theorem panicked_of_crash {flags : Readiness} {r : ReadOutcome} {plan : List WriteOutcome}
    (served : s.serve h flags r plan = (.crash, t)) :
    ∃ u w back, Path h s u ∧ u.client.killed = false ∧
      h.request u.world u.client = (.panicked, w, back) ∧ t = u.requested .panicked w back := by
  have finished (u : Session τ ω) : u.finish plan ≠ (.crash, t) :=
    fun crashed => finish_calm u plan (congrArg Prod.fst crashed)
  rw [serve] at served
  split at served
  · rcases received : s.receive h r with ⟨v, u⟩
    rw [received] at served
    cases v with
    | keep => exact absurd served (finished u)
    | tearDown => cases served
    | crash =>
      cases served
      rw [receive_eq] at received
      split at received
      · cases received
      · obtain ⟨u, w, back, path, last⟩ := panicked_of_drain received
        exact ⟨u, w, back, .head (.read r) path, last⟩
      · split at received <;> cases received
  · split at served
    · exact absurd served (finished s)
    · split at served <;> cases served

theorem not_marks_of_keep {flags : Readiness} {r : ReadOutcome} {plan : List WriteOutcome}
    (served : s.serve h flags r plan = (.keep, t)) (start : s.history = []) :
    ∀ o ∈ t.history, ¬ Marks o := by
  intro o ho marks
  have path := path_of_serve served (by simp)
  rcases unmarked_of_kept served with rfl | kept
  · simp [start] at ho
  · simp [(Path.settled path start).marked o ho marks] at kept

theorem not_marks_of_crash {flags : Readiness} {r : ReadOutcome} {plan : List WriteOutcome}
    (served : s.serve h flags r plan = (.crash, t)) (start : s.history = []) :
    ∀ o ∈ t.history, ¬ Marks o := by
  -- only the last request panics, and it would not have been made for a marked client
  obtain ⟨u, w, back, path, unmarked, -, rfl⟩ := panicked_of_crash served
  intro o ho marks
  rcases List.mem_cons.mp ho with rfl | ho
  · exact marks.1 rfl
  · simp [(Path.settled path start).marked o ho marks] at unmarked

theorem own_of_serve {flags : Readiness} {r : ReadOutcome} {plan : List WriteOutcome} {v : Verdict}
    (served : s.serve h flags r plan = (v, t)) (start : s.history = []) :
    t.client.descriptor = s.client.descriptor ∧ t.client.serial = s.client.serial ∧
      ∀ o ∈ t.history, o.serial = s.client.serial := by
  have along {u : Session τ ω} (path : Path h s u) :
      u.client.descriptor = s.client.descriptor ∧ u.client.serial = s.client.serial ∧
        ∀ o ∈ u.history, o.serial = s.client.serial :=
    ⟨Path.descriptor path, Path.serial path, Path.own path start⟩
  cases v with
  | keep => exact along (path_of_serve served (by simp))
  | tearDown => exact along (path_of_serve served (by simp))
  | crash =>
    obtain ⟨u, w, back, path, -, -, rfl⟩ := panicked_of_crash served
    obtain ⟨descriptor, serial, own⟩ := along path
    refine ⟨descriptor, serial, ?_⟩
    intro o ho
    rcases List.mem_cons.mp ho with rfl | ho
    · exact serial
    · exact own o ho

end Session

namespace EventLoop

variable {l m : EventLoop τ ω} {waits : List Wait}

theorem client?_update {b c : Client τ} (found : l.client? c.descriptor = some b) :
    (l.update c).client? c.descriptor = some c := by
  have same : ((fun a => a.descriptor == c.descriptor) ∘
      fun a : Client τ => if a.descriptor = c.descriptor then c else a) =
        fun a => a.descriptor == c.descriptor := by
    funext a
    by_cases ha : a.descriptor = c.descriptor <;> simp [ha]
  rw [client?] at found ⊢
  rw [update, List.find?_map, same, found]
  exact congrArg some (if_pos (client?_eq_some found).2)

theorem client?_absorb {c : Client τ} {s : Session τ ω} {d : Descriptor}
    (found : l.client? d = some c) (same : s.client.descriptor = d) :
    (l.absorb s).client? d = some s.client :=
  same ▸ client?_update (same ▸ found)

structure Notes (l m : EventLoop τ ω) (os : List (Occurrence τ ω)) : Prop where
  history : m.history = os ++ l.history
  honoured : Honoured os

theorem notes_nothing (same : m.history = l.history) : Notes l m [] :=
  ⟨same, honoured_of_unmarked (by simp)⟩

theorem notes_crash (l : EventLoop τ ω) : ∃ os, Notes l l.crash os := by
  refine ⟨_, rfl, honoured_of_unmarked ?_⟩
  intro o ho marks
  obtain ⟨c, -, rfl⟩ := List.mem_map.mp ho
  exact marks

theorem Notes.trans {k : EventLoop τ ω} {os ps : List (Occurrence τ ω)} (first : Notes l m os)
    (second : Notes m k ps) : Notes l k (ps ++ os) := by
  refine ⟨?_, first.honoured.append second.honoured⟩
  rw [second.history, first.history, List.append_assoc]

theorem notes_register {d : Descriptor} (setUp watched : Bool) :
    ∃ os, Notes l (l.register h d setUp watched) os := by
  rw [register]
  dsimp only
  split
  · cases asked : h.opened l.world (l.newcomer h d) with
    | none =>
      let k := EventLoop.note { l with nextSerial := l.nextSerial + 1 }
        (.abandoned (l.newcomer h d))
      have first : Notes l k [.abandoned (l.newcomer h d)] :=
        ⟨rfl, honoured_of_unmarked (by simp [Marks])⟩
      obtain ⟨os, second⟩ := notes_crash k
      exact ⟨_, first.trans second⟩
    | some r => exact ⟨[_], rfl, honoured_of_unmarked (by simp [Marks])⟩
  · exact ⟨[_], rfl, honoured_of_unmarked (by simp [Marks])⟩

theorem notes_serveClient (h : Handler τ ω) (l : EventLoop τ ω) (e : Event) :
    ∃ os, Notes l (l.serveClient h e) os := by
  cases found : l.client? e.descriptor with
  | none =>
    rw [serveClient_of_none found]
    exact ⟨[], notes_nothing rfl⟩
  | some c =>
    obtain ⟨-, hd⟩ := client?_eq_some found
    rcases served : Session.serve h ⟨l.world, c, []⟩ e.flags e.read e.writes with ⟨v, s⟩
    have absorbed (unmarked : Honoured s.history) : Notes l (l.absorb s) s.history :=
      ⟨rfl, unmarked⟩
    rw [serveClient_eq found served]
    cases v with
    | keep =>
      have unmarked := Session.not_marks_of_keep served rfl
      have next := notes_nothing (alike_updateInterest (l.absorb s) e.descriptor
        s.client.hasQueued e.control.modify).history
      exact ⟨_, (absorbed (honoured_of_unmarked unmarked)).trans next⟩
    | tearDown =>
      have path := Session.path_of_serve served (by simp)
      have same : s.client.descriptor = e.descriptor := (Session.Path.descriptor path).trans hd
      have here := client?_absorb found same
      have closed := (alike_tearDown (h := h) here e.control.resume).history
      have own : ∀ o ∈ s.history, o.serial = s.client.serial := by
        intro o ho
        exact (Session.Path.own path rfl o ho).trans (Session.Path.serial path).symm
      exact ⟨.closed ⟨s.world, s.client⟩ (h.closed s.world s.client) :: s.history, closed,
        (Session.Path.settled path rfl).final.close own _⟩
    | crash =>
      have unmarked := Session.not_marks_of_crash served rfl
      obtain ⟨os, crashed⟩ := notes_crash (l.absorb s)
      exact ⟨_, (absorbed (honoured_of_unmarked unmarked)).trans crashed⟩

theorem notes_tearDown (h : Handler τ ω) (l : EventLoop τ ω) (d : Descriptor) (resumed : Bool) :
    ∃ os, Notes l (l.tearDown h d resumed) os := by
  cases found : l.client? d with
  | none =>
    rw [tearDown]
    rw [found]
    exact ⟨[], notes_nothing rfl⟩
  | some c =>
    exact ⟨[_], (alike_tearDown found resumed).history, honoured_of_unmarked (by simp [Marks])⟩

theorem Move.notes (move : Move h l m) : ∃ os, Notes l m os := by
  cases move with
  | register setUp watched => exact notes_register setUp watched
  | pause paused => exact ⟨[], notes_nothing (l.alike_pause paused).history⟩
  | resume resumed => exact ⟨[], notes_nothing (l.alike_resume resumed).history⟩
  | serve e => exact notes_serveClient h l e
  | tearDown d resumed => exact notes_tearDown h l d resumed

theorem Moves.notes (moves : Moves h l m) : ∃ os, Notes l m os := by
  induction moves with
  | refl => exact ⟨[], notes_nothing rfl⟩
  | tail _ move ih =>
    obtain ⟨os, first⟩ := ih
    obtain ⟨ps, second⟩ := move.notes
    exact ⟨_, first.trans second⟩

theorem deserted_register {d : Descriptor} (setUp watched : Bool) (alive : l.crashed = false)
    (crashed : (l.register h d setUp watched).crashed = true) :
    (l.register h d setUp watched).clients = [] := by
  rw [EventLoop.register] at crashed ⊢
  dsimp only at crashed ⊢
  cases taken : setUp && watched with
  | false =>
    rw [taken] at crashed
    exact absurd (alive.symm.trans crashed) (by simp)
  | true =>
    cases asked : h.opened l.world (l.newcomer h d) with
    | none => rfl
    | some r =>
      rw [taken, asked] at crashed
      exact absurd (alive.symm.trans crashed) (by simp)

theorem deserted_serveClient (e : Event) (alive : l.crashed = false)
    (crashed : (l.serveClient h e).crashed = true) : (l.serveClient h e).clients = [] := by
  cases found : l.client? e.descriptor with
  | none =>
    rw [serveClient_of_none found] at crashed
    exact absurd (alive.symm.trans crashed) (by simp)
  | some c =>
    rcases served : Session.serve h ⟨l.world, c, []⟩ e.flags e.read e.writes with ⟨v, s⟩
    rw [serveClient_eq found served] at crashed ⊢
    cases v with
    | keep =>
      dsimp only [settle, updateInterest] at crashed
      split at crashed <;> exact absurd (alive.symm.trans crashed) (by simp)
    | tearDown =>
      have crashed := (crashed_tearDown h _ _ _).symm.trans crashed
      exact absurd (alive.symm.trans crashed) (by simp)
    | crash => rfl

theorem Move.deserted (move : Move h l m) (before : l.crashed = true → l.clients = [])
    (crashed : m.crashed = true) : m.clients = [] := by
  cases move with
  | register setUp watched alive => exact deserted_register setUp watched alive crashed
  | pause paused =>
    rw [(l.alike_pause paused).clients]
    exact before ((l.crashed_pause paused).symm.trans crashed)
  | resume resumed =>
    rw [(l.alike_resume resumed).clients]
    exact before ((l.crashed_resume resumed).symm.trans crashed)
  | serve e alive => exact deserted_serveClient e alive crashed
  | tearDown d resumed =>
    rw [clients_tearDown, erase, before ((crashed_tearDown h l d resumed).symm.trans crashed)]
    rfl

theorem Moves.deserted (moves : Moves h l m) (before : l.crashed = true → l.clients = []) :
    m.crashed = true → m.clients = [] := by
  induction moves with
  | refl => exact before
  | tail _ move ih => exact move.deserted ih

end EventLoop

/-- A client that is open was not marked by a request, and it is marked just if its opening has
marked it. -/
theorem Life.marked_iff {inputCapacity outputCapacity n : Nat} {c : Client τ}
    {os : List (Occurrence τ ω)} (life : Life h inputCapacity outputCapacity n (some c) os) :
    (c.killed = true ↔ ∃ before after, .opened before after ∈ os ∧ after.client.killed = true) ∧
      ∀ o ∈ os, ¬ Marks o := by
  generalize there : some c = there? at life
  induction life generalizing c with
  | absent => cases there
  | declined => cases there
  | @opened d w w' b back guest asked =>
    cases there
    refine ⟨?_, by simp [Marks]⟩
    constructor
    · intro marked
      exact ⟨_, _, List.mem_singleton_self _, marked⟩
    · rintro ⟨before, after, opened, marked⟩
      cases List.mem_singleton.mp opened
      exact marked
  | @kept b os w s flags r plan life served ih =>
    cases there
    obtain ⟨marked, silent⟩ := ih rfl
    have path := Session.path_of_serve served (by simp)
    constructor
    · rcases Session.unmarked_of_kept served with rfl | kept
      · exact marked
      · constructor
        · intro now
          exact absurd (kept.symm.trans now) (by simp)
        · rintro ⟨before, after, opened, mark⟩
          have opened := Session.Path.mem_of_opened path rfl opened
          exact Session.Path.killed path (marked.mpr ⟨before, after, opened, mark⟩)
    · intro o ho
      rcases List.mem_append.mp ho with ho | ho
      · exact Session.not_marks_of_keep served rfl o ho
      · exact silent o ho
  | torn => cases there
  | stopped => cases there

namespace EventLoop

variable {l : EventLoop τ ω} {waits : List Wait}

/-- Whenever a loop waits, each request that has marked its client was followed at once by the
closing of that client. A client that waits is marked just if its opening has marked it. -/
theorem marks_wait (begins : l.Begins) (fresh : EachAccepted h Free l waits) :
    let m := l.wait h waits
    (∀ later e before after earlier,
      m.history = later ++ .requested e before after :: earlier → e ≠ .panicked →
      after.client.killed = true →
      ∃ last w, nextCallback? later = some (.closed last w) ∧
        last.client.serial = after.client.serial) ∧
    (∀ e before after, .requested e before after ∈ m.history → e ≠ .panicked →
      after.client.killed = true → ∀ c ∈ m.clients, c.serial ≠ after.client.serial) ∧
    ∀ c ∈ m.clients, c.killed = true ↔
      ∃ before after, .opened before after ∈ m.history ∧ after.client.serial = c.serial ∧
        after.client.killed = true := by
  intro m
  have moves : Moves h l m := moves_wait fresh
  have lives {c : Client τ} (member : c ∈ m.clients) :
      Life h l.inputCapacity l.outputCapacity c.serial (some c) (own c.serial m.history) := by
    -- lives are known only while the loop goes on, but after a panic there is no client
    have alive : m.crashed = false := by
      by_contra crashed
      have none := moves.deserted (fun _ => begins.clients) (by simpa using crashed)
      simp [none] at member
    exact (Moves.lives begins.orderly begins.lives moves alive).inside c member
  refine ⟨?_, ?_, ?_⟩
  · intro later e before after earlier split returned marked
    obtain ⟨os, history, honoured⟩ := moves.notes
    rw [begins.history, List.append_nil] at history
    exact honoured later _ earlier (history.symm.trans split) ⟨returned, marked⟩
  · intro e before after requested returned marked c member same
    exact (lives member).marked_iff.2 _ (mem_own.mpr ⟨requested, same.symm⟩) ⟨returned, marked⟩
  · intro c member
    rw [(lives member).marked_iff.1]
    constructor
    · rintro ⟨before, after, opened, marked⟩
      obtain ⟨opened, same⟩ := mem_own.mp opened
      exact ⟨before, after, opened, same, marked⟩
    · rintro ⟨before, after, opened, same, marked⟩
      exact ⟨before, after, mem_own.mpr ⟨opened, same⟩, marked⟩

def sixthMarker : Handler Unit Unit where
  blank := ()
  opened w c := some (w, if c.descriptor = 6 then c.kill else c)
  request w c := (.idle, w, c.kill)
  closed w _ := w
  backlog _ _ := 0
  backlog_lt asked := by cases asked

/-- The first client is marked when it is opened, and it is still in the table when the loop waits.
The second is marked by a request, and it is gone. -/
theorem marks_wait_opened :
    let waits : List Wait :=
      [.events
        [{ descriptor := 3, accepts := [.connection 6 true true, .connection 7 true true] },
          { descriptor := 7, flags := { readable := true }, read := .bytes [1] }]]
    let m := (create 3 5 4 4 ()).wait sixthMarker waits
    m.clients.map (fun c => (c.serial, c.killed)) = [(0, true)] ∧
      callbacks (own 0 m.history) = [.opened] ∧
      callbacks (own 1 m.history) = [.opened, .requested, .closed] ∧
      ∀ c ∈ m.clients, c.killed = true ↔
        ∃ before after, .opened before after ∈ m.history ∧ after.client.serial = c.serial ∧
          after.client.killed = true := by
  intro waits m
  have fresh : EachAccepted sixthMarker Free (create 3 5 4 4 ()) waits := by decide +kernel
  obtain ⟨-, -, marked⟩ := marks_wait (begins_create 3 5 4 4 ()) fresh
  exact ⟨by decide +kernel, by decide +kernel, by decide +kernel, marked⟩

end EventLoop

end RenderBroker
