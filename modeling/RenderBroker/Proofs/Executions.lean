import RenderBroker.Proofs.Shutdown

namespace RenderBroker

namespace RenderCrew

/-- The tasks that messages lead to: none behind a request to end or behind a task that panics. -/
def due : List RenderMessage → List Task
  | [] => []
  | .stop :: _ => []
  | .run t :: ms => if t.panics then [t] else t :: due ms

def Calm (ts : List Task) : Prop :=
  ∀ t ∈ ts, t.panics = false

/-- Where the thread is, and what it has begun: only the last of the tasks may panic. -/
inductive Course : ThreadStage → List Task → Prop
  | receiving {ts : List Task} (calm : Calm ts) : Course .receiving ts
  | running {ts : List Task} {t : Task} {left : List Task} (calm : Calm ts) :
      Course (.running t left) (ts ++ [t])
  | asked {s : ThreadStage} {ts : List Task} (ends : s.end? = some .asked) (calm : Calm ts) :
      Course s ts
  | panicked {s : ThreadStage} {ts : List Task} {t : Task} (ends : s.end? = some .panicked)
      (calm : Calm ts) (panics : t.panics = true) : Course s (ts ++ [t])

variable {c d : RenderCrew} {ts : List Task} {t : Task}

theorem Calm.concat (calm : Calm ts) (quiet : t.panics = false) : Calm (ts ++ [t]) := by
  intro u hu
  rcases List.mem_append.mp hu with hu | hu
  · exact calm u hu
  · rw [List.mem_singleton.mp hu]
    exact quiet

theorem due_append (calm : Calm ts) (ms : List RenderMessage) :
    due (ts.map .run ++ ms) = ts ++ due ms := by
  induction ts with
  | nil => rfl
  | cons t ts ih =>
    obtain ⟨quiet, rest⟩ := List.forall_mem_cons.mp calm
    rw [List.map_cons, List.cons_append, due, if_neg (by simp [quiet]), ih rest]
    rfl

theorem due_concat (calm : Calm ts) (panics : t.panics = true) (ms : List RenderMessage) :
    due ((ts ++ [t]).map .run ++ ms) = ts ++ [t] := by
  rw [List.map_append, List.append_assoc, due_append calm]
  simp [due, panics]

theorem Course.ends {s s' : ThreadStage} (course : Course s ts) (ended : s.end?.isSome)
    (same : s'.end? = s.end?) : Course s' ts := by
  cases course with
  | receiving => cases ended
  | running => cases ended
  | asked ends calm => exact .asked (same.trans ends) calm
  | panicked ends calm panics => exact .panicked (same.trans ends) calm panics

theorem Course.finish {left : List Task} (course : Course (.running t left) ts) :
    Course (if t.panics then .leaving .panicked else .receiving) ts := by
  cases course with
  | running calm =>
    cases panics : t.panics with
    | true => exact .panicked rfl calm panics
    | false => exact .receiving (calm.concat panics)
  | asked ends => cases ends
  | panicked ends => cases ends

theorem Course.queue {left left' : List Task} (course : Course (.running t left) ts) :
    Course (.running t left') ts := by
  cases course with
  | running calm => exact .running calm
  | asked ends => cases ends
  | panicked ends => cases ends

theorem Course.calm (course : Course .receiving ts) : Calm ts := by
  cases course with
  | receiving calm => exact calm
  | asked ends => cases ends
  | panicked ends => cases ends

theorem Course.advance (course : Course c.stage c.begun) (h : c.advance = some d) :
    Course d.stage d.begun := by
  rw [RenderCrew.advance] at h
  cases stage : c.stage with
  | receiving =>
    rw [stage] at course h
    dsimp only at h
    split at h
    · cases h
    · cases h
      exact .running course.calm
    · cases h
      exact .asked rfl course.calm
  | running t left =>
    rw [stage] at course h
    cases left with
    | nil =>
      cases h
      exact course.finish
    | cons n left =>
      cases h
      exact course.queue
  | leaving e =>
    rw [stage] at course h
    cases h
    exact course.ends rfl rfl
  | ended e =>
    rw [stage] at h
    cases h

theorem Course.step (course : Course c.stage c.begun) {turn : Turn} (h : c.step turn = some d) :
    Course d.stage d.begun := by
  cases turn with
  | send t =>
    cases h
    exact course
  | ask =>
    rw [RenderCrew.step] at h
    split at h <;> cases h <;> exact course
  | advance => exact course.advance h
  | join =>
    rw [RenderCrew.step] at h
    cases stage : c.stage with
    | ended e =>
      rw [stage] at h
      dsimp only at h
      split at h
      · cases h
        exact stage ▸ course
      · cases h
    | receiving | running | leaving =>
      rw [stage] at h
      cases h

theorem Reachable.course (h : c.Reachable) : Course c.stage c.begun := by
  refine h.keeps (P := fun c => Course c.stage c.begun) ?_ (.receiving ?_)
  · intro a b turn course step
    exact course.step step
  · intro t ht
    cases ht

theorem Course.due_eq {s : ThreadStage} (course : Course s ts) (left : List RenderMessage) :
    ts <+: due (ts.map .run ++ (s.heard ++ left)) ∧
      (s.end?.isSome → ts = due (ts.map .run ++ (s.heard ++ left))) := by
  cases course with
  | receiving calm =>
    rw [due_append calm]
    exact ⟨List.prefix_append .., fun ends => nomatch ends⟩
  | @running ts t _ calm =>
    rw [List.map_append, List.append_assoc, due_append calm]
    refine ⟨(List.prefix_append_right_inj ts).mpr ?_, fun ends => nomatch ends⟩
    change [t] <+: if t.panics then [t] else t :: due _
    split
    · exact List.prefix_rfl
    · exact List.prefix_append [t] _
  | asked ends calm =>
    have all : due (ts.map .run ++ (s.heard ++ left)) = ts := by
      rw [due_append calm, ThreadStage.heard, if_pos ends]
      exact List.append_nil ts
    rw [all]
    exact ⟨List.prefix_rfl, fun _ => rfl⟩
  | panicked ends calm panics =>
    rw [due_concat calm panics]
    exact ⟨List.prefix_rfl, fun _ => rfl⟩

theorem Course.panics_iff {s : ThreadStage} {e : ThreadEnd} (course : Course s ts)
    (ends : s.end? = some e) : e = .panicked ↔ ∃ t ∈ ts, t.panics = true := by
  cases course with
  | receiving => cases ends
  | running => cases ends
  | asked heard calm =>
    rw [heard] at ends
    cases ends
    constructor
    · intro same
      cases same
    · rintro ⟨t, ht, panics⟩
      rw [calm t ht] at panics
      cases panics
  | @panicked _ ts t failed calm panics =>
    rw [failed] at ends
    cases ends
    exact ⟨fun _ => ⟨t, by simp, panics⟩, fun _ => rfl⟩

/-- In any order of turns the thread begins a first part of what its channel has taken, up to the
request to end or the first panic. When it has ended it has begun all of that, and every task is
refused. -/
theorem tasks_run (reachable : c.Reachable) :
    c.begun.map .run <+: c.taken ∧ c.begun <+: due c.taken ∧
    (∀ e, c.stage = .ended e → c.begun = due c.taken ∧
      (e = .panicked ↔ ∃ t ∈ c.begun, t.panics = true) ∧
      ∀ d, Reaches step c d → d.begun = c.begun ∧ d.taken = c.taken ∧
        ∀ t, (d.channel.send (.run t)).1 = false ∧
          d.step (.send t) = some { d with refused := d.refused ++ [t] }) ∧
    stops c.taken ≤ 1 ∧ (c.asked = true → c.step .ask = some c) := by
  have s := reachable.sound
  have course := reachable.course
  obtain ⟨left, order, -⟩ := s.ordered
  rw [List.append_assoc] at order
  obtain ⟨first, all⟩ := course.due_eq left
  rw [← order] at first all
  refine ⟨?_, first, ?_, Nat.le_trans s.stops (Bool.toNat_le _), ?_⟩
  · rw [order]
    exact List.prefix_append ..
  · intro e ended
    have ends : c.stage.end? = some e := by
      rw [ended]
      rfl
    refine ⟨all (by simp [ends]), course.panics_iff ends, ?_⟩
    intro d later
    have closed := s.held.mpr ⟨e, ended⟩
    have past : Over c.taken c.begun d :=
      later.keeps (fun o step => o.step step) ⟨⟨e, ended⟩, closed, rfl, rfl⟩
    refine ⟨past.begun, past.taken, ?_⟩
    intro t
    refine ⟨by rw [Channel.send_fst, past.closed], ?_⟩
    rw [step, post_of_closed past.closed]
    rfl
  · intro asked
    rw [step, if_pos asked]

/-- The second task panics while a third one and the request to end wait behind it; the task that
the first one has queued stands behind the request. -/
theorem tasks_run_panicking :
    let first : Task := .mk 0 [.mk 1 [] false false] false false
    let second : Task := .mk 2 [] true false
    let third : Task := .mk 3 [] false false
    let turns : List Turn :=
      [.send first, .send second, .send third, .ask, .advance, .advance, .advance, .advance,
        .advance, .ask, .advance, .join]
    ∃ c, turns.foldlM step {} = some c ∧ c.stage = .ended .panicked ∧
      c.begun = due [.run first, .run second, .run third, .stop, .run (.mk 1 [] false false)] ∧
      c.begun = [first, second] ∧
      ∀ d, Reaches step c d → d.begun = [first, second] ∧
        ∀ t, (d.channel.send (.run t)).1 = false := by
  intro first second third turns
  have run : turns.foldlM step {} = some _ := rfl
  obtain ⟨-, -, ended, -⟩ := tasks_run (Reaches.of_foldlM run)
  obtain ⟨all, -, after⟩ := ended .panicked rfl
  refine ⟨_, run, rfl, all, rfl, ?_⟩
  intro d later
  obtain ⟨begun, -, refused⟩ := after d later
  exact ⟨begun, fun t => (refused t).1⟩

end RenderCrew

end RenderBroker
