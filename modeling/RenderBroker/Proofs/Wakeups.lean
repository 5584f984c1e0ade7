import RenderBroker.Loop.Stopping

namespace RenderBroker

namespace StoppableLoop

variable {τ ω : Type} {h : Handler τ ω} {s t : StoppableLoop τ ω} {turn : Turn}

/-- A turn that could be taken, with what it came to. -/
inductive Taken (h : Handler τ ω) (s : StoppableLoop τ ω) : Turn → StoppableLoop τ ω → Prop
  | flag (before : s.stop = .before) : Taken h s .flag { s with flag := true, stop := .flagged }
  | wake (flagged : s.stop = .flagged) :
      Taken h s .wake { s with counter := s.counter + 1, stop := .woken }
  | stay {clearing : Clearing} (stage : s.stage = .looking) (down : s.flag = false) :
      Taken h s (.look clearing) { s with stage := .waiting }
  | leave {clearing : Clearing} (stage : s.stage = .looking) (up : s.flag = true) :
      Taken h s (.look clearing) (s.finish h clearing)
  | come {batch : List Event} {watching : Bool} {clearing : Clearing}
      (stage : s.stage = .waiting) (allowed : s.allows batch = true) :
      Taken h s (.wait (.events batch watching) clearing) (s.awake batch watching)
  | fail {clearing : Clearing} (stage : s.stage = .waiting) :
      Taken h s (.wait .failed clearing) (s.finish h clearing)
  | rest (stage : s.stage = .handling []) : Taken h s .handle { s with stage := .looking }
  | next {e : Event} {left : List Event} (stage : s.stage = .handling (e :: left)) :
      Taken h s .handle (s.handle h e left)

theorem taken_of_step (came : step h s turn = some t) : Taken h s turn t := by
  cases turn with
  | flag =>
    obtain ⟨before, came⟩ := Option.ite_none_right_eq_some.mp came
    cases came
    exact .flag before
  | wake =>
    obtain ⟨flagged, came⟩ := Option.ite_none_right_eq_some.mp came
    cases came
    exact .wake flagged
  | look clearing =>
    rw [step] at came
    split at came
    next stage =>
      obtain rfl := Option.some.inj came
      split
      next up => exact .leave stage up
      next down => exact .stay stage (by simpa using down)
    next => cases came
  | wait w clearing =>
    cases stage : s.stage with
    | waiting =>
      cases w with
      | events batch watching =>
        simp only [step, stage] at came
        obtain ⟨allowed, came⟩ := Option.ite_none_right_eq_some.mp came
        cases came
        exact .come stage allowed
      | failed =>
        simp only [step, stage] at came
        cases came
        exact .fail stage
    | looking | handling | ended => simp [step, stage] at came
  | handle =>
    rw [step] at came
    split at came
    next stage =>
      cases came
      exact .rest stage
    next stage =>
      cases came
      exact .next stage
    next => cases came

theorem length_le_of_allows {batch : List Event} (allowed : s.allows batch = true) :
    batch.length ≤ batchLimit := by
  rw [allows, Bool.and_eq_true] at allowed
  exact of_decide_eq_true allowed.1

/-- The flag is up from the moment it is raised; until the waker is written to, its counter is zero,
and from then on a loop that waits has its counter to come back to. -/
structure Sound (s : StoppableLoop τ ω) : Prop where
  flag : s.flag = true ↔ s.stop ≠ .before
  quiet : s.stop ≠ .woken → s.counter = 0 ∧ s.late = 0
  waits : s.stop = .woken → s.stage = .waiting → s.counter ≠ 0 ∧ s.late = 0
  late : s.late ≤ 1
  batch : ∀ left, s.stage = .handling left → left.length ≤ batchLimit

theorem Taken.sound (taken : Taken h s turn t) (sound : Sound s) : Sound t := by
  cases taken with
  | flag before =>
    have still := sound.quiet (by simp [before])
    exact ⟨by simp, fun _ => still, by simp, sound.late, sound.batch⟩
  | wake flagged =>
    have still := sound.quiet (by simp [flagged])
    exact ⟨by simp [sound.flag, flagged], fun other => absurd rfl other,
      fun _ _ => ⟨Nat.succ_ne_zero _, still.2⟩, sound.late, sound.batch⟩
  | stay stage down =>
    -- the flag is down, so nothing has been written to the waker either
    have before : s.stop = .before := by simpa [down] using sound.flag
    exact ⟨sound.flag, sound.quiet, by simp [before], sound.late, by simp⟩
  | leave | fail =>
    exact ⟨sound.flag, sound.quiet, by simp [finish], sound.late, by simp [finish]⟩
  | @come batch _ _ stage allowed =>
    refine ⟨sound.flag, ?_, by simp [awake], ?_, ?_⟩
    · intro other
      have still := sound.quiet other
      exact ⟨still.1, (if_neg other).trans still.2⟩
    · by_cases woken : s.stop = .woken
      · simp [awake, woken, (sound.waits woken stage).2]
      · simpa [awake, woken] using sound.late
    · rintro left ⟨⟩
      exact length_le_of_allows allowed
  | rest =>
    exact ⟨sound.flag, sound.quiet, by simp, sound.late, by simp⟩
  | @next e left stage =>
    refine ⟨sound.flag, ?_, by simp [handle], sound.late, ?_⟩
    · intro other
      have still := sound.quiet other
      exact ⟨by simp [handle, still.1], still.2⟩
    · rintro left ⟨⟩
      have few := sound.batch _ stage
      rw [List.length_cons] at few
      exact Nat.le_of_succ_le few

theorem Reachable.sound (reachable : s.Reachable h) : Sound s := by
  obtain ⟨loop, reaches⟩ := reachable
  refine reaches.keeps (fun sound came => (taken_of_step came).sound sound) ?_
  exact ⟨by simp, fun _ => ⟨rfl, rfl⟩, nofun, Nat.zero_le 1, fun _ => nofun⟩

/-- The most turns that a loop which has been woken still takes. -/
def remaining (s : StoppableLoop τ ω) : Nat :=
  match s.stage with
  | .looking => 1
  | .waiting => batchLimit + 3
  | .handling left => left.length + 2
  | .ended => 0

def batches (s : StoppableLoop τ ω) : Nat :=
  match s.stage with
  | .waiting => 1
  | _ => 0

def Turn.comes : Turn → Bool
  | .wait (.events _ _) _ => true
  | _ => false

theorem remaining_le (sound : Sound s) : s.remaining ≤ batchLimit + 3 := by
  rw [remaining]
  split
  next => exact Nat.le_add_left 1 _
  next => exact Nat.le_refl _
  next left stage => exact Nat.le_succ_of_le (Nat.add_le_add_right (sound.batch left stage) 2)
  next => exact Nat.zero_le _

theorem batches_le (s : StoppableLoop τ ω) : s.batches ≤ 1 := by
  rw [batches]
  split
  · exact Nat.le_refl 1
  · exact Nat.zero_le 1

theorem batches_eq_zero (past : s.stage ≠ .waiting) : s.batches = 0 := by
  rw [batches]
  split
  next stage => exact absurd stage past
  next => rfl

theorem Taken.woken (taken : Taken h s turn t) (woken : s.stop = .woken) : t.stop = .woken := by
  cases taken with
  | flag before => simp [woken] at before
  | wake flagged => simp [woken] at flagged
  | stay | leave | come | fail | rest | next => exact woken

/-- Once woken, the loop does not begin to wait any more, and every turn brings its end nearer. -/
theorem Taken.past (taken : Taken h s turn t) (sound : Sound s) (woken : s.stop = .woken) :
    t.stage ≠ .waiting ∧ t.remaining < s.remaining ∧ (if turn.comes then 1 else 0) ≤ s.batches := by
  cases taken with
  | flag before => simp [woken] at before
  | wake flagged => simp [woken] at flagged
  | stay stage down => simp [sound.flag.mpr (by simp [woken])] at down
  | leave stage up => simp [finish, remaining, stage, Turn.comes]
  | @come batch _ _ stage allowed =>
    have few := length_le_of_allows allowed
    simp only [awake, remaining, stage, batches, Turn.comes, if_true]
    exact ⟨by simp, Nat.add_lt_add_of_le_of_lt few (Nat.lt_succ_self 2), Nat.le_refl 1⟩
  | fail stage => simp [finish, remaining, stage, Turn.comes]
  | rest stage => simp [remaining, stage, Turn.comes]
  | next stage => simp [handle, remaining, stage, Turn.comes]

theorem ended_or_exists_step (h : Handler τ ω) (s : StoppableLoop τ ω) :
    s.stage = .ended ∨ ∃ turn t, step h s turn = some t := by
  cases stage : s.stage with
  | looking => exact .inr ⟨.look {}, _, by simp only [step, stage]; rfl⟩
  | waiting => exact .inr ⟨.wait .failed {}, _, by simp only [step, stage]; rfl⟩
  | handling left =>
    cases left with
    | nil => exact .inr ⟨.handle, _, by simp only [step, stage]; rfl⟩
    | cons e left => exact .inr ⟨.handle, _, by simp only [step, stage]; rfl⟩
  | ended => exact .inl rfl

theorem run_woken {ts : List Turn} (sound : Sound s) (woken : s.stop = .woken)
    (run : ts.foldlM (step h) s = some t) :
    ts.length + t.remaining ≤ s.remaining ∧ ts.countP Turn.comes ≤ s.batches ∧
      (s.stage ≠ .waiting → t.stage ≠ .waiting) := by
  induction ts generalizing s with
  | nil =>
    cases run
    exact ⟨Nat.le_of_eq (Nat.zero_add _), Nat.zero_le _, id⟩
  | cons turn ts ih =>
    rw [List.foldlM_cons] at run
    obtain ⟨u, first, rest⟩ := Option.bind_eq_some_iff.mp run
    have taken := taken_of_step first
    obtain ⟨past, nearer, comes⟩ := taken.past sound woken
    -- after the first turn the loop waits no more, so no further wait comes to events
    obtain ⟨length, count, waits⟩ := ih (taken.sound sound) (taken.woken woken) rest
    refine ⟨?_, ?_, fun _ => waits past⟩
    · rw [List.length_cons]
      omega
    · rw [batches_eq_zero past] at count
      rw [List.countP_cons]
      omega

/-- Once the waker has been written to, a loop that waits has its counter to come back to, and one
that waits no more finds the flag raised: it is never blocked, comes to events once more at most,
and ends. -/
theorem stop_woken (reachable : s.Reachable h) (woken : s.stop = .woken) :
    (s.stage = .waiting → s.counter ≠ 0 ∧ s.allows [{ descriptor := s.loop.waker }] = true) ∧
    (s.stage ≠ .waiting → ∀ (ts : List Turn) t, ts.foldlM (step h) s = some t →
      t.stage ≠ .waiting ∧ ts.countP Turn.comes = 0) ∧
    (s.stage = .looking → ∀ clearing, step h s (.look clearing) = some (s.finish h clearing)) ∧
    ¬ s.Blocked ∧ s.late ≤ 1 ∧
    ∀ (ts : List Turn) t, ts.foldlM (step h) s = some t →
      ts.countP Turn.comes ≤ 1 ∧ ts.length ≤ batchLimit + 3 ∧
        ((∀ turn, step h t turn = none) → t.stage = .ended) := by
  have sound := reachable.sound
  refine ⟨?_, ?_, ?_, ?_, sound.late, ?_⟩
  · intro stage
    have counted := (sound.waits woken stage).1
    exact ⟨counted, by simp [allows, counted, batchLimit]⟩
  · intro past ts t run
    obtain ⟨-, count, waits⟩ := run_woken sound woken run
    rw [batches_eq_zero past] at count
    exact ⟨waits past, Nat.le_zero.mp count⟩
  · intro stage clearing
    simp only [step, stage, sound.flag.mpr (by simp [woken]), if_true]
  · rintro ⟨stage, empty⟩
    exact (sound.waits woken stage).1 empty
  · intro ts t run
    obtain ⟨length, count, -⟩ := run_woken sound woken run
    refine ⟨Nat.le_trans count s.batches_le, ?_, ?_⟩
    · exact Nat.le_trans (Nat.le_of_add_right_le length) (remaining_le sound)
    · intro stuck
      rcases ended_or_exists_step h t with ended | ⟨turn, u, more⟩
      · exact ended
      · rw [stuck turn] at more
        cases more

def idler : Handler Unit Unit where
  blank := ()
  opened w c := some (w, c)
  request w c := (.idle, w, c)
  closed w _ := w
  backlog _ _ := 0
  backlog_lt asked := by cases asked

/-- The loop has found the flag down, and it is raised and the waker written to before the loop
waits; what else is ready is handled with the waker, and then the loop ends. -/
theorem stop_woken_waiting :
    let s : StoppableLoop Unit Unit := { loop := .create 3 5 4 4 () }
    let others : List Event := [{ descriptor := 5 }, { descriptor := 3 }]
    ∃ t u, [.look {}, .flag, .wake].foldlM (step idler) s = some t ∧
      [.wait (.events others true) {}, .handle, .handle, .handle,
        .look {}].foldlM (step idler) t = some u ∧
      t.counter = 1 ∧ u.counter = 0 ∧ u.late = 1 ∧ u.stage = .ended ∧
      ¬ t.Blocked ∧ t.allows [{ descriptor := 5 }] = true ∧
      ∀ (ts : List Turn) v, ts.foldlM (step idler) t = some v → ts.length ≤ batchLimit + 3 := by
  intro s others
  have stopped : [.look {}, .flag, .wake].foldlM (step idler) s = some _ := rfl
  obtain ⟨waits, -, -, on, -, ends⟩ := stop_woken ⟨_, Reaches.of_foldlM stopped⟩ rfl
  refine ⟨_, _, stopped, rfl, rfl, rfl, rfl, rfl, on, (waits rfl).2, ?_⟩
  intro ts v run
  exact (ends ts v run).2.1

end StoppableLoop

end RenderBroker
