import RenderBroker.Render.Queue

namespace RenderBroker

namespace Task

theorem sizeList_nested (ts : List Task) :
    sizeList ts = ts.length + sizeList (ts.flatMap nested) := by
  induction ts with
  | nil => rfl
  | cons t ts ih =>
    simp only [sizeList, size_eq, List.flatMap_cons, sizeList_append, List.length_cons]
    omega

/-- The tasks of the trees, level by level. -/
def levelOrder : List Task → List Task
  | [] => []
  | t :: ts => (t :: ts) ++ levelOrder ((t :: ts).flatMap nested)
termination_by ts => sizeList ts
decreasing_by
  have := sizeList_nested (t :: ts)
  rw [List.length_cons] at this
  omega

theorem levelOrder_eq (ts : List Task) : levelOrder ts = ts ++ levelOrder (ts.flatMap nested) := by
  cases ts with
  | nil => simp [levelOrder]
  | cons t ts => rw [levelOrder]

theorem levelOrder_eq_nil {ts : List Task} (h : levelOrder ts = []) : ts = [] := by
  rw [levelOrder_eq] at h
  exact (List.append_eq_nil_iff.1 h).1

theorem levelOrder_append (ts us : List Task) :
    levelOrder (ts ++ us) = ts ++ levelOrder (us ++ ts.flatMap nested) := by
  -- a whole level is taken off the front, and the next level is cut where this one is
  induction size : sizeList (ts ++ us) using Nat.strongRecOn generalizing ts us with
  | ind n ih =>
    obtain none | ⟨t, rest, some⟩ : ts ++ us = [] ∨ ∃ t rest, ts ++ us = t :: rest := by
      cases ts ++ us <;> simp
    · obtain ⟨rfl, rfl⟩ := List.append_eq_nil_iff.1 none
      rfl
    have smaller : sizeList (ts.flatMap nested ++ us.flatMap nested) < n := by
      have := sizeList_nested (ts ++ us)
      rw [List.flatMap_append, some, List.length_cons, ← some, size] at this
      omega
    calc levelOrder (ts ++ us)
        = ts ++ us ++ levelOrder (ts.flatMap nested ++ us.flatMap nested) := by
          rw [levelOrder_eq, List.flatMap_append]
      _ = ts ++ us ++ (ts.flatMap nested ++
            levelOrder (us.flatMap nested ++ (ts.flatMap nested).flatMap nested)) := by
          rw [ih _ smaller _ _ rfl]
      _ = ts ++ levelOrder (us ++ ts.flatMap nested) := by
          rw [levelOrder_eq (us ++ _), List.flatMap_append]
          simp only [List.append_assoc]

theorem levelOrder_cons (t : Task) (ts : List Task) :
    levelOrder (t :: ts) = t :: levelOrder (ts ++ t.nested) := by
  simpa using levelOrder_append [t] ts

mutual

/-- A task and every task below it, each subtree in one piece. -/
def members : Task → List Task
  | mk label nested panics named => mk label nested panics named :: membersList nested

def membersList : List Task → List Task
  | [] => []
  | t :: ts => t.members ++ membersList ts

end

theorem members_eq (t : Task) : t.members = t :: membersList t.nested := by
  cases t
  simp [members, nested]

@[simp] theorem membersList_append (ts us : List Task) :
    membersList (ts ++ us) = membersList ts ++ membersList us := by
  induction ts with
  | nil => simp [membersList]
  | cons t ts ih => simp [membersList, ih]

theorem membersList_perm (ts : List Task) :
    (membersList ts).Perm (ts ++ membersList (ts.flatMap nested)) := by
  induction ts with
  | nil => simp [membersList]
  | cons t ts ih =>
    rw [membersList, members_eq, List.flatMap_cons, membersList_append]
    refine .cons t ?_
    calc membersList t.nested ++ membersList ts
      _ |>.Perm (membersList t.nested ++ (ts ++ membersList (ts.flatMap nested))) := ih.append_left _
      _ |>.Perm (ts ++ (membersList t.nested ++ membersList (ts.flatMap nested))) :=
          List.perm_append_comm_assoc ..

/-- The order by levels holds every task of the trees once. -/
theorem levelOrder_perm (ts : List Task) : (levelOrder ts).Perm (membersList ts) := by
  fun_induction levelOrder ts with
  | case1 => simp [membersList]
  | case2 t ts ih => exact (ih.append_left _).trans (membersList_perm (t :: ts)).symm

mutual

def calm : Task → Task
  | mk label nested _ named => mk label (calmList nested) false named

def calmList : List Task → List Task
  | [] => []
  | t :: ts => t.calm :: calmList ts

end

@[simp] theorem calmList_eq (ts : List Task) : calmList ts = ts.map calm := by
  induction ts with
  | nil => rfl
  | cons t ts ih => rw [calmList, ih, List.map_cons]

@[simp] theorem nested_calm (t : Task) : t.calm.nested = t.nested.map calm := by
  cases t
  simp [calm, nested]

@[simp] theorem panics_calm (t : Task) : t.calm.panics = false := by
  cases t
  simp [calm, panics]

@[simp] theorem record_calm (t : Task) : t.calm.record = t.record := by
  cases t
  simp [calm, record, label, nested, named]

theorem levelOrder_calm (ts : List Task) :
    levelOrder (ts.map calm) = (levelOrder ts).map calm := by
  fun_induction levelOrder ts with
  | case1 => simp [levelOrder]
  | case2 t ts ih =>
    rw [levelOrder_eq, List.map_append, ← ih, List.flatMap_map, List.map_flatMap]
    simp only [nested_calm]

end Task

namespace TaskRun

theorem untilPanic_of_calm {ts : List Task} (calm : ∀ t ∈ ts, t.panics = false) :
    untilPanic ts = ts := by
  induction ts with
  | nil => rfl
  | cons t ts ih =>
    obtain ⟨first, rest⟩ := List.forall_mem_cons.1 calm
    rw [untilPanic, first, if_neg Bool.false_ne_true, ih rest]

theorem untilPanic_append_cons {before : List Task} (calm : ∀ t ∈ before, t.panics = false)
    {t : Task} (panics : t.panics = true) (after : List Task) :
    untilPanic (before ++ t :: after) = before ++ [t] := by
  induction before with
  | nil => simp [untilPanic, panics]
  | cons u before ih =>
    obtain ⟨first, rest⟩ := List.forall_mem_cons.1 calm
    rw [List.cons_append, untilPanic, first, if_neg Bool.false_ne_true, ih rest, List.cons_append]

theorem countP_untilPanic {ts : List Task} (some : ts.any Task.panics = true) :
    (untilPanic ts).countP Task.panics = 1 := by
  induction ts with
  | nil => cases some
  | cons t ts ih =>
    by_cases panics : t.panics = true
    · simp [untilPanic, panics]
    · rw [untilPanic, if_neg panics, List.countP_cons_of_neg panics]
      exact ih (by simpa [panics] using some)

end TaskRun

namespace RenderQueue

variable {q r s : RenderQueue}

def withItems (q : RenderQueue) (items : List Task) : RenderQueue :=
  { q with tasks := { q.tasks with items } }

@[simp] theorem items_withItems (items : List Task) : (q.withItems items).tasks.items = items :=
  rfl

@[simp] theorem received_withItems (items : List Task) :
    (q.withItems items).tasks.received = q.tasks.received :=
  rfl

@[simp] theorem withItems_withItems (items others : List Task) :
    (q.withItems items).withItems others = q.withItems others :=
  rfl

def sendAll (q : RenderQueue) : List Task → List Bool × RenderQueue
  | [] => ([], q)
  | t :: ts =>
    let (taken, q) := q.send t
    let (rest, q) := q.sendAll ts
    (taken :: rest, q)

theorem send_of_held (held : q.tasks.received = true) (t : Task) :
    q.send t = (true, q.withItems (q.tasks.items ++ [t])) := by
  simp [send, Channel.send, held, withItems]

theorem sendAll_of_held (held : q.tasks.received = true) (ts : List Task) :
    q.sendAll ts = (ts.map fun _ => true, q.withItems (q.tasks.items ++ ts)) := by
  induction ts generalizing q with
  | nil => simp [sendAll, withItems]
  | cons t ts ih =>
    have rest : (q.withItems (q.tasks.items ++ [t])).sendAll ts = _ := ih held
    simp only [sendAll, send_of_held held, rest]
    simp

theorem withItems_of_idle (idle : q.tasks.items = []) : q.withItems [] = q := by
  rw [withItems, ← idle]

theorem sendAll_of_idle (idle : q.tasks.items = []) (held : q.tasks.received = true)
    (ts : List Task) : q.sendAll ts = (ts.map fun _ => true, q.withItems ts) := by
  rw [sendAll_of_held held, idle, List.nil_append]

/-- One turn of the loop that drains the channel. The next task is received and sends its nested
tasks to the channel it came from; its record holds the answers. -/
def turn (q : RenderQueue) : Option (Task × TaskRecord × RenderQueue) :=
  match q.tasks.receive with
  | none => none
  | some (t, tasks) =>
    let (queued, q) := { q with tasks }.sendAll t.nested
    some (t, ⟨t.label, queued, t.named⟩, q)

theorem turn_eq_none : q.turn = none ↔ q.tasks.items = [] := by
  cases items : q.tasks.items <;> simp [turn, Channel.receive, items]

theorem turn_of_cons (held : q.tasks.received = true) {t : Task} {ts : List Task}
    (items : q.tasks.items = t :: ts) :
    q.turn = some (t, t.record, q.withItems (ts ++ t.nested)) := by
  have first : q.tasks.receive = some (t, (q.withItems ts).tasks) := by
    simp [Channel.receive, items, withItems]
  have rest : (q.withItems ts).sendAll t.nested = _ :=
    sendAll_of_held ((received_withItems ts).trans held) t.nested
  rw [turn, first]
  change some (t, TaskRecord.mk t.label ((q.withItems ts).sendAll t.nested).1 t.named,
    ((q.withItems ts).sendAll t.nested).2) = _
  rw [rest]
  rfl

theorem runPending_eq_turn (held : q.tasks.received = true) :
    q.runPending = match q.turn with
      | none => (⟨[], [], .drained⟩, q)
      | some (t, record, r) =>
        if t.panics then (⟨[record], r.tasks.items, .panicked⟩, r)
        else (r.runPending.1.after record, r.runPending.2) := by
  cases items : q.tasks.items with
  | nil => 
    rw [turn_eq_none.2 items, runPending, items, TaskRun.ofWaiting, ← items]
  | cons t ts =>
    rw [turn_of_cons held items]
    by_cases panics : t.panics = true
    · simp [runPending, items, TaskRun.ofWaiting, panics, withItems]
    · simp [runPending, items, TaskRun.ofWaiting, panics, withItems, TaskRun.after]

/-- The queue `q` has become `r` while the tasks `ran` ran one after the other. -/
structure Ran (q : RenderQueue) (ran : List Task) (r : RenderQueue) : Prop where
  kept : r = q.withItems r.tasks.items
  /-- Every task that was sent has run or waits, in the order of sending. -/
  sent : q.tasks.items ++ ran.flatMap Task.nested = ran ++ r.tasks.items
  order : Task.levelOrder q.tasks.items = ran ++ Task.levelOrder r.tasks.items

namespace Ran

variable {ran later : List Task}

theorem refl (q : RenderQueue) : q.Ran [] q :=
  ⟨rfl, by simp, rfl⟩

theorem received_eq (h : q.Ran ran r) : r.tasks.received = q.tasks.received := by
  rw [h.kept, received_withItems]

theorem trans (h : q.Ran ran r) (h' : r.Ran later s) : q.Ran (ran ++ later) s where
  kept := by
    have kept := h'.kept
    rw [h.kept, withItems_withItems] at kept
    exact kept
  sent := by
    rw [List.flatMap_append, ← List.append_assoc, h.sent, List.append_assoc, h'.sent,
      List.append_assoc]
  order := by rw [h.order, h'.order, List.append_assoc]

theorem items_eq_nil (h : q.Ran (Task.levelOrder q.tasks.items) r) : r.tasks.items = [] :=
  Task.levelOrder_eq_nil (List.self_eq_append_right.1 h.order)

end Ran

/-- A turn takes the first task of the order by levels and leaves the rest of that order. -/
theorem ran_turn (held : q.tasks.received = true) {t : Task} {record : TaskRecord}
    (next : q.turn = some (t, record, r)) : record = t.record ∧ q.Ran [t] r := by
  cases items : q.tasks.items with
  | nil => simp [turn_eq_none.2 items] at next
  | cons u us =>
    rw [turn_of_cons held items] at next
    cases next
    exact ⟨rfl, rfl, by simp [items], by simp [items, Task.levelOrder_cons]⟩

/-- A run takes the order by levels up to the first task that panics. -/
theorem ran_runPending (held : q.tasks.received = true) {order : List Task}
    (ordered : Task.levelOrder q.tasks.items = order) :
    ∃ r, q.runPending =
        (⟨(TaskRun.untilPanic order).map Task.record, r.tasks.items,
          if order.any Task.panics then .panicked else .drained⟩, r) ∧
      q.Ran (TaskRun.untilPanic order) r := by
  -- each turn takes one task off the front of the order
  induction order generalizing q with
  | nil =>
    have idle := Task.levelOrder_eq_nil ordered
    rw [runPending_eq_turn held, turn_eq_none.2 idle]
    exact ⟨q, by simp [TaskRun.untilPanic, idle], .refl q⟩
  | cons u order ih =>
    rw [runPending_eq_turn held]
    cases next : q.turn with
    | none => simp [turn_eq_none.1 next, Task.levelOrder] at ordered
    | some found =>
      obtain ⟨t, record, r⟩ := found
      obtain ⟨rfl, taken⟩ := ran_turn held next
      obtain ⟨rfl, rest⟩ : u = t ∧ order = _ := List.cons.inj (ordered.symm.trans taken.order)
      by_cases panics : u.panics = true
      · refine ⟨r, by simp [panics, TaskRun.untilPanic], ?_⟩
        rwa [TaskRun.untilPanic, if_pos panics]
      · obtain ⟨s, run, later⟩ := ih (taken.received_eq.trans held) rest.symm
        refine ⟨s, by simp [panics, TaskRun.untilPanic, run, TaskRun.after], ?_⟩
        rw [TaskRun.untilPanic, if_neg panics]
        exact taken.trans later

theorem runPending_of_calm (held : q.tasks.received = true)
    (calm : ∀ t ∈ Task.levelOrder q.tasks.items, t.panics = false) :
    q.runPending =
      (⟨(Task.levelOrder q.tasks.items).map Task.record, [], .drained⟩, q.withItems []) := by
  obtain ⟨r, run, ran⟩ := ran_runPending held rfl
  have none : ¬(Task.levelOrder q.tasks.items).any Task.panics = true := by simpa using calm
  rw [TaskRun.untilPanic_of_calm calm] at run ran
  rw [run, if_neg none, ran.kept, ran.items_eq_nil, items_withItems]

theorem runPending_of_panic (held : q.tasks.received = true) {before after : List Task} {t : Task}
    (order : Task.levelOrder q.tasks.items = before ++ t :: after)
    (calm : ∀ u ∈ before, u.panics = false) (panics : t.panics = true) :
    ∃ waiting, q.runPending =
        (⟨(before ++ [t]).map Task.record, waiting, .panicked⟩, q.withItems waiting) ∧
      q.tasks.items ++ (before ++ [t]).flatMap Task.nested = before ++ [t] ++ waiting ∧
      Task.levelOrder waiting = after := by
  obtain ⟨r, run, ran⟩ := ran_runPending held order
  have some : (before ++ t :: after).any Task.panics = true := by simp [panics]
  rw [TaskRun.untilPanic_append_cons calm panics] at run ran
  rw [if_pos some] at run
  refine ⟨r.tasks.items, by rw [run, ← ran.kept], ran.sent, ?_⟩
  have rest := ran.order
  rw [order, ← List.singleton_append, ← List.append_assoc] at rest
  exact (List.append_cancel_left rest).symm

def runTimes : Nat → RenderQueue → List TaskRun × RenderQueue
  | 0, q => ([], q)
  | n + 1, q =>
    let (run, q) := q.runPending
    let (later, q) := runTimes n q
    (run :: later, q)

/-- Runs that go on after each panic take the whole order, with one run for each panic and one that
returns. -/
theorem runTimes_run (held : q.tasks.received = true) {n : Nat}
    (panics : (Task.levelOrder q.tasks.items).countP Task.panics = n) :
    (runTimes (n + 1) q).1.map TaskRun.ending = List.replicate n .panicked ++ [.drained] ∧
    (runTimes (n + 1) q).1.flatMap TaskRun.ran =
      (Task.levelOrder q.tasks.items).map Task.record ∧
    (runTimes (n + 1) q).2 = q.withItems [] := by
  induction n generalizing q with
  | zero =>
    have calm : ∀ t ∈ Task.levelOrder q.tasks.items, t.panics = false := by
      simpa using List.countP_eq_zero.1 panics
    simp [runTimes, runPending_of_calm held calm]
  | succ n ih =>
    obtain ⟨r, run, ran⟩ := ran_runPending held rfl
    have some : (Task.levelOrder q.tasks.items).any Task.panics = true := by
      rw [List.any_eq_true]
      exact List.countP_pos_iff.1 (by omega)
    have fewer : (Task.levelOrder r.tasks.items).countP Task.panics = n := by
      rw [ran.order, List.countP_append, TaskRun.countP_untilPanic some] at panics
      omega
    obtain ⟨endings, records, left⟩ := ih (ran.received_eq.trans held) fewer
    rw [runTimes, run]
    refine ⟨?_, ?_, ?_⟩
    · simp [some, endings, List.replicate_succ]
    · simp only [List.flatMap_cons, records, ← List.map_append, ← ran.order]
    · rw [left, ran.kept, withItems_withItems]

/-- Tasks run level by level, each once. A run takes them all or stops right behind the first that
panics, and leaves the rest of the order; runs that go on come to the whole of it. -/
theorem levels_run (idle : q.tasks.items = []) (held : q.tasks.received = true)
    (ts : List Task) :
    (q.sendAll ts).1 = ts.map (fun _ => true) ∧
    (Task.levelOrder ts).Perm (Task.membersList ts) ∧
    ((∀ t ∈ Task.membersList ts, t.panics = false) →
      (q.sendAll ts).2.runPending = (⟨(Task.levelOrder ts).map Task.record, [], .drained⟩, q) ∧
      (q.sendAll ts).2.runPending.1.finished = (Task.membersList ts).length) ∧
    (∀ before t after, Task.levelOrder ts = before ++ t :: after →
      (∀ u ∈ before, u.panics = false) → t.panics = true →
      ∃ waiting, (q.sendAll ts).2.runPending =
          (⟨(before ++ [t]).map Task.record, waiting, .panicked⟩, q.withItems waiting) ∧
        ts ++ (before ++ [t]).flatMap Task.nested = before ++ [t] ++ waiting ∧
        Task.levelOrder waiting = after) ∧
    ∀ n, (Task.membersList ts).countP Task.panics = n →
      (runTimes (n + 1) (q.sendAll ts).2).1.map TaskRun.ending =
        List.replicate n .panicked ++ [.drained] ∧
      (runTimes (n + 1) (q.sendAll ts).2).1.flatMap TaskRun.ran =
        (Task.levelOrder ts).map Task.record ∧
      (q.sendAll (ts.map Task.calm)).2.runPending.1.ran =
        (Task.levelOrder ts).map Task.record ∧
      (runTimes (n + 1) (q.sendAll ts).2).2 = q := by
  have perm := Task.levelOrder_perm ts
  rw [sendAll_of_idle idle held, sendAll_of_idle idle held]
  refine ⟨rfl, perm, fun calm => ?_, fun _ _ _ => runPending_of_panic (q := q.withItems ts) held,
    fun n panics => ?_⟩
  · have run := runPending_of_calm (q := q.withItems ts) held fun t ht =>
      calm t (perm.mem_iff.1 ht)
    rw [run, items_withItems, withItems_withItems, withItems_of_idle idle]
    exact ⟨rfl, by simpa [TaskRun.finished] using perm.length_eq⟩
  · obtain ⟨endings, records, left⟩ :=
      runTimes_run (q := q.withItems ts) held ((perm.countP_eq _).trans panics)
    refine ⟨endings, records, ?_, ?_⟩
    · rw [runPending_of_calm (q := q.withItems (ts.map Task.calm)) held, items_withItems,
        Task.levelOrder_calm, List.map_map]
      · exact List.map_congr_left fun t _ => t.record_calm
      · simp [Task.levelOrder_calm]
    · rw [left, withItems_withItems, withItems_of_idle idle]

/-- Of two tasks the first one panics, and so does the task that it queued before. The second run
takes the other task first. -/
theorem levels_run_interrupted :
    let first : Task := .mk 1 [.mk 3 [.mk 5 [] false false] true false] true false
    let second : Task := .mk 2 [.mk 4 [] false false] false false
    let sent := (sendAll {} [first, second]).2
    (∃ waiting, sent.runPending = (⟨[first.record], waiting, .panicked⟩, withItems {} waiting) ∧
      waiting.map Task.label = [2, 3]) ∧
    (runTimes 3 sent).1.map TaskRun.ending = [.panicked, .panicked, .drained] ∧
    (runTimes 3 sent).1.map (fun run => run.ran.map TaskRecord.label) = [[1], [2, 3], [4, 5]] ∧
    (runTimes 3 sent).2 = {} := by
  intro first second sent
  obtain ⟨-, -, -, stops, runs⟩ := levels_run (q := {}) rfl rfl [first, second]
  obtain ⟨endings, -, -, left⟩ := runs 2 (by decide)
  obtain ⟨waiting, run, rest, -⟩ := stops [] first _ (Task.levelOrder_cons ..) (by simp) rfl
  obtain ⟨-, rfl⟩ := List.cons.inj rest
  exact ⟨⟨_, run, rfl⟩, endings, by decide +kernel, left⟩

end RenderQueue

end RenderBroker
