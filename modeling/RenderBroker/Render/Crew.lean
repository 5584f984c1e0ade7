import RenderBroker.Render.Thread
import RenderBroker.Turns

/-!
# The render thread and those around it

Senders, the render thread and its owner go on in turns, in any order. A turn is one step that no
other thread can see half done: a message is sent or received, a task begins or ends, the receiving
end is let go, the owner returns. Where the thread catches up with its channel, or winds up before a
request to end, it comes to what `RenderThread` says.
-/

namespace RenderBroker

inductive RenderMessage where
  | run (t : Task)
  | stop

def RenderMessage.task? : RenderMessage → Option Task
  | .run t => some t
  | .stop => none

/-- What the render thread is at. -/
inductive ThreadStage where
  | receiving
  /-- It runs a task, which still has nested tasks to queue. -/
  | running (t : Task) (left : List Task)
  /-- It receives no more, and still holds the receiving end. -/
  | leaving (e : ThreadEnd)
  | ended (e : ThreadEnd)

/-- What the thread comes to when a run over its waiting tasks has ended. -/
def RunEnd.stage : RunEnd → ThreadStage
  | .drained => .receiving
  | .panicked => .leaving .panicked

/-- The channel of the render thread, the thread, its owner, and what has happened, the first thing
first. -/
structure RenderCrew where
  channel : Channel RenderMessage := {}
  stage : ThreadStage := .receiving
  /-- The owner has asked the thread to end. -/
  asked : Bool := false
  /-- The owner has returned from waiting for the end. -/
  joined : Bool := false
  /-- The messages that the channel has taken. -/
  taken : List RenderMessage := []
  /-- The tasks whose sender was told that they were dropped. -/
  refused : List Task := []
  /-- The tasks that the thread has begun to run. -/
  begun : List Task := []

namespace RenderCrew

inductive Turn where
  /-- A sender outside the thread queues a task. -/
  | send (t : Task)
  /-- The owner asks the thread to end, which it does once. -/
  | ask
  | advance
  | join

def post (c : RenderCrew) (m : RenderMessage) : RenderCrew :=
  let (taken, channel) := c.channel.send m
  { c with
    channel
    taken := if taken then c.taken ++ [m] else c.taken
    refused := if taken then c.refused else c.refused ++ m.task?.toList }

/-- The thread goes on; it waits while the channel is empty. -/
def advance (c : RenderCrew) : Option RenderCrew :=
  match c.stage with
  | .receiving =>
    match c.channel.receive with
    | none => none
    | some (.run t, channel) =>
      some { c with channel, stage := .running t t.nested, begun := c.begun ++ [t] }
    | some (.stop, channel) => some { c with channel, stage := .leaving .asked }
  | .running t (n :: left) => some { c.post (.run n) with stage := .running t left }
  | .running t [] => some { c with stage := if t.panics then .leaving .panicked else .receiving }
  | .leaving e => some { c with channel := c.channel.close, stage := .ended e }
  | .ended _ => none

def step (c : RenderCrew) : Turn → Option RenderCrew
  | .send t => some (c.post (.run t))
  | .ask => some (if c.asked then c else { c.post .stop with asked := true })
  | .advance => c.advance
  | .join =>
    match c.stage with
    | .ended _ => if c.asked then some { c with joined := true } else none
    | _ => none

def Reachable (c : RenderCrew) : Prop :=
  Reaches step {} c

/-- The thread comes from one state to another while nobody else takes a turn. -/
abbrev GoesOn : RenderCrew → RenderCrew → Prop :=
  Reaches fun c (_ : Unit) => c.advance

theorem goesOn_of_advance {c d : RenderCrew} (h : c.advance = some d) : GoesOn c d :=
  .single (t := ()) h

@[simp] theorem stage_post (c : RenderCrew) (m : RenderMessage) : (c.post m).stage = c.stage :=
  rfl

@[simp] theorem begun_post (c : RenderCrew) (m : RenderMessage) : (c.post m).begun = c.begun :=
  rfl

@[simp] theorem channel_post (c : RenderCrew) (m : RenderMessage) :
    (c.post m).channel = (c.channel.send m).2 :=
  rfl

/-- The crew in which the thread has messages waiting, has begun some tasks, and is at a stage. -/
structure Holds (c : RenderCrew) (stage : ThreadStage) (items : List RenderMessage)
    (begun : List Task) : Prop where
  received : c.channel.received = true
  items_eq : c.channel.items = items
  stage_eq : c.stage = stage
  begun_eq : c.begun = begun

theorem Holds.queue_nested {c : RenderCrew} {t : Task} {left begun : List Task}
    {items : List RenderMessage} (h : c.Holds (.running t left) items begun) :
    ∃ d, GoesOn c d ∧ d.Holds (.running t []) (items ++ left.map .run) begun := by
  induction left generalizing c items with
  | nil => exact ⟨c, .refl, by simpa using h⟩
  | cons n left ih =>
    have first : c.advance = some { c.post (.run n) with stage := .running t left } := by
      simp [advance, h.stage_eq]
    have next : Holds { c.post (.run n) with stage := .running t left } (.running t left)
        (items ++ [.run n]) begun := by
      refine ⟨?_, ?_, rfl, h.begun_eq⟩
      · simp [h.received]
      · simp [Channel.items_send, h.received, h.items_eq]
    obtain ⟨d, hd, hh⟩ := ih next
    exact ⟨d, (goesOn_of_advance first).trans hd, by simpa using hh⟩

theorem Holds.run_next {c : RenderCrew} {t : Task} {items : List RenderMessage}
    {begun : List Task} (h : c.Holds .receiving (.run t :: items) begun) :
    ∃ d, GoesOn c d ∧ d.Holds (if t.panics then .leaving .panicked else .receiving)
      (items ++ t.nested.map .run) (begun ++ [t]) := by
  have first : c.advance = some { c with
      channel := { c.channel with items }
      stage := .running t t.nested
      begun := c.begun ++ [t] } := by
    simp [advance, h.stage_eq, Channel.receive, h.items_eq]
  have begins : Holds { c with
      channel := { c.channel with items }
      stage := .running t t.nested
      begun := c.begun ++ [t] } (.running t t.nested) items (begun ++ [t]) :=
    ⟨h.received, rfl, rfl, congrArg (· ++ [t]) h.begun_eq⟩
  obtain ⟨d, hd, hh⟩ := begins.queue_nested
  have last : d.advance = some { d with
      stage := if t.panics then .leaving .panicked else .receiving } := by
    simp [advance, hh.stage_eq]
  exact ⟨_, (goesOn_of_advance first).trans (hd.trans (goesOn_of_advance last)),
    ⟨hh.received, hh.items_eq, rfl, hh.begun_eq⟩⟩

/-- A thread that has tasks waiting catches up with them as a run over the waiting tasks says. -/
theorem Holds.catch_up {c : RenderCrew} {waiting begun : List Task}
    (h : c.Holds .receiving (waiting.map .run) begun) :
    ∃ d ran, GoesOn c d ∧ ran.map Task.record = (TaskRun.ofWaiting waiting).ran ∧
      d.Holds (TaskRun.ofWaiting waiting).ending.stage
        ((TaskRun.ofWaiting waiting).waiting.map .run) (begun ++ ran) := by
  fun_induction TaskRun.ofWaiting waiting generalizing c begun with
  | case1 => exact ⟨c, [], .refl, rfl, by simpa [RunEnd.stage] using h⟩
  | case2 t ts ht =>
    obtain ⟨d, hd, hh⟩ := h.run_next
    exact ⟨d, [t], hd, rfl, by simpa [ht, RunEnd.stage] using hh⟩
  | case3 t ts ht ih =>
    obtain ⟨d, hd, hh⟩ := h.run_next
    obtain ⟨e, ran, he, hr, hk⟩ := ih (by simpa [ht] using hh)
    exact ⟨e, t :: ran, hd.trans he, by simp [TaskRun.after, hr],
      by simpa [TaskRun.after] using hk⟩

theorem Holds.leave {c : RenderCrew} {e : ThreadEnd} {items : List RenderMessage}
    {begun : List Task} (h : c.Holds (.leaving e) items begun) :
    ∃ d, GoesOn c d ∧ d.stage = .ended e ∧ d.begun = begun := by
  have last : c.advance = some { c with channel := c.channel.close, stage := .ended e } := by
    simp [advance, h.stage_eq]
  exact ⟨_, goesOn_of_advance last, rfl, h.begun_eq⟩

/-- A thread that has tasks waiting and a request to end behind them winds up as a run before a stop
says. -/
theorem Holds.wind_up {c : RenderCrew} {waiting begun : List Task} {behind : List RenderMessage}
    (h : c.Holds .receiving (waiting.map .run ++ .stop :: behind) begun) :
    ∃ d ran, GoesOn c d ∧ ran.map Task.record = (TaskRun.beforeStop waiting).ran ∧
      d.stage = .ended (TaskRun.beforeStop waiting).ending.threadEnd ∧ d.begun = begun ++ ran := by
  induction waiting generalizing c begun behind with
  | nil =>
    have first : c.advance = some { c with
        channel := { c.channel with items := behind }
        stage := .leaving .asked } := by
      simp [advance, h.stage_eq, Channel.receive, h.items_eq]
    have next : Holds { c with
        channel := { c.channel with items := behind }
        stage := .leaving .asked } (.leaving .asked) behind begun :=
      ⟨h.received, rfl, rfl, h.begun_eq⟩
    obtain ⟨d, hd, stage, same⟩ := next.leave
    exact ⟨d, [], (goesOn_of_advance first).trans hd, rfl, stage, by simpa using same⟩
  | cons t ts ih =>
    rw [List.map_cons, List.cons_append] at h
    obtain ⟨d, hd, hh⟩ := h.run_next
    by_cases panics : t.panics = true
    · rw [if_pos panics] at hh
      obtain ⟨e, he, stage, same⟩ := hh.leave
      refine ⟨e, [t], hd.trans he, ?_, ?_, same⟩
      · simp [TaskRun.beforeStop, TaskRun.untilPanic, panics]
      · simpa [TaskRun.beforeStop, panics, RunEnd.threadEnd] using stage
    · -- what the task has queued stands behind the request to end
      rw [if_neg panics, List.append_assoc, List.cons_append] at hh
      obtain ⟨e, ran, he, records, stage, same⟩ := ih hh
      refine ⟨e, t :: ran, hd.trans he, ?_, ?_, by simpa using same⟩
      · simpa [TaskRun.beforeStop, TaskRun.untilPanic, panics] using records
      · simpa [TaskRun.beforeStop, panics] using stage

end RenderCrew

end RenderBroker
