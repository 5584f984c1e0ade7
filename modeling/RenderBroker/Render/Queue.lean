import RenderBroker.Render.Notice
import RenderBroker.Render.Task

/-!
# The render queue

Any number of sending ends put tasks into one channel, and whoever holds the receiving end runs the
tasks that wait. The channel outlives its sending ends.
-/

namespace RenderBroker

/-- The channel of tasks, and for each sending end made so far whether it is still held. -/
structure RenderQueue where
  tasks : Channel Task := {}
  ends : List Bool := [true]
  notices : List RenderNotice := []

namespace RenderQueue

def holds (q : RenderQueue) (place : Nat) : Bool :=
  q.ends.getD place false

def send (q : RenderQueue) (t : Task) : Bool × RenderQueue :=
  let (taken, tasks) := q.tasks.send t
  (taken, { q with tasks, notices := q.notices ++ if taken then [] else [.taskDropped] })

/-- Makes another sending end, and gives its place. -/
def split (q : RenderQueue) : Nat × RenderQueue :=
  (q.ends.length, { q with ends := q.ends ++ [true] })

def release (q : RenderQueue) (place : Nat) : RenderQueue :=
  { q with ends := q.ends.set place false }

def close (q : RenderQueue) : RenderQueue :=
  { q with tasks := q.tasks.close }

/-- Runs the tasks that wait and those that they queue, until none waits or one panics. -/
def runPending (q : RenderQueue) : TaskRun × RenderQueue :=
  let run := TaskRun.ofWaiting q.tasks.items
  (run, { q with tasks := { q.tasks with items := run.waiting } })

def sendingShown (held : Bool) : String :=
  if held then "Some(RenderQueue \x7b .. \x7d)" else "None"

def receivingShown (held : Bool) : String :=
  if held then "Some(RenderReceiver \x7b .. \x7d)" else "None"

end RenderQueue

end RenderBroker
