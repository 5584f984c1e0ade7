import RenderBroker.Render.Channel

/-!
# Render tasks

A task queues its nested tasks on the channel it came from and may then panic. The render side takes
one task after the other; since every task it runs leaves the channel for good, the total size of
the tasks in the channel bounds the work.
-/

namespace RenderBroker

inductive Task where
  | mk (label : Int) (nested : List Task) (panics : Bool) (named : Bool)

namespace Task

instance : Inhabited Task := ⟨mk 0 [] false false⟩

def label : Task → Int
  | mk label _ _ _ => label

def nested : Task → List Task
  | mk _ nested _ _ => nested

def panics : Task → Bool
  | mk _ _ panics _ => panics

/-- Whether a task notes down the thread it runs on. -/
def named : Task → Bool
  | mk _ _ _ named => named

mutual

def size : Task → Nat
  | mk _ nested _ _ => sizeList nested + 1

/-- The number of tasks in the trees of a list. -/
def sizeList : List Task → Nat
  | [] => 0
  | t :: ts => t.size + sizeList ts

end

theorem size_eq (t : Task) : t.size = sizeList t.nested + 1 := by
  cases t
  simp [size, nested]

@[simp] theorem sizeList_append (ts us : List Task) :
    sizeList (ts ++ us) = sizeList ts + sizeList us := by
  induction ts with
  | nil => simp [sizeList]
  | cons t ts ih => simp [sizeList, ih, Nat.add_assoc]

end Task

/-- What a task noted down when it ran: its label, and for each nested task whether the channel took
it. -/
structure TaskRecord where
  label : Int
  queued : List Bool
  named : Bool
  deriving DecidableEq, Repr

def Task.record (t : Task) : TaskRecord :=
  ⟨t.label, t.nested.map fun _ => true, t.named⟩

inductive RunEnd where
  | drained
  /-- A task panicked, and the tasks behind it still wait. -/
  | panicked
  deriving DecidableEq, Repr

/-- The records of the tasks that ran, the tasks that still wait, and how the run ended. -/
structure TaskRun where
  ran : List TaskRecord
  waiting : List Task
  ending : RunEnd

namespace TaskRun

def after (r : TaskRecord) (run : TaskRun) : TaskRun :=
  { run with ran := r :: run.ran }

/-- Runs the waiting tasks in order, until none waits or one panics. -/
def ofWaiting : List Task → TaskRun
  | [] => ⟨[], [], .drained⟩
  | t :: ts =>
    if t.panics then ⟨[t.record], ts ++ t.nested, .panicked⟩
    else (ofWaiting (ts ++ t.nested)).after t.record
termination_by ts => Task.sizeList ts
decreasing_by simp [Task.sizeList, Task.size_eq]; omega

/-- Up to the first task that panics. -/
def untilPanic : List Task → List Task
  | [] => []
  | t :: ts => if t.panics then [t] else t :: untilPanic ts

/-- Runs the waiting tasks up to a stop that stands behind them. What they queue comes behind the
stop, and is never run. -/
def beforeStop (ts : List Task) : TaskRun :=
  let ran := untilPanic ts
  ⟨ran.map Task.record, ts.drop ran.length ++ ran.flatMap Task.nested,
    if ts.any Task.panics then .panicked else .drained⟩

/-- The number of tasks that ran to their end. -/
def finished (run : TaskRun) : Nat :=
  match run.ending with
  | .drained => run.ran.length
  | .panicked => run.ran.length - 1

end TaskRun

end RenderBroker
