import RenderBroker.Render.Task
import RenderBroker.Text.Decimal
import RenderBroker.Text.Utf8

/-!
# The render thread

A thread of its own receives tasks until it is asked to end or a task panics. Whoever ends it waits
for it, and learns there whether it panicked. The request to end goes through the channel of the
tasks: the thread is seen here as one that does not begin on what it was sent before somebody waits
for it, so that all tasks sent by then stand before the request, and what they queue behind it.
-/

namespace RenderBroker

inductive ThreadEnd where
  | asked
  | panicked
  deriving DecidableEq, Repr

/-- What a thread comes to when its run over the tasks before a request to end has ended. -/
def RunEnd.threadEnd : RunEnd → ThreadEnd
  | .drained => .asked
  | .panicked => .panicked

/-- The render thread, with the tasks that it was sent since somebody has waited for it. -/
structure RenderThread where
  ran : List TaskRecord := []
  waiting : List Task := []
  ended : Option ThreadEnd := none
  /-- Whether somebody still has to wait for its end. -/
  joinable : Bool := true
  /-- How many times a panic was found while waiting for the end. -/
  panicsFound : Nat := 0

namespace RenderThread

/-- The text of the panic that the name of a thread causes; a name must not hold a null byte. -/
def namePanic? (name : String) : Option String :=
  let bytes := Text.utf8 name
  if bytes.contains 0 then
    some ("thread name may not contain interior null bytes: NulError("
      ++ Text.decimal (bytes.idxOf 0) ++ ", ["
      ++ ", ".intercalate (bytes.map fun b => Text.decimal b.toNat) ++ "])")
  else none

/-- Sends a task, which is taken unless the thread has ended. -/
def send (t : RenderThread) (task : Task) : Bool × RenderThread :=
  if t.ended.isSome then (false, t) else (true, { t with waiting := t.waiting ++ [task] })

/-- Waits until the thread has run all that waits, and what that has queued, or has ended. -/
def catchUp (t : RenderThread) : RenderThread :=
  if t.ended.isSome then t
  else
    let run := TaskRun.ofWaiting t.waiting
    { t with
      ran := t.ran ++ run.ran
      waiting := []
      ended := if run.ending = .panicked then some .panicked else none }

def windUp (t : RenderThread) : RenderThread :=
  let run := TaskRun.beforeStop t.waiting
  { t with
    ran := t.ran ++ run.ran
    waiting := []
    ended := some (t.ended.getD run.ending.threadEnd) }

/-- Asks the thread to end and waits for it; a second time there is nothing to wait for. -/
def shutdown (t : RenderThread) : RenderThread :=
  if t.joinable then
    let t := t.windUp
    { t with
      joinable := false
      panicsFound := if t.ended = some .panicked then t.panicsFound + 1 else t.panicsFound }
  else t

def panicText : String :=
  "task panicked"

def shown (t : RenderThread) : String :=
  if t.joinable then "Some(RenderThread \x7b running: true \x7d)" else "None"

end RenderThread

end RenderBroker
