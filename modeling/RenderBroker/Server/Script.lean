import RenderBroker.Loop.Handler

/-!
# Scripted handlers

A scripted handler reads frames of a fixed size. What it does with a frame is laid down for the
frame's first byte, and it notes down all that it is called for.
-/

namespace RenderBroker

inductive ScriptAction where
  /-- Goes on to the next frame. -/
  | proceed
  /-- Leaves further frames alone until more bytes arrive. -/
  | pause
  | kill
  | fail
  | echo
  | echoKill
  | echoFail
  | count
  | reply (size : Nat)
  /-- Changes the size of the input stream, which panics if unread bytes do not fit. -/
  | resize (size : Nat)
  deriving DecidableEq, Repr

structure Script where
  frame : Nat
  frame_pos : 0 < frame
  action : UInt8 → ScriptAction
  /-- Whether clients get streams. -/
  streams : Bool := true

inductive ScriptNote where
  | opened (input : Option Nat) (output : Bool)
  | noStream
  /-- No whole frame waits. -/
  | idle (available capacity : Nat)
  /-- A frame was read. -/
  | request (frame : List UInt8) (available capacity : Nat)
  | closed (seen : List UInt8) (killed : Bool) (unread unsent : Option Nat)
  deriving DecidableEq, Repr

/-- The notes of a scripted handler with the serial numbers of their connections, the latest first,
and whether a large reply was queued. -/
structure ScriptLog where
  notes : List (Nat × ScriptNote) := []
  large : Bool := false

/-- A client whose tag holds the first bytes of all frames that were read, the latest first. -/
abbrev ScriptClient := Client (List UInt8)

namespace Script

def note (w : ScriptLog) (c : ScriptClient) (n : ScriptNote) : ScriptLog :=
  { w with notes := (c.serial, n) :: w.notes }

/-- The notes that were made since an earlier state, in order. -/
def notesSince (w earlier : ScriptLog) : List (Nat × ScriptNote) :=
  (w.notes.take (w.notes.length - earlier.notes.length)).reverse

def replyByte : UInt8 :=
  0xAB

/-- Replies above this size are large: how much of them was sent depends on the system. -/
def largeReply : Nat :=
  4096

def resizeInput (c : ScriptClient) (size : Nat) : RequestEnd × ScriptClient :=
  match c.input with
  | none => (.served, c)
  | some s =>
    match s.resize size with
    | .ok s => (.served, { c with input := some s })
    | .error _ => (.panicked, c)

def perform (w : ScriptLog) (c : ScriptClient) (frame : List UInt8) :
    ScriptAction → RequestEnd × ScriptLog × ScriptClient
  | .proceed => (.served, w, c)
  | .pause => (.idle, w, c)
  | .kill => (.served, w, c.kill)
  | .fail => (.failed, w, c)
  | .echo => (.served, w, c.reply frame)
  | .echoKill => (.served, w, (c.reply frame).kill)
  | .echoFail => (.failed, w, c.reply frame)
  | .count => (.served, w, c.reply [UInt8.ofNat c.tag.length])
  | .reply size =>
    (.served, { w with large := w.large || largeReply < size },
      c.reply (List.replicate size replyByte))
  | .resize size => let (e, c) := resizeInput c size; (e, w, c)

/-- The client when a frame was read from its input stream. -/
def seen (c : ScriptClient) (s : InputStream) (frame : List UInt8) : ScriptClient :=
  { c with input := some s, tag := frame.take 1 ++ c.tag }

/-- Reads a frame, if there is a whole one, and carries out its action. -/
def request (k : Script) (w : ScriptLog) (c : ScriptClient) :
    RequestEnd × ScriptLog × ScriptClient :=
  match c.input with
  | none => (.idle, note w c .noStream, c)
  | some s =>
    match s.read k.frame with
    | .error _ => (.idle, note w c (.idle s.available s.capacity), c)
    | .ok (frame, s) =>
      perform (note w c (.request frame s.available s.capacity)) (seen c s frame) frame
        (k.action (frame.headD 0))

def opened (k : Script) (w : ScriptLog) (c : ScriptClient) : Option (ScriptLog × ScriptClient) :=
  match if k.streams then c.createStreams else .ok c with
  | .ok c => some (note w c (.opened (c.input.map InputStream.capacity) c.output.isSome), c)
  | .error _ => none

def closed (w : ScriptLog) (c : ScriptClient) : ScriptLog :=
  note w c
    (.closed c.tag.reverse c.killed (c.input.map InputStream.available)
      (if w.large then none else c.output.map OutputStream.pending))

theorem available_resizeInput (c : ScriptClient) (size : Nat) :
    (resizeInput c size).2.available = c.available := by
  rw [resizeInput]
  split
  · rfl
  · next s hi =>
    split
    · next t hr => simp [Client.available, hi, InputStream.available_of_resize hr]
    · rfl

theorem available_perform (w : ScriptLog) (c : ScriptClient) (frame : List UInt8)
    (a : ScriptAction) : (perform w c frame a).2.2.available = c.available := by
  cases a with
  | resize size => exact available_resizeInput c size
  | _ => rfl

theorem available_request (k : Script) {w w' : ScriptLog} {c c' : ScriptClient}
    (h : k.request w c = (.served, w', c')) : c'.available < c.available := by
  rw [request] at h
  split at h
  · cases h
  · next s hi =>
    split at h
    · cases h
    · next frame t hr =>
      have kept := available_perform (note w c (.request frame t.available t.capacity))
        (seen c t frame) frame (k.action (frame.headD 0))
      rw [h] at kept
      have fewer := InputStream.available_of_read hr
      have pos := k.frame_pos
      simp only [seen, Client.available, hi, Option.map_some, Option.getD_some] at kept ⊢
      omega

def handler (k : Script) : Handler (List UInt8) ScriptLog where
  blank := []
  opened := k.opened
  request := k.request
  closed := closed
  backlog _ c := c.available
  backlog_lt h := by simpa using k.available_request h

end Script

end RenderBroker
