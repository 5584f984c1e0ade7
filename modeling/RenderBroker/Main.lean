import RenderBroker.Command.Console

/-!
# The command line

Files and variables are read here, and output is written. The clients of a service are played on the
console, and the end of the input ends the service.
-/

namespace RenderBroker.Command

def faultOf : IO.Error → Fault
  | .noFileOrDirectory .. => .notFound
  | .permissionDenied .. => .permissionDenied
  | .inappropriateType .. => .isADirectory
  | _ => .other

/-- What comes of asking the system for something. -/
def answered {α : Type} (action : IO α) : IO (Except Fault α) := do
  try
    return .ok (← action)
  catch e =>
    return .error (faultOf e)

/-- Looks at what lies at a path, behind all links, and reads it. The system is asked by text; the
arguments are text, so a path from them is too. -/
def lookAt (p : Path) : IO ServerConfig.FileSight := do
  let some name := p.text? | throw (.userError ("Path is no text: " ++ p.display))
  -- a path that is too long is never looked at, but resolving it would shorten it
  let look ← match FileTree.faultOf? p with
    | some f => pure (.error f)
    | none => answered (discard (IO.FS.realPath name))
  let content ← answered (IO.FS.readBinFile name)
  return { look, content := content.map ByteArray.toList }

def lookAround (r : Request) : IO Surroundings := do
  let nothing : ServerConfig.FileSight := ⟨.error .notFound, .error .notFound⟩
  let view ← match r with
    | .serve a =>
      match a.config with
      | some p => lookAt p
      | none => pure nothing
    | _ => pure nothing
  let names := "TMPDIR" :: ServerConfig.Variable.all.map ServerConfig.Variable.name
  let values ← names.mapM fun name => do
    return (name, (← IO.getEnv name).map Text.utf8)
  return .within {} (fun _ => view) fun name => (values.lookup name).join

/-- Plays lines until the input ends. -/
partial def playAll (input : IO.FS.Stream) (s : Service) : IO Service := do
  let line ← input.getLine
  if line.isEmpty then
    return s
  let (heard, s) := play s line
  IO.print heard
  playAll input s

def carryOutAll (r : Request) : IO UInt32 := do
  match r.carryOut (← lookAround r) with
  | .ended reply =>
    IO.print reply.output
    if r = .misuse then
      IO.eprint HelpTopic.program.text
    if let some report := reply.report? then
      IO.eprintln report
    return UInt32.ofNat reply.code
  | .serving output s =>
    IO.print output
    let s ← playAll (← IO.getStdin) s
    let (reply, _) := finish "" s
    IO.print reply.output
    return UInt32.ofNat reply.code

end RenderBroker.Command

def main (args : List String) : IO UInt32 :=
  RenderBroker.Command.carryOutAll
    (RenderBroker.Command.read (args.map RenderBroker.Text.utf8))
