import RenderBroker.Command.Reply
import RenderBroker.Text.Blank

/-!
# A console of clients

Clients of a running service can be played line by line. A line names a client and the codes of the
requests that it sends; a client connects when it is named for the first time.
-/

namespace RenderBroker.Command

def words (s : List Char) : List (List Char) :=
  (Text.cut ' ' (s.map fun c => if Text.isBlank c then ' ' else c)).filter (· ≠ [])

def readCode (s : List Char) : Option UInt8 :=
  (Text.readNumeral 255 s).toOption.map UInt8.ofNat

def join (s : Service) (peer : String) : Service :=
  if (s.link? peer).isSome then s else (s.connect peer).2

/-- Plays a line: what the client heard for each request, and the service after it. -/
def play (s : Service) (line : String) : String × Service :=
  match words line.toList with
  | [] => ("", s)
  | peer :: codes =>
    match codes.mapM readCode with
    | none => ("a request is a number from 0 to 255\n", s)
    | some codes =>
      let (rs, s) := Renderer.askEach (join s (String.ofList peer)) (String.ofList peer) codes
      (" ".intercalate (rs.map Renderer.RequestResult.shown) ++ "\n", s)

end RenderBroker.Command
