import RenderBroker.Loop.Handler
import RenderBroker.Render.Bridge
import RenderBroker.Render.Request
import RenderBroker.Server.Host

/-!
# The renderer

The renderer serves render clients: it reads their requests byte by byte, and a client owns at most
one render context, which lives as long as its connection.
-/

namespace RenderBroker

/-- A render client, with the context that it owns. -/
abbrev RenderClient := Client (Option ContextHandle)

namespace Renderer

/-- A client gets a buffer for one request. -/
def inputCapacity : Nat :=
  1

/-- A client gets no replies. -/
def outputCapacity : Nat :=
  0

/-- Creates a context for a client that owns none; a client that cannot get one is marked to be torn
down. -/
def createContext (o : RenderOptions) (b : Bridge) (c : RenderClient) : Bridge × RenderClient :=
  match c.tag with
  | some h => (b.tell (.alreadyOwner c.descriptor h), c)
  | none =>
    match b.createContext c.descriptor o with
    | (some h, b) => (b, { c with tag := some h })
    | (none, b) => (b.tell (.closingClient c.descriptor), c.kill)

def perform (o : RenderOptions) (b : Bridge) (c : RenderClient) (code : UInt8) :
    Bridge × RenderClient :=
  match RenderRequest.ofCode? code with
  | some .createContext => createContext o b c
  | none => (b.tell (.unknownRequest c.descriptor code), c)

def request (o : RenderOptions) (b : Bridge) (c : RenderClient) :
    RequestEnd × Bridge × RenderClient :=
  match c.input with
  | none => (.idle, b, c)
  | some s =>
    match s.readByte with
    | .error _ => (.idle, b, c)
    | .ok (code, s) => (.served, perform o b { c with input := some s } code)

def release (b : Bridge) (c : RenderClient) : Bridge :=
  match c.tag with
  | some h => b.destroyContext h
  | none => b

theorem input_perform (o : RenderOptions) (b : Bridge) (c : RenderClient) (code : UInt8) :
    (perform o b c code).2.input = c.input := by
  unfold perform createContext
  split
  · split
    · rfl
    · split <;> rfl
  · rfl

theorem available_request {o : RenderOptions} {b b' : Bridge} {c c' : RenderClient}
    (h : request o b c = (.served, b', c')) : c'.available < c.available := by
  rw [request] at h
  split at h
  · cases h
  · next s hi =>
    split at h
    · cases h
    · next code t hr =>
      simp only [Prod.mk.injEq, true_and] at h
      have kept := input_perform o b { c with input := some t } code
      simp only [h] at kept
      have fewer := InputStream.available_of_readByte hr
      simp only [Client.available, hi, kept, Option.map_some, Option.getD_some]
      omega

/-- The handler of render clients, whose contexts are created with the given options. -/
def handler (o : RenderOptions) : Handler (Option ContextHandle) Bridge where
  blank := none
  opened b c := c.createStreams.toOption.map fun c => (b, c)
  request := request o
  closed := release
  backlog _ c := c.available
  backlog_lt h := by simpa using available_request h

def host (o : RenderOptions) (path : Path) (files : FileTree) (b : Bridge) :
    Host (Option ContextHandle) Bridge :=
  .create (handler o) { path, inputCapacity, outputCapacity } files b

inductive RequestResult where
  | created (h : ContextHandle)
  | alreadyOwner
  | unknown
  /-- No context could be created, and the client was torn down. -/
  | refused
  deriving DecidableEq

/-- What a notice tells about a request. -/
def RequestResult.ofNotice? : RenderNotice → Option RequestResult
  | .contextCreated h _ => some (.created h)
  | .alreadyOwner _ _ => some .alreadyOwner
  | .unknownRequest _ _ => some .unknown
  | .closingClient _ => some .refused
  | _ => none

/-- A peer sends one request, and the renderer carries it out. -/
def ask (h : Host (Option ContextHandle) Bridge) (peer : String) (code : UInt8) :
    Option RequestResult × Host (Option ContextHandle) Bridge :=
  let next := h.change peer fun k => k.send [code]
  ((next.loop.world.noticesSince h.loop.world).findSome? RequestResult.ofNotice?, next)

/-- A peer sends one request after the other, until one is refused or nobody listens. -/
def askEach (h : Host (Option ContextHandle) Bridge) (peer : String) :
    List UInt8 → List RequestResult × Host (Option ContextHandle) Bridge
  | [] => ([], h)
  | code :: codes =>
    match ask h peer code with
    | (none, h) => ([], h)
    | (some .refused, h) => ([.refused], h)
    | (some r, h) => let (rs, h) := askEach h peer codes; (r :: rs, h)

def RequestResult.shown : RequestResult → String
  | .created h => "created " ++ h.display
  | .alreadyOwner => "already"
  | .unknown => "unknown"
  | .refused => "refused"

def shown (o : RenderOptions) (c : Connector) : String :=
  "RendererComponent \x7b handler: RenderRequestHandler \x7b bridge: " ++ Bridge.shown
    ++ ", options: " ++ o.shown ++ " \x7d, connector: " ++ c.shown ++ " \x7d"

end Renderer

end RenderBroker
