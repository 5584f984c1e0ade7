import RenderBroker.Log
import RenderBroker.Render.Backend

/-!
# What the render side logs
-/

namespace RenderBroker

inductive RenderNotice where
  | contextCreated (h : ContextHandle) (fd : Descriptor)
  | contextFailed (fd : Descriptor) (raw : Int64)
  | contextDestroyed (h : ContextHandle)
  | windowNotResolved (id : UInt32)
  | windowNotRefreshed (id : UInt32)
  | allocationFailed (id : UInt32) (width height : UInt16)
  | textureReplaced (id : UInt32)
  | textureLeaked (id : UInt32) (t : Texture)
  | alreadyOwner (fd : Descriptor) (h : ContextHandle)
  | closingClient (fd : Descriptor)
  | unknownRequest (fd : Descriptor) (code : UInt8)
  | loopbackRefused (fd : Descriptor)
  | loopbackCreated (raw : Int64) (fd : Descriptor) (options : RenderOptions)
  | loopbackUnknown (h : ContextHandle)
  | loopbackDestroyed (t : Texture)
  | taskDropped
  | threadPanicked

namespace RenderNotice

def level : RenderNotice → Level
  | .contextCreated .. | .contextDestroyed .. => .info
  | .contextFailed .. | .allocationFailed .. | .textureLeaked .. | .alreadyOwner ..
  | .closingClient .. | .loopbackRefused .. | .loopbackUnknown .. | .taskDropped => .warn
  | .windowNotResolved .. | .windowNotRefreshed .. | .textureReplaced .. | .unknownRequest ..
  | .loopbackCreated .. | .loopbackDestroyed .. => .debug
  | .threadPanicked => .error

def shownNames (names : List String) : String :=
  "[" ++ ", ".intercalate (names.map Text.quoted) ++ "]"

def text : RenderNotice → String
  | .contextCreated h fd =>
    "[Renderer] Render context " ++ h.display ++ " created for client " ++ Text.decimalInt fd
  | .contextFailed fd raw =>
    "[Renderer] Render context creation failed for client " ++ Text.decimalInt fd
      ++ " (returned " ++ Text.decimalInt raw.toInt ++ ")"
  | .contextDestroyed h => "[Renderer] Destroying render context " ++ h.display
  | .windowNotResolved id =>
    "[Renderer] Window " ++ Text.decimal id.toNat ++ " not found, returning empty surface"
  | .windowNotRefreshed id =>
    "[Renderer] Window " ++ Text.decimal id.toNat ++ " not found, nothing to update"
  | .allocationFailed id width height =>
    "[Renderer] GPU image allocation failed for window " ++ Text.decimal id.toNat ++ " ("
      ++ Text.decimal width.toNat ++ "x" ++ Text.decimal height.toNat ++ ")"
  | .textureReplaced id =>
    "[Renderer] Window " ++ Text.decimal id.toNat ++ " texture is not a GPU image, replacing"
  | .textureLeaked id t =>
    "[Renderer] Render thread gone, leaking replaced texture of window "
      ++ Text.decimal id.toNat ++ ": " ++ t.shown
  | .alreadyOwner fd h =>
    "[Renderer] Client " ++ Text.decimalInt fd ++ " already owns context " ++ h.display
      ++ ", ignoring create request"
  | .closingClient fd =>
    "[Renderer] Closing client " ++ Text.decimalInt fd ++ " after failed context creation"
  | .unknownRequest fd code =>
    "[Renderer] Client " ++ Text.decimalInt fd ++ " sent unknown request code "
      ++ Text.decimal code.toNat ++ ", ignoring"
  | .loopbackRefused fd =>
    "[Loopback] Context limit reached, refusing client " ++ Text.decimalInt fd
  | .loopbackCreated raw fd o =>
    "[Loopback] Context " ++ Text.decimalInt raw.toInt ++ " for client " ++ Text.decimalInt fd
      ++ " (api " ++ o.maxVersion.display ++ ", " ++ Text.decimal o.deviceMemory.toNat
      ++ " MiB, extensions " ++ shownNames (Loopback.exposed o) ++ ")"
  | .loopbackUnknown h => "[Loopback] Destroy for unknown context " ++ h.display
  | .loopbackDestroyed t => "[Loopback] Destroyed texture " ++ t.shown
  | .taskDropped => "[RenderThread] Render thread gone, dropping queued task"
  | .threadPanicked => "[RenderThread] Render thread panicked"

def line (n : RenderNotice) : LogLine :=
  ⟨n.level, n.text⟩

end RenderNotice

end RenderBroker
