import RenderBroker.Render.Channel
import RenderBroker.Render.Notice
import RenderBroker.Surface.Scene

/-!
# The bridge between clients, windows and the backend

The bridge creates and destroys render contexts, and turns the content of a window into a buffer
that other processes can import. A texture that it replaces is sent to the render side, which alone
destroys textures.
-/

namespace RenderBroker

structure Bridge where
  backend : Backend := {}
  scene : Scene := {}
  discarded : Channel Texture := {}
  notices : List RenderNotice := []

namespace Bridge

def tell (b : Bridge) (n : RenderNotice) : Bridge :=
  { b with notices := n :: b.notices }

/-- What was told since an earlier state of the bridge, in order. -/
def noticesSince (b earlier : Bridge) : List RenderNotice :=
  (b.notices.take (b.notices.length - earlier.notices.length)).reverse

def callsSince (b earlier : Bridge) : List BackendCall :=
  (b.backend.calls.take (b.backend.calls.length - earlier.backend.calls.length)).reverse

def shown : String :=
  "GpuContextBridge \x7b .. \x7d"

/-- What a loopback backend tells when it was asked for a context and returned `raw`. -/
def loopbackNotice (b : Bridge) (fd : Descriptor) (o : RenderOptions) (raw : Int64) :
    Option RenderNotice :=
  if b.backend.creates.isSome then none
  else if b.backend.loopback.isFull then some (.loopbackRefused fd)
  else some (.loopbackCreated raw fd o)

/-- What is told when the backend returned `raw`. -/
def creationNotice (fd : Descriptor) (raw : Int64) : RenderNotice :=
  match ContextHandle.ofRaw? raw with
  | some h => .contextCreated h fd
  | none => .contextFailed fd raw

def createContext (b : Bridge) (fd : Descriptor) (o : RenderOptions) :
    Option ContextHandle × Bridge :=
  let (raw, backend) := b.backend.createContext fd o
  (ContextHandle.ofRaw? raw,
    { b with
      backend
      notices := creationNotice fd raw :: ((b.loopbackNotice fd o raw).toList ++ b.notices) })

def destroyContext (b : Bridge) (h : ContextHandle) : Bridge :=
  let (known, backend) := b.backend.destroyContext h
  let unknown := if known = some false then [RenderNotice.loopbackUnknown h] else []
  { b with backend, notices := unknown ++ .contextDestroyed h :: b.notices }

/-- Sends a replaced texture to the render side; it is lost if nobody receives it there. -/
def discard (b : Bridge) (id : UInt32) (t : Texture) : Bridge :=
  let (taken, discarded) := b.discarded.send t
  let b := { b with discarded }
  if taken then b else (b.tell .taskDropped).tell (.textureLeaked id t)

/-- Puts a new image into the slot of the window's drawable, whose texture is no image. -/
def install (b : Bridge) (w : Window) (i : GpuImage) : Bridge :=
  let (old, scene) := b.scene.setTexture w.content (.image i)
  let b := { b with scene }
  match old with
  | some t => (b.tell (.textureReplaced w.id)).discard w.id t
  | none => b

/-- The buffer in the slot of a drawable, if it can be imported. -/
def buffer? (b : Bridge) (d : DrawableId) : Option HardwareBuffer :=
  (b.scene.drawable? d).bind Drawable.buffer?

/-- A new image of the window's size takes the slot of its drawable, unless the backend has none. -/
def provide (b : Bridge) (w : Window) : WindowSurface × Bridge :=
  match b.backend.allocate w.width w.height with
  | (none, backend) =>
    (⟨w.width, w.height, none⟩,
      { b with backend }.tell (.allocationFailed w.id w.width w.height))
  | (some i, backend) => (⟨w.width, w.height, some i.buffer⟩, { b with backend }.install w i)

/-- The surface of a window: the image in its drawable's slot, or else a new one of the window's
size that takes the slot. -/
def surfaceOf (b : Bridge) (w : Window) : WindowSurface × Bridge :=
  match b.buffer? w.content with
  | some buffer => (⟨w.width, w.height, some buffer⟩, b)
  | none => b.provide w

/-- The surface of the window with a number; it is empty if the window is not there. -/
def resolve (b : Bridge) (id : UInt32) : WindowSurface × Bridge :=
  match b.scene.window? id with
  | none => (.empty, b.tell (.windowNotResolved id))
  | some w => b.surfaceOf w

def windowWidth (b : Bridge) (id : UInt32) : UInt16 :=
  ((b.scene.window? id).map Window.width).getD 0

def windowHeight (b : Bridge) (id : UInt32) : UInt16 :=
  ((b.scene.window? id).map Window.height).getD 0

/-- Whether a call that resolves or redraws a window has to wait while somebody holds the render
lock of a drawable: it does if the window shows that drawable. -/
def waitsFor (b : Bridge) (id : UInt32) (d : DrawableId) : Bool :=
  (b.scene.window? id).any fun w => w.content == d

def redraw (b : Bridge) (d : DrawableId) : Bridge :=
  { b with scene := b.scene.modifyDrawable d Drawable.update }

def refresh (b : Bridge) (id : UInt32) : Bridge :=
  match b.scene.window? id with
  | none => b.tell (.windowNotRefreshed id)
  | some w => b.redraw w.content

def setTexture (b : Bridge) (d : DrawableId) (t : Texture) : Option Texture × Bridge :=
  let (old, scene) := b.scene.setTexture d t
  (old, { b with scene })

def destroyTexture (b : Bridge) (t : Texture) : Bridge :=
  { b with backend := b.backend.destroyTexture t }.tell (.loopbackDestroyed t)

/-- Destroys the textures that wait, in the order they were replaced, and gives their number. -/
def runPending (b : Bridge) : Nat × Bridge :=
  let waiting := b.discarded.items
  (waiting.length,
    waiting.foldl destroyTexture { b with discarded := { b.discarded with items := [] } })

def dropReceiver (b : Bridge) : Bridge :=
  { b with discarded := b.discarded.close }

end Bridge

end RenderBroker
