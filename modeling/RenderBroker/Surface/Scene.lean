import RenderBroker.Surface.Texture

/-!
# Windows and their drawables

A scene holds the windows by number and the drawables they show. Several windows may show one
drawable, and a drawable stays when its last window goes.
-/

namespace RenderBroker

/-- The content of a window: its size, the texture in its slot, and how often it was redrawn. -/
structure Drawable where
  width : UInt16
  height : UInt16
  texture : Option Texture := none
  updates : UInt64 := 0
  deriving DecidableEq

namespace Drawable

def buffer? (d : Drawable) : Option HardwareBuffer :=
  d.texture.bind fun t => t.image?.map GpuImage.buffer

def update (d : Drawable) : Drawable :=
  { d with updates := d.updates + 1 }

end Drawable

/-- The place of a drawable in its scene. -/
abbrev DrawableId := Nat

/-- A window of a fixed size that shows a drawable. -/
structure Window where
  id : UInt32
  width : UInt16
  height : UInt16
  content : DrawableId
  deriving DecidableEq

/-- The windows by number, and the drawables in the order they were made. -/
structure Scene where
  drawables : List Drawable := []
  windows : List Window := []

namespace Scene

def drawable? (s : Scene) (d : DrawableId) : Option Drawable :=
  s.drawables[d]?

def addDrawable (s : Scene) (d : Drawable) : DrawableId × Scene :=
  (s.drawables.length, { s with drawables := s.drawables ++ [d] })

def modifyDrawable (s : Scene) (d : DrawableId) (f : Drawable → Drawable) : Scene :=
  { s with drawables := s.drawables.modify d f }

def window? (s : Scene) (id : UInt32) : Option Window :=
  s.windows.find? fun w => w.id == id

def removeWindow (s : Scene) (id : UInt32) : Scene :=
  { s with windows := s.windows.filter fun w => w.id != id }

/-- Adds a window, in place of one with the same number. -/
def addWindow (s : Scene) (w : Window) : Scene :=
  { s with windows := w :: (s.removeWindow w.id).windows }

/-- Puts a texture into the slot of a drawable, and gives the one it replaces. -/
def setTexture (s : Scene) (d : DrawableId) (t : Texture) : Option Texture × Scene :=
  ((s.drawable? d).bind Drawable.texture,
    s.modifyDrawable d fun drawable => { drawable with texture := some t })

end Scene

/-- What a renderer learns about a window: its size, and a buffer with its content. -/
structure WindowSurface where
  width : UInt16
  height : UInt16
  buffer : Option HardwareBuffer
  deriving DecidableEq

namespace WindowSurface

def empty : WindowSurface :=
  ⟨0, 0, none⟩

def rawBuffer (s : WindowSurface) : UInt64 :=
  (s.buffer.map HardwareBuffer.raw).getD 0

end WindowSurface

end RenderBroker
