import RenderBroker.Text.Decimal

/-!
# Textures

A texture is plain, or an image in a hardware buffer that other processes can import.
-/

namespace RenderBroker

/-- A handle of a hardware buffer, never null. -/
structure HardwareBuffer where
  raw : UInt64
  raw_ne_zero : raw ≠ 0
  deriving DecidableEq

/-- The buffer with a raw handle, unless the handle is null. -/
def HardwareBuffer.ofRaw? (raw : UInt64) : Option HardwareBuffer :=
  if h : raw ≠ 0 then some ⟨raw, h⟩ else none

theorem HardwareBuffer.raw_of_ofRaw? {raw : UInt64} {x : HardwareBuffer}
    (given : ofRaw? raw = some x) : x.raw = raw := by
  rw [ofRaw?] at given
  split at given
  · cases given
    rfl
  · cases given

structure PlainTexture where
  id : UInt32
  width : UInt16
  height : UInt16
  deriving DecidableEq

structure GpuImage where
  width : UInt16
  height : UInt16
  buffer : HardwareBuffer
  deriving DecidableEq

inductive Texture where
  | plain (t : PlainTexture)
  | image (i : GpuImage)
  deriving DecidableEq

namespace Texture

def image? : Texture → Option GpuImage
  | .image i => some i
  | .plain _ => none

/-- A field of a record that is shown. -/
def shownField (name : String) (n : Nat) : String :=
  name ++ ": " ++ Text.decimal n

def shown : Texture → String
  | .plain t =>
    "Plain(PlainTexture \x7b " ++ shownField "id" t.id.toNat ++ ", "
      ++ shownField "width" t.width.toNat ++ ", " ++ shownField "height" t.height.toNat
      ++ " \x7d)"
  | .image i =>
    "GpuImage(GpuImage \x7b " ++ shownField "width" i.width.toNat ++ ", "
      ++ shownField "height" i.height.toNat ++ ", hardware_buffer: HardwareBuffer("
      ++ Text.decimal i.buffer.raw.toNat ++ ") \x7d)"

end Texture

end RenderBroker
