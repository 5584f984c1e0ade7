import RenderBroker.Extensions
import RenderBroker.Version

/-!
# Render options
-/

namespace RenderBroker

structure RenderOptions where
  maxVersion : ApiVersion := .default
  /-- The ceiling of device memory, in MiB. -/
  deviceMemory : UInt16 := 4096
  /-- The capacity of the image cache, in MiB. -/
  imageCache : UInt16 := 256
  extensions : ExposedExtensions := .all
  deriving DecidableEq, Repr

namespace RenderOptions

instance : Inhabited RenderOptions := ⟨{}⟩

def shown (o : RenderOptions) : String :=
  "RenderOptions \x7b max_api_version: ApiVersion(" ++ Text.decimal o.maxVersion.packed.toNat
    ++ "), max_device_memory: " ++ Text.decimal o.deviceMemory.toNat
    ++ ", image_cache_size: " ++ Text.decimal o.imageCache.toNat
    ++ ", exposed_device_extensions: " ++ o.extensions.shown ++ " \x7d"

end RenderOptions

end RenderBroker
