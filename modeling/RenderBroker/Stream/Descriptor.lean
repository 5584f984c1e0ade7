/-!
# Descriptors
-/

namespace RenderBroker

/-- The number of an open socket; the number of one that was closed may be given out again. -/
abbrev Descriptor := Int

end RenderBroker
