import RenderBroker.Failure
import RenderBroker.Path

/-!
# Where the listening socket lies
-/

namespace RenderBroker

/-- The path of a listening socket, short enough for a socket address. -/
structure SocketLocation where
  path : Path
  deriving DecidableEq, Repr

namespace SocketLocation

/-- A socket address holds fewer bytes than this. -/
def addressSize : Nat := 104

def ofPath (p : Path) : Except Failure SocketLocation :=
  if p.size < addressSize then .ok ⟨p⟩
  else
    .error (.rejected ("Socket path too long (" ++ Text.decimal p.size ++ " bytes, max "
      ++ Text.decimal (addressSize - 1) ++ "): " ++ p.display))

/-- The location of a socket path under a root directory. -/
def under (root relative : Path) : Except Failure SocketLocation :=
  ofPath (root.join relative)

end SocketLocation

end RenderBroker
