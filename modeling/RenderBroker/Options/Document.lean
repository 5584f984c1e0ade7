import RenderBroker.Json.Reader
import RenderBroker.Json.Value
import RenderBroker.Options.Basic

/-!
# Render options as JSON

Options are an object of four members, all of which must be there; members of other names do not
count. They may also be read from a list of the four values in the same order. An allow-list is the
word `all`, alone or with a null behind it, or a list of names under `only`.
-/

namespace RenderBroker

open Json (Problem Token Reader MemberRole Value)

namespace ApiVersion

def value (v : ApiVersion) : Value :=
  .natural v.packed.toNat

def reader : Reader ApiVersion := fun ts =>
  (Json.readNatural (UInt32.size - 1) ts).map fun r => (⟨UInt32.ofNat r.1⟩, r.2)

def ofDocument (s : List Char) : Except Problem ApiVersion :=
  Json.readDocument reader s

end ApiVersion

namespace ExposedExtensions

def value : ExposedExtensions → Value
  | .all => .text "all"
  | .only names => .object [("only".toList, .list (names.map Value.text))]

def reader : Reader ExposedExtensions
  | [] => .error .ended
  | .string strict _ :: ts => do
    let name ← strict
    if name = "all".toList then .ok (.all, ts) else .error .mismatch
  | .openBrace :: [] => .error .ended
  -- what stands here is a key, so a token that is no string is out of place, whatever its kind
  | .openBrace :: .string strict _ :: ts => do
    let name ← strict
    if name = "all".toList then
      let ts ← Json.expect Token.isColon ts
      let ((), ts) ← Json.readNull ts
      return (.all, ← Json.expect Token.isCloseBrace ts)
    else if name = "only".toList then
      let ts ← Json.expect Token.isColon ts
      let (names, ts) ← Json.readStrings ts
      return (.only names, ← Json.expect Token.isCloseBrace ts)
    else .error .mismatch
  | _ => .error .malformed

end ExposedExtensions

namespace RenderOptions

def value (o : RenderOptions) : Value :=
  .object
    [("max_api_version".toList, o.maxVersion.value),
      ("max_device_memory".toList, .natural o.deviceMemory.toNat),
      ("image_cache_size".toList, .natural o.imageCache.toNat),
      ("exposed_device_extensions".toList, o.extensions.value)]

structure Draft where
  maxVersion : Option ApiVersion := none
  deviceMemory : Option UInt16 := none
  imageCache : Option UInt16 := none
  extensions : Option ExposedExtensions := none

def readAmount : Reader UInt16 := fun ts =>
  (Json.readNatural 65535 ts).map fun r => (UInt16.ofNat r.1, r.2)

/-- A wanted member, unless it has been read before. -/
def Draft.once {α : Type} (current : Option α) (set : α → Draft) (read : Reader α) :
    MemberRole Draft :=
  if current.isSome then .repeated
  else .wanted fun ts => (read ts).map fun r => (set r.1, r.2)

def Draft.field (d : Draft) (key : String) : MemberRole Draft :=
  if key = "max_api_version" then
    Draft.once d.maxVersion (fun v => { d with maxVersion := some v }) ApiVersion.reader
  else if key = "max_device_memory" then
    Draft.once d.deviceMemory (fun n => { d with deviceMemory := some n }) readAmount
  else if key = "image_cache_size" then
    Draft.once d.imageCache (fun n => { d with imageCache := some n }) readAmount
  else if key = "exposed_device_extensions" then
    Draft.once d.extensions (fun e => { d with extensions := some e }) ExposedExtensions.reader
  else .unknown

def Draft.complete? (d : Draft) : Option RenderOptions := do
  return ⟨← d.maxVersion, ← d.deviceMemory, ← d.imageCache, ← d.extensions⟩

/-- Reads the next item of a list that must have one. -/
def readItem {α : Type} (first : Bool) (read : Reader α) : Reader α := fun ts =>
  match Json.nextItem? first ts with
  | .error p => .error p
  | .ok none => .error .mismatch
  | .ok (some ts) => read ts

def reader : Reader RenderOptions
  | [] => .error .ended
  | .openBrace :: ts =>
    match (Json.members true ts).read Draft.field {} with
    | .error p => .error p
    | .ok (d, rest) =>
      match d.complete? with
      | some o => .ok (o, rest)
      | none => .error .mismatch
  | .openBracket :: ts => do
    let (maxVersion, ts) ← readItem true ApiVersion.reader ts
    let (deviceMemory, ts) ← readItem false readAmount ts
    let (imageCache, ts) ← readItem false readAmount ts
    let (extensions, ts) ← readItem false ExposedExtensions.reader ts
    return (⟨maxVersion, deviceMemory, imageCache, extensions⟩, ← Json.endList ts)
  | t :: _ => .error t.unwanted

def ofDocument (s : List Char) : Except Problem RenderOptions :=
  Json.readDocument reader s

end RenderOptions

end RenderBroker
