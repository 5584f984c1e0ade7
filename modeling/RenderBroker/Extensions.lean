import RenderBroker.Text.Blank
import RenderBroker.Text.Quoted
import RenderBroker.Text.Split

/-!
# Extension allow-lists
-/

namespace RenderBroker

/-- The device extensions that may be exposed: all of them, or the listed names. -/
inductive ExposedExtensions where
  | all
  | only (names : List String)
  deriving DecidableEq, Repr

namespace ExposedExtensions

instance : Inhabited ExposedExtensions := ⟨.all⟩

/-- Reads an allow-list: a blank text or the single word `all` lifts every restriction, and any
other text lists names between bars. -/
def parse (s : List Char) : ExposedExtensions :=
  let value := Text.trim s
  if value = [] ∨ value = ['a', 'l', 'l'] then .all
  else
    .only (((Text.cut '|' value).map Text.trim).filter (· ≠ []) |>.map String.ofList)

def allows (e : ExposedExtensions) (name : String) : Bool :=
  match e with
  | .all => true
  | .only names => names.contains name

/-- The names of a table that may be exposed, in the order of the table. -/
def filter (e : ExposedExtensions) (table : List String) : List String :=
  table.filter e.allows

def shown : ExposedExtensions → String
  | .all => "All"
  | .only names => "Only([" ++ ", ".intercalate (names.map Text.quoted) ++ "])"

end ExposedExtensions

end RenderBroker
