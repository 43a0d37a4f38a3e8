import CloudGraph.Fault
import CloudGraph.Yaml.Tags

/-!
# The text of the descriptor

`descriptorText` writes a value and takes the quotes off its intrinsic tags. It fails
only on a value that holds a time of the day, which has no form.
-/

namespace CloudGraph.Yaml

/-- Whether a scalar has a form. -/
def writableAtom : Atom → Bool
  | .moment (.time _) => false
  | _ => true

mutual

/-- Whether a value has a form. -/
def writable : Value → Bool
  | .atom scalar => writableAtom scalar
  | .list items => writableItems items
  | .map entries => writableEntries entries
  | .shared _ => true

/-- Whether all items of a list have a form. -/
def writableItems : List Value → Bool
  | [] => true
  | item :: items => writable item && writableItems items

/-- Whether all entries of a mapping have a form. -/
def writableEntries : List (Atom × Value) → Bool
  | [] => true
  | (key, value) :: entries => writableAtom key && writable value && writableEntries entries

end

/-- The text of a value, its intrinsic tags without quotes. -/
def descriptorText (value : Value) : Except Fault String :=
  if writable value then .ok (String.ofList (unquoteTags (textOf value))) else .error .unwritable

end CloudGraph.Yaml
