import CloudGraph.Problem

/-!
# Faults

Every way in which an operation ends without a result: the problems and defects that
are explained to the user, and the failures of data that has not the expected shape or
of a file that cannot be used.
-/

namespace CloudGraph

/-- Why an operation has no result. -/
inductive Fault where
  | problem (problem : Problem)
  | defect (defect : Defect)
  /-- A mapping or a model has no such key. -/
  | missingKey (key : Atom)
  /-- A value is not of a kind that the operation takes. -/
  | wrongKind
  /-- A value has no such operation at all. -/
  | noSuchOperation
  /-- A list has no item at the index. -/
  | outOfRange
  /-- A value is of the right kind but not acceptable. -/
  | badValue
  /-- A number is too large for a floating-point number. -/
  | overflow
  /-- A table row has not as many cells as the others. -/
  | unevenRow
  /-- A value has no form in the descriptor. -/
  | unwritable
  /-- A value that goes on over several lines is given to a key without a name. -/
  | unnamed
  /-- A file does not hold UTF-8 text. -/
  | notUtf8
  | fileNotFound
  | isDirectory
  | notDirectory
  | fileExists
  /-- A path that the file system does not take. -/
  | badPath

end CloudGraph
