import Mathlib.Data.List.TakeWhile
import IndexKeeper.RequestPath

set_option autoImplicit false

namespace IndexKeeper.RequestPath

inductive Kept : String → Prop where
  | relative (path : String) (bare : path.toList.head? ≠ some '/') : Kept path
  | file (path : String) (listed : path ∈ sharedFiles) : Kept path
  | folder (folder rest : String) (listed : folder ∈ sharedFolders) : Kept ("/" ++ folder ++ "/" ++ rest)

section Segments

variable (first rest other tail : List Char) (whole : '/' ∉ first)
include whole

end Segments

section Resolution

variable (path : String) (inside : path ≠ "/")
include inside

end Resolution

section Index

variable (index : String) (whole : '/' ∉ index.toList) (unshared : index ∉ sharedFolders)

end Index

end IndexKeeper.RequestPath
