import IndexKeeper.Json.Value

set_option autoImplicit false

namespace IndexKeeper.Json.Value

def field? (fields : List (Option String × Value)) (name : String) : Option (Option Value) :=
  match fields.filter fun f => f.1 == some name with
  | [] => some none
  | [f] => some (some f.2)
  | _ => none

-- The fields of the names given. Other fields of an object do not count; an array may be short but not long.
def record? (names : List String) : Value → Option (List (Option Value))
  | .object fields =>
      if fields.any fun f => f.1.isNone then none else names.mapM (field? fields)
  | .array items =>
      if names.length < items.length then none
      else some ((List.range names.length).map fun n => items[n]?)
  | _ => none

def integer? : Value → Option Int
  | .integer i => if -9223372036854775808 ≤ i ∧ i < 9223372036854775808 then some i else none
  | _ => none

def text? : Value → Option String
  | .text s => some s
  | _ => none

def boolean? : Value → Option Bool
  | .boolean b => some b
  | _ => none

def items? {α : Type} (read : Value → Option α) : Value → Option (List α)
  | .array items => items.mapM read
  | _ => none

def nullable? {α : Type} (read : Value → Option α) : Option Value → Option (Option α)
  | none => some none
  | some .null => some none
  | some v => (read v).map some

def listed? {α : Type} (name : String) (read : Value → Option α) (v : Value) : Option (List α) :=
  match v.record? [name] with
  | some [some items] => items.items? read
  | _ => none

end IndexKeeper.Json.Value
