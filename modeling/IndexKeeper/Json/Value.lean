set_option autoImplicit false

namespace IndexKeeper.Json

inductive Value where
  | null
  | boolean (b : Bool)
  | integer (i : Int)
  -- A number written with a fraction or an exponent, or a negative zero.
  | decimal (written : String)
  | text (s : String)
  | brokenText
  | array (items : List Value)
  -- A name is missing if it is a broken text.
  | object (fields : List (Option String × Value))
deriving Repr

namespace Value

def ofFields (fields : List (String × Value)) : Value :=
  .object (fields.map fun (name, v) => (some name, v))

def ofText? : Option String → Value
  | none => .null
  | some s => .text s

end Value
end IndexKeeper.Json
