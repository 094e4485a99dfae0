set_option autoImplicit false

namespace IndexKeeper.Toml

inductive Origin where
  | inline
  | header
  -- Named on the way by a header of another table.
  | implied
  -- Named on the way by a dotted key.
  | dotted
deriving DecidableEq, Repr

inductive Value where
  | text (s : String)
  | integer (i : Int)
  | float (written : String)
  | boolean (b : Bool)
  | moment (written : String)
  | array (items : List Value)
  | table (origin : Origin) (fields : List (String × Value))
  | tables (items : List Value)
deriving Repr

abbrev Fields := List (String × Value)

namespace Fields

def replace (fields : Fields) (name : String) (v : Value) : Fields :=
  fields.map fun (key, old) => if key = name then (key, v) else (key, old)

-- Adds a value under a dotted key. The tables on the way must not have been opened by a header, and the last of
-- them must be one that dotted keys made.
def insert? : List String → String → Value → Fields → Option Fields
  | [], key, v, fields => if (fields.lookup key).isSome then none else some (fields ++ [(key, v)])
  | name :: path, key, v, fields =>
      match fields.lookup name with
      | none => (insert? path key v []).map fun inner => fields ++ [(name, .table .dotted inner)]
      | some (.table origin inner) =>
          if origin = .dotted ∨ (origin = .implied ∧ path ≠ []) then
            (insert? path key v inner).map fun inner => replace fields name (.table origin inner)
          else none
      | some (.tables items) =>
          match items.getLast? with
          | some (.table origin inner) =>
              if path = [] then none
              else (insert? path key v inner).map fun inner =>
                replace fields name (.tables (items.dropLast ++ [.table origin inner]))
          | _ => none
      | some _ => none

def modify? (change : Fields → Option Fields) : List String → Fields → Option Fields
  | [], fields => change fields
  | name :: path, fields =>
      match fields.lookup name with
      | none => (modify? change path []).map fun inner => fields ++ [(name, .table .implied inner)]
      | some (.table .inline _) => none
      | some (.table origin inner) =>
          (modify? change path inner).map fun inner => replace fields name (.table origin inner)
      | some (.tables items) =>
          match items.getLast? with
          | some (.table origin inner) => (modify? change path inner).map fun inner =>
              replace fields name (.tables (items.dropLast ++ [.table origin inner]))
          | _ => none
      | some _ => none

structure Assignment where
  path : List String
  key : String
  value : Value

def assign? (fields : Fields) (assignments : List Assignment) : Option Fields :=
  assignments.foldlM (fun fields a => insert? a.path a.key a.value fields) fields

def openTable? (name : String) (body : List Assignment) (fields : Fields) : Option Fields :=
  match fields.lookup name with
  | none => (assign? [] body).map fun inner => fields ++ [(name, .table .header inner)]
  | some (.table .implied inner) =>
      (assign? inner body).map fun inner => replace fields name (.table .header inner)
  | some _ => none

def appendTable? (name : String) (body : List Assignment) (fields : Fields) : Option Fields :=
  match fields.lookup name with
  | none => (assign? [] body).map fun inner => fields ++ [(name, .tables [.table .header inner])]
  | some (.tables items) => (assign? [] body).map fun inner =>
      replace fields name (.tables (items ++ [.table .header inner]))
  | some _ => none

end Fields
end IndexKeeper.Toml
