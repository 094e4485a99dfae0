import IndexKeeper.Config

set_option autoImplicit false

namespace IndexKeeper

abbrev Environment := List Bytes

namespace Environment

def entry (name : String) (value : Bytes) : Bytes := Bytes.ofText name ++ Bytes.ofText "=" ++ value

def get? (env : Environment) (name : String) : Option Bytes :=
  if name = "" ∨ name.toList.contains (Char.ofNat 0) then none
  else
    let front := entry name []
    (env.find? (front.isPrefixOf ·)).map (·.drop front.length)

def token? (env : Environment) (name : String) : Option String :=
  ((env.get? name).bind Bytes.toText?).filter fun value => !Text.allBlank value

end Environment
end IndexKeeper
