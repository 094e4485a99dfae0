import IndexKeeper.Json.Printer
import IndexKeeper.Json.Reader
import IndexKeeper.NameMap

set_option autoImplicit false

namespace IndexKeeper

abbrev VersionKeys := NameMap String

namespace Manifest

def render (keys : VersionKeys) : Bytes := Bytes.ofText (Json.indentedTexts keys.entries)

def entry? : Option String × Json.Value → Option (String × String)
  | (some name, .text key) => some (name, key)
  | _ => none

def ofValue? : Json.Value → Option VersionKeys
  | .object fields => (fields.mapM entry?).map NameMap.ofList
  | _ => none

def parse? (bytes : Bytes) : Option VersionKeys :=
  (bytes.toText?.bind Json.parse?).bind ofValue?

end Manifest
end IndexKeeper
