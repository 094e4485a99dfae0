set_option autoImplicit false

namespace IndexKeeper.CommandLine

inductive Command where
  | serve
  | poll
  | sources
deriving DecidableEq, Repr

def programName : String := "cindex"

def defaultConfig : String := "./config/cindex.toml"

namespace Command

def all : List Command := [serve, poll, sources]

def name : Command → String
  | serve => "serve"
  | poll => "poll"
  | sources => "sources"

def ofName? (name : String) : Option Command := all.find? fun c => c.name = name

def summary : Command → String
  | serve => "Poll sources on the configured interval and serve the status API"
  | poll => "Run a single poll round, regenerating the index if anything changed"
  | sources => "List configured sources with their stored version keys"

def details : Command → Option String
  | serve => some ("Runs until interrupted with Ctrl-C; the current round is abandoned and the " ++
      "server drains before exit.")
  | _ => none

end Command

def summary : String := "Keeps a browsable source index fresh from compiler-log artifacts"

def details : String :=
  "All commands accept a \x60--config\x60 flag pointing to a TOML configuration file. " ++
  "See \x60config/cindex.example.toml\x60 for a full example."

structure Flag where
  spelling : String
  purpose : String
  default : Option String := none

def padTo (width : Nat) (s : String) : String :=
  s ++ String.ofList (List.replicate (width - s.length) ' ')

def Flag.briefly (f : Flag) : String :=
  "  " ++ padTo 21 f.spelling ++ "  " ++ f.purpose ++ match f.default with
    | some value => " [default: " ++ value ++ "]\n"
    | none => "\n"

def Flag.fully (f : Flag) : String :=
  "  " ++ f.spelling ++ "\n          " ++ f.purpose ++ match f.default with
    | some value => "\n          \n          [default: " ++ value ++ "]\n"
    | none => "\n"

def configFlag : Flag :=
  ⟨"    --config <CONFIG>", "Path to configuration file (TOML)", some defaultConfig⟩

def helpFlag (long twoForms : Bool) : Flag :=
  ⟨"-h, --help", "Print help" ++
    (if !twoForms then "" else if long then " (see a summary with '-h')"
      else " (see more with '--help')"), none⟩

def versionFlag : Flag := ⟨"-V, --version", "Print version", none⟩

def flagLines (long : Bool) (flags : List Flag) : String :=
  if long then "\n".intercalate (flags.map Flag.fully) else String.join (flags.map Flag.briefly)

def helpSummary : String := "Print this message or the help of the given subcommand(s)"

def commandLines : String :=
  String.join ((Command.all.map fun c => (c.name, c.summary)) ++ [("help", helpSummary)] |>.map
    fun (name, summary) => "  " ++ padTo 7 name ++ "  " ++ summary ++ "\n")

def heading (long : Bool) (summary : String) : Option String → String
  | some details => if long then summary ++ ".\n\n" ++ details else summary
  | none => summary

def help (long : Bool) : String :=
  heading long summary (some details) ++ "\n\nUsage: cindex [OPTIONS] <COMMAND>\n\nCommands:\n" ++
    commandLines ++ "\nOptions:\n" ++ flagLines long [configFlag, helpFlag long true, versionFlag]

def Command.help (c : Command) (long : Bool) : String :=
  let twoForms := c.details.isSome
  let long := long && twoForms
  heading long c.summary c.details ++ "\n\nUsage: cindex " ++ c.name ++ " [OPTIONS]\n\nOptions:\n" ++
    flagLines long [configFlag, helpFlag long twoForms]

def helpOnHelp : String :=
  helpSummary ++ "\n\nUsage: cindex help [COMMAND]...\n\nArguments:\n" ++
    "  [COMMAND]...  Print help for the subcommand(s)\n"

end IndexKeeper.CommandLine
