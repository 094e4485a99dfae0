import IndexKeeper.CommandLine.Help

set_option autoImplicit false

namespace IndexKeeper.CommandLine

inductive Misuse where
  | unknownCommand (name : String)
  | unexpected (argument : String)
  | missingCommand
  | missingValue
  | repeatedConfig
  | unexpectedValue (value flag : String)
deriving DecidableEq, Repr

def Misuse.message : Misuse → String
  | .unknownCommand name => "unrecognized subcommand '" ++ name ++ "'"
  | .unexpected argument => "unexpected argument '" ++ argument ++ "' found"
  | .missingCommand => "'" ++ programName ++ "' requires a subcommand but one was not provided"
  | .missingValue => "a value is required for '--config <CONFIG>' but none was supplied"
  | .repeatedConfig => "the argument '--config <CONFIG>' cannot be used multiple times"
  | .unexpectedValue value flag =>
      "unexpected value '" ++ value ++ "' for '" ++ flag ++ "' found; no more were expected"

inductive Invocation where
  | run (config : String) (command : Command)
  | tell (text : String)
  -- No argument at all: the help is shown, but as a fault.
  | nothing
  | misused (how : Misuse)
deriving DecidableEq, Repr

abbrev Level := Option Command

def helpFor (level : Level) (long : Bool) : Invocation :=
  .tell (match level with
    | none => help long
    | some c => c.help long)

def versionText : String := programName ++ " 0.1.0\n"

inductive Looks where
  | escape
  | long (name : String) (value : Option String)
  | short (letters : List Char)
  | word (text : String)
deriving DecidableEq, Repr

def looks (argument : String) : Looks :=
  match argument.toList with
  | ['-', '-'] => .escape
  | '-' :: '-' :: rest =>
      let name := rest.takeWhile (· ≠ '=')
      .long (String.ofList name) (match rest.drop name.length with
        | [] => none
        | _ :: value => some (String.ofList value))
  | '-' :: c :: rest => .short (c :: rest)
  | _ => .word argument

-- The first of a group of letters decides, as both known ones end the line.
def shortFlag (level : Level) : List Char → Invocation
  | 'h' :: _ => helpFor level false
  | 'V' :: _ =>
      if level.isNone then .tell versionText else .misused (.unexpected "-V")
  | c :: _ => .misused (.unexpected (String.ofList ['-', c]))
  | [] => .misused (.unexpected "-")

def longFlag (level : Level) (name : String) (value : Option String) : Invocation :=
  if name = "help" ∨ (name = "version" ∧ level.isNone) then
    match value with
    | some value => .misused (.unexpectedValue value ("--" ++ name))
    | none => if name = "help" then helpFor level true else .tell versionText
  else .misused (.unexpected ("--" ++ name))

def insteadOfValue (level : Level) : Looks → Invocation
  | .short (c :: _) =>
      if c = 'h' ∨ (c = 'V' ∧ level.isNone) then .misused .missingValue
      else .misused (.unexpected (String.ofList ['-', c]))
  | .long name _ =>
      if name = "help" ∨ name = "config" ∨ (name = "version" ∧ level.isNone) then
        .misused .missingValue
      else .misused (.unexpected ("--" ++ name))
  | _ => .misused .missingValue

def afterEscape (level : Level) : List String → Option Invocation
  | [] => none
  | argument :: _ =>
      some (.misused (
        if level.isSome ∨ argument = "help" ∨ (Command.ofName? argument).isSome then
          .unexpected argument
        else .unknownCommand argument))

def helpOnName? (name : String) : Option String :=
  if name = "help" then some helpOnHelp else (Command.ofName? name).map (·.help true)

def helpOn : List String → Invocation
  | [] => .tell (help true)
  | name :: rest => match helpOnName? name, rest with
      | some text, [] => .tell text
      | some _, next :: _ => .misused (.unknownCommand next)
      | none, _ => .misused (.unknownCommand name)

def readFrom (level : Level) (outer given : Option String) : List String → Invocation
  | [] => match level with
      | none => .misused .missingCommand
      | some c => .run ((given.or outer).getD defaultConfig) c
  | argument :: rest =>
      match looks argument with
      | .escape => (afterEscape level rest).getD (match level with
          | none => .misused .missingCommand
          | some c => .run ((given.or outer).getD defaultConfig) c)
      | .short letters => shortFlag level letters
      | .long "config" (some value) =>
          if given.isSome then .misused .repeatedConfig
          else if value = "" then .misused .missingValue
          else readFrom level outer (some value) rest
      | .long "config" none =>
          match rest with
          | [] => .misused .missingValue
          | value :: rest =>
              match looks value with
              | .word text =>
                  if given.isSome then .misused .repeatedConfig
                  else if text = "" then .misused .missingValue
                  else readFrom level outer (some text) rest
              | other => insteadOfValue level other
      | .long name value => longFlag level name value
      | .word text =>
          match level with
          | some _ => .misused (.unexpected text)
          | none =>
              if text = "help" then helpOn rest
              else match Command.ofName? text with
                | some c => readFrom (some c) given none rest
                | none => .misused (.unknownCommand text)

def read (arguments : List String) : Invocation :=
  if arguments.isEmpty then .nothing else readFrom none none none arguments

end IndexKeeper.CommandLine
