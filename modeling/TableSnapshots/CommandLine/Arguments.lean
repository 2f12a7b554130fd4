/-!
# Arguments

Reading a list of arguments by a grammar of options and positional arguments. An option has long
names and perhaps a letter; letters may be written together. An argument that looks like an option
is never the value of another one. After `--` every argument is positional.
-/

namespace TableSnapshots.CommandLine

/-- Why a list of arguments is refused, or answered with help. -/
inductive UsageError where
  | missingRequiredArgument
  | unknownArgument
  | invalidSubcommand
  | argumentConflict
  | invalidValue
  | tooManyValues
  | displayHelp
  | missingSubcommand
  /-- Nothing at all was given, which is answered with help. -/
  | nothingGiven
  deriving DecidableEq, Repr

/-- The name of a kind of usage error. -/
def UsageError.name : UsageError → String
  | missingRequiredArgument => "MissingRequiredArgument"
  | unknownArgument => "UnknownArgument"
  | invalidSubcommand => "InvalidSubcommand"
  | argumentConflict => "ArgumentConflict"
  | invalidValue => "InvalidValue"
  | tooManyValues => "TooManyValues"
  | displayHelp => "DisplayHelp"
  | missingSubcommand => "MissingSubcommand"
  | nothingGiven => "DisplayHelpOnMissingArgumentOrSubcommand"

/-- What an option takes. -/
inductive Arity where
  /-- Nothing; it is given or not. -/
  | switch
  /-- Nothing; how often it is given counts. -/
  | count
  /-- One value. -/
  | value
  /-- One value each time it is given. -/
  | values
  /-- One value or nothing. -/
  | optional
  deriving DecidableEq, Repr

/-- An option. -/
structure OptionSpec where
  long : String
  /-- Other long names. -/
  aliases : List String := []
  letter : Option Char := none
  arity : Arity
  /-- Which values it takes. -/
  accepts : String → Bool := fun _ => true

/-- What a list of arguments may hold. -/
structure Grammar where
  options : List OptionSpec
  /-- For each positional argument, which values it takes. -/
  positionals : List (String → Bool)
  /-- The names that end the list and hand the rest to a subcommand. -/
  subcommands : List String := []

/-- What a list of arguments holds. -/
structure Matches where
  /-- The long names of the options that were given, each with its value. -/
  options : List (String × Option String) := []
  positionals : List String := []
  /-- The subcommand and the arguments for it. -/
  subcommand : Option (String × List String) := none
  deriving DecidableEq, Repr

namespace Matches

/-- Whether an option was given. -/
def has (m : Matches) (long : String) : Bool :=
  m.options.any (·.1 = long)

/-- The values of an option, the first one first. -/
def valuesOf (m : Matches) (long : String) : List String :=
  m.options.filterMap fun (name, value) => if name = long then value else none

/-- Note an option. One that may be given once only conflicts with itself. -/
def give (m : Matches) (o : OptionSpec) (value : Option String) : Except UsageError Matches :=
  if m.has o.long && !(o.arity = .count || o.arity = .values) then .error .argumentConflict
  else if !value.all o.accepts then .error .invalidValue
  else .ok { m with options := m.options ++ [(o.long, value)] }

end Matches

namespace Grammar

/-- The help that every grammar has. -/
def help : OptionSpec where
  long := "help"
  letter := some 'h'
  arity := .switch

/-- The option of a long name. -/
def long? (g : Grammar) (name : String) : Option OptionSpec :=
  (g.options ++ [help]).find? fun o => o.long = name || o.aliases.contains name

/-- The option of a letter. -/
def letter? (g : Grammar) (c : Char) : Option OptionSpec :=
  (g.options ++ [help]).find? fun o => o.letter = some c

/-- Note an option that needs nothing more, or answer with help. -/
def giveSwitch (o : OptionSpec) (m : Matches) : Except UsageError Matches :=
  if o.long = help.long then .error .displayHelp else m.give o none

/-- Whether an option takes a value, so that the next argument may be one. -/
def takesValue (o : OptionSpec) : Bool :=
  o.arity = .value || o.arity = .values || o.arity = .optional

/-- End an option that waits for its value without one. -/
def settle (waiting : Option OptionSpec) (m : Matches) : Except UsageError Matches :=
  match waiting with
  | none => .ok m
  | some o => if o.arity = .optional then m.give o none else .error .invalidValue

/-- Read letters written together. Also the option that still waits for its value. -/
def letters (g : Grammar) (m : Matches) :
    List Char → Except UsageError (Matches × Option OptionSpec)
  | [] => .ok (m, none)
  | c :: cs =>
    match g.letter? c with
    | none => .error .unknownArgument
    | some o =>
      if takesValue o then
        match cs with
        | [] => .ok (m, some o)
        | '=' :: value => do return (← m.give o (some (String.ofList value)), none)
        | value => do return (← m.give o (some (String.ofList value)), none)
      else do
        let m ← giveSwitch o m
        letters g m cs

/-- Read a long option. Also the option that still waits for its value. -/
def longOption (g : Grammar) (m : Matches) (cs : List Char) :
    Except UsageError (Matches × Option OptionSpec) :=
  match g.long? (String.ofList (cs.takeWhile (· ≠ '='))), cs.dropWhile (· ≠ '=') with
  | none, _ => .error .unknownArgument
  | some o, _ :: value =>
    if takesValue o then do return (← m.give o (some (String.ofList value)), none)
    else .error .tooManyValues
  | some o, [] =>
    if takesValue o then .ok (m, some o)
    else do return (← giveSwitch o m, none)

/-- Whether the options that an argument names are known. -/
def knows (g : Grammar) : List Char → Bool
  | '-' :: '-' :: cs => (g.long? (String.ofList (cs.takeWhile (· ≠ '=')))).isSome
  | '-' :: c :: _ => (g.letter? c).isSome
  | _ => true

/-- Note a positional argument. -/
def givePositional (g : Grammar) (trailing : Bool) (arg : String) (m : Matches) :
    Except UsageError Matches :=
  match g.positionals[m.positionals.length]? with
  | some accepts =>
    if accepts arg then .ok { m with positionals := m.positionals ++ [arg] }
    else .error .invalidValue
  | none =>
    if g.subcommands.isEmpty || (trailing && g.subcommands.contains arg) then
      .error .unknownArgument
    else .error .invalidSubcommand

/-- Read arguments. -/
def scan (g : Grammar) (trailing : Bool) (waiting : Option OptionSpec) (m : Matches) :
    List String → Except UsageError Matches
  | [] => settle waiting m
  | arg :: rest =>
    if trailing then do
      let m ← g.givePositional true arg m
      g.scan true waiting m rest
    else match arg.toList with
      | ['-', '-'] => g.scan true waiting m rest
      | '-' :: '-' :: cs =>
        if !g.knows arg.toList then .error .unknownArgument
        else do
          let m ← settle waiting m
          let (m, waiting) ← g.longOption m cs
          g.scan false waiting m rest
      | '-' :: c :: cs =>
        if !g.knows arg.toList then .error .unknownArgument
        else do
          let m ← settle waiting m
          let (m, waiting) ← g.letters m (c :: cs)
          g.scan false waiting m rest
      | _ =>
        match waiting with
        | some o => do
          let m ← m.give o (some arg)
          g.scan false none m rest
        | none =>
          if g.subcommands.contains arg then .ok { m with subcommand := some (arg, rest) }
          else do
            let m ← g.givePositional false arg m
            g.scan false none m rest

/-- Read a list of arguments. -/
def read (g : Grammar) (args : List String) : Except UsageError Matches :=
  g.scan false none {} args

end Grammar

end TableSnapshots.CommandLine
