import Sessions.Text.Quoted

/-!
# Sessions.Command.Flag

Flags on a command line. A flag is a switch, which may be given a truth value after an equals
sign, or takes a text, which stands after an equals sign or as the next argument. Flags end at the
first argument that is none, or at `--`.
-/

namespace Sessions.Command

inductive FlagKind where
  | switch
  | text (default : String)
deriving DecidableEq, Repr

structure Flag where
  name : String
  kind : FlagKind
  usage : String
deriving DecidableEq, Repr

/-- What is wrong with the flags of a command line. -/
inductive FlagError where
  | help
  | badForm (argument : String)
  | undefined (name : String)
  | needsArgument (name : String)
  | badSwitch (value name : String)
deriving DecidableEq, Repr

def FlagError.message : FlagError → String
  | .help => "flag: help requested"
  | .badForm a => "bad flag syntax: " ++ a
  | .undefined n => "flag provided but not defined: -" ++ n
  | .needsArgument n => "flag needs an argument: -" ++ n
  | .badSwitch v n =>
    "invalid boolean value " ++ Text.quoted v ++ " for -" ++ n ++ ": parse error"

/-- The truth value that a text writes. -/
def truth? (s : String) : Option Bool :=
  if ["1", "t", "T", "TRUE", "true", "True"].contains s then some true
  else if ["0", "f", "F", "FALSE", "false", "False"].contains s then some false
  else none

/-- The values of the flags that were given, the last one first. -/
structure FlagValues where
  switches : List (String × Bool) := []
  texts : List (String × String) := []
deriving DecidableEq, Repr

namespace FlagValues

def switch (v : FlagValues) (name : String) : Bool :=
  (v.switches.lookup name).getD false

/-- The text of a flag, or the default that the flags give it. -/
def text (v : FlagValues) (flags : List Flag) (name : String) : String :=
  match v.texts.lookup name with
  | some t => t
  | none =>
    match flags.find? (·.name == name) with
    | some ⟨_, .text d, _⟩ => d
    | _ => ""

end FlagValues

/-- An argument as it stands on the command line. -/
inductive Argument where
  /-- The end of the flags, with the arguments from there on. -/
  | done
  | bad
  | flag (name : String) (value : Option String)
deriving DecidableEq, Repr

/-- Takes an argument apart. -/
def Argument.parse (arg : String) : Argument :=
  let body? : Option (List Char) :=
    match arg.toList with
    | '-' :: '-' :: rest => if rest.isEmpty then none else some rest
    | '-' :: rest => if rest.isEmpty then none else some rest
    | _ => none
  match body? with
  | none => .done
  | some name =>
    if name.head? == some '-' || name.head? == some '=' then .bad
    else
      let key := name.takeWhile (· ≠ '=')
      match name.dropWhile (· ≠ '=') with
      | [] => .flag (String.ofList key) none
      | _ :: value => .flag (String.ofList key) (some (String.ofList value))

/-- Reads the flags of a command line. -/
def parseFlags (flags : List Flag) : FlagValues → List String → Except FlagError FlagValues
  | v, [] => .ok v
  | v, arg :: rest =>
    match Argument.parse arg with
    | .done => .ok v
    | .bad => .error (.badForm arg)
    | .flag name value =>
      match flags.find? (·.name == name), value with
      | none, _ =>
        if name = "help" || name = "h" then .error .help else .error (.undefined name)
      | some ⟨_, .switch, _⟩, none =>
        parseFlags flags { v with switches := (name, true) :: v.switches } rest
      | some ⟨_, .switch, _⟩, some t =>
        match truth? t with
        | some b => parseFlags flags { v with switches := (name, b) :: v.switches } rest
        | none => .error (.badSwitch t name)
      | some ⟨_, .text _, _⟩, some t =>
        parseFlags flags { v with texts := (name, t) :: v.texts } rest
      | some ⟨_, .text _, _⟩, none =>
        match rest with
        | [] => .error (.needsArgument name)
        | t :: rest => parseFlags flags { v with texts := (name, t) :: v.texts } rest

/-- How the usage text shows a flag. -/
def Flag.describe (f : Flag) : String :=
  match f.kind with
  | .switch =>
    "  -" ++ f.name ++ (if f.name.utf8ByteSize ≤ 1 then "\t" else "\n    \t") ++ f.usage ++ "\n"
  | .text d =>
    "  -" ++ f.name ++ " string\n    \t" ++ f.usage ++
      (if d = "" then "" else " (default " ++ Text.quoted d ++ ")") ++ "\n"

/-- The usage text of a command: its flags by name. -/
def usageText (command : String) (flags : List Flag) : String :=
  "Usage of " ++ command ++ ":\n" ++
    String.join ((flags.mergeSort fun a b => !(b.name < a.name)).map Flag.describe)

/-- What is shown for flags that can not be read: the reason, unless help was asked for, and the
usage text. -/
def FlagError.report (e : FlagError) (command : String) (flags : List Flag) : String :=
  (match e with | .help => "" | e => e.message ++ "\n") ++ usageText command flags

end Sessions.Command
