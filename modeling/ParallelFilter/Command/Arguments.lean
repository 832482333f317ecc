import ParallelFilter.Predicate
import ParallelFilter.Text.Number

/-! The command line as it is written. There are two levels: the words before the command and the words
after it. The options for all commands may stand at either level, the others only after their command.
Words are read from left to right. A value that is a word of its own is examined when the next option
is met, or at the end of its level; until then a later word may be refused first. -/

namespace ParallelFilter.Command

/-- Why the words are not a request. Asking for help or for the version is among the reasons. -/
inductive ArgumentError where
  | displayHelp
  | displayVersion
  /-- Nothing was given at all. -/
  | missingArguments
  | missingCommand
  | unknownCommand
  | unknownArgument
  /-- A value is missing, or is none of the names that the option takes. -/
  | invalidValue
  /-- A number does not parse. -/
  | invalidNumber
  | givenTwice
  /-- A flag was given a value. -/
  | unneededValue
  deriving DecidableEq

namespace ArgumentError

/-- The name of the reason. -/
def kind : ArgumentError → String
  | .displayHelp => "DisplayHelp"
  | .displayVersion => "DisplayVersion"
  | .missingArguments => "DisplayHelpOnMissingArgumentOrSubcommand"
  | .missingCommand => "MissingSubcommand"
  | .unknownCommand => "InvalidSubcommand"
  | .unknownArgument => "UnknownArgument"
  | .invalidValue => "InvalidValue"
  | .invalidNumber => "ValueValidation"
  | .givenTwice => "ArgumentConflict"
  | .unneededValue => "TooManyValues"

def exitCode : ArgumentError → Nat
  | .displayHelp | .displayVersion => 0
  | _ => 2

end ArgumentError

/-- The commands. -/
inductive Name where
  | filter
  | multiplex
  deriving DecidableEq

namespace Name

def text : Name → String
  | .filter => "filter"
  | .multiplex => "multiplex"

def all : List Name := [.filter, .multiplex]

def ofText? (text : String) : Option Name :=
  all.find? (·.text == text)

end Name

/-- The options. -/
inductive Key where
  | workers
  | channelCapacity
  | total
  | predicate
  | balanced
  | failFast
  | compareSequential
  | print
  | ints
  | texts
  | idlePolicy
  | retries
  | idleTickUs
  deriving DecidableEq

/-- The form of what an option takes. -/
inductive Form where
  | flag
  /-- A number up to a bound. -/
  | number (bound : Nat)
  /-- A number up to a bound, for which minus zero is zero. -/
  | signedNumber (bound : Nat)
  /-- One of some names. -/
  | choice (names : List String)

/-- A value that has the form of its option. -/
inductive Value where
  | flag
  | number (value : Nat)
  | choice (name : String)
  deriving DecidableEq

/-- The largest number of 64 bits. -/
def largest64 : Nat := 18446744073709551615

/-- The largest number of 32 bits. -/
def largest32 : Nat := 4294967295

namespace Key

def text : Key → String
  | .workers => "workers"
  | .channelCapacity => "channel-capacity"
  | .total => "total"
  | .predicate => "predicate"
  | .balanced => "balanced"
  | .failFast => "fail-fast"
  | .compareSequential => "compare-sequential"
  | .print => "print"
  | .ints => "ints"
  | .texts => "texts"
  | .idlePolicy => "idle-policy"
  | .retries => "retries"
  | .idleTickUs => "idle-tick-us"

def form : Key → Form
  | .workers | .channelCapacity | .total | .ints | .texts | .idleTickUs => .number largest64
  | .retries => .signedNumber largest32
  | .predicate => .choice (NumberKind.all.map NumberKind.name)
  | .idlePolicy => .choice ["exit", "retry", "forever"]
  | .balanced | .failFast | .compareSequential | .print => .flag

/-- The environment variable that stands in for an option. -/
def environmentName? : Key → Option String
  | .workers => some "FANLINE_WORKERS"
  | .channelCapacity => some "FANLINE_CHANNEL_CAPACITY"
  | _ => none

/-- The options that may stand at either level. -/
def shared : List Key := [.workers, .channelCapacity]

/-- The options of one command. -/
def ofCommand : Name → List Key
  | .filter => [.total, .predicate, .balanced, .failFast, .compareSequential, .print]
  | .multiplex => [.ints, .texts, .idlePolicy, .retries, .idleTickUs]

end Key

/-- A written value, read by the form of its option. -/
def Form.read (form : Form) (written : String) : Except ArgumentError Value :=
  let bounded (bound : Nat) : Option Nat → Except ArgumentError Value
    | some value => if value ≤ bound then .ok (.number value) else .error .invalidNumber
    | none => .error .invalidNumber
  match form with
  | .flag => .error .unneededValue
  | .number bound => bounded bound (Text.number? written)
  | .signedNumber bound => bounded bound (Text.signedNumber? written)
  | .choice names =>
    if names.contains written then .ok (.choice written) else .error .invalidValue

/-- The level at which a word stands. -/
inductive Level where
  /-- Before the command. -/
  | top
  /-- After the command. -/
  | command (name : Name)

def Level.keys : Level → List Key
  | .top => Key.shared
  | .command name => Key.shared ++ Key.ofCommand name

/-- What was given at one level. -/
structure Given where
  /-- The options that were examined, with their values. -/
  settled : List (Key × Value) := []
  /-- The option met last, with its written value if that has come, while it is not examined yet. -/
  pending : Option (Key × Option String) := none

namespace Given

def find? (given : Given) (key : Key) : Option Value :=
  given.settled.lookup key

/-- Whether the next word is the value of an option. -/
def isAwaiting (given : Given) : Bool :=
  match given.pending with
  | some (_, none) => true
  | _ => false

/-- An option counts as given twice before its second value is read. -/
def put (given : Given) (key : Key) (read : Except ArgumentError Value) :
    Except ArgumentError Given := do
  if (given.find? key).isSome then throw .givenTwice
  return { given with settled := (key, ← read) :: given.settled }

/-- Examines the option met last. -/
def settle (given : Given) : Except ArgumentError Given :=
  match given.pending with
  | none => .ok given
  | some (_, none) => .error .invalidValue
  | some (key, some written) => { given with pending := none }.put key (key.form.read written)

end Given

/-- A word that begins with two dashes, cut at its first equals sign. -/
def longOption? (word : String) : Option (String × Option String) :=
  match word.toList with
  | '-' :: '-' :: cs =>
    let name := String.ofList (cs.takeWhile (· != '='))
    match cs.dropWhile (· != '=') with
    | [] => some (name, none)
    | _ :: value => some (name, some (String.ofList value))
  | _ => none

/-- The first letter of a word that begins with a single dash and has more to it. -/
def shortOption? (word : String) : Option Char :=
  match word.toList with
  | '-' :: '-' :: _ => none
  | '-' :: letter :: _ => some letter
  | _ => none

/-- A request by its name. The version is shown only before the command. -/
def namedRequest? (level : Level) (name : String) : Option ArgumentError :=
  match level with
  | .top =>
    if name = "help" then some .displayHelp
    else if name = "version" then some .displayVersion
    else none
  | .command _ => if name = "help" then some .displayHelp else none

/-- A request by its letter. -/
def letterRequest? (level : Level) (letter : Char) : Option ArgumentError :=
  match level with
  | .top =>
    if letter = 'h' then some .displayHelp
    else if letter = 'V' then some .displayVersion
    else none
  | .command _ => if letter = 'h' then some .displayHelp else none

/-- The refusal of a request, which comes after that of the option met last. -/
def Given.refuse {α : Type} (given : Given) (request : ArgumentError) : Except ArgumentError α := do
  let _ ← given.settle
  throw request

/-- What is known after an option that begins with two dashes. -/
def readLong (level : Level) (given : Given) (name : String) (attached : Option String) :
    Except ArgumentError Given :=
  match namedRequest? level name, attached with
  | some _, some _ => .error .unneededValue
  | some request, none => given.refuse request
  | none, attached =>
    match level.keys.find? (·.text == name) with
    | none => .error .unknownArgument
    | some key =>
      match key.form, attached with
      | .flag, some _ => .error .unneededValue
      | .flag, none => do (← given.settle).put key (.ok .flag)
      | form, some written => do (← given.settle).put key (form.read written)
      | _, none => do return { ← given.settle with pending := some (key, none) }

/-- What is known after an option that begins with a single dash: there are only requests. -/
def readShort (level : Level) (given : Given) (letter : Char) : Except ArgumentError Given :=
  match letterRequest? level letter with
  | none => .error .unknownArgument
  | some request => given.refuse request

/-- The refusal of a word that is neither an option nor a value nor a command. After two dashes alone
(`trailing`) the name of a command is no command any more. -/
def strayWord (level : Level) (trailing : Bool) (word : String) : ArgumentError :=
  match level with
  | .top =>
    if trailing ∧ (word = "help" ∨ (Name.ofText? word).isSome) then .unknownArgument
    else .unknownCommand
  | .command _ => .unknownArgument

/-- The answer to the word `help` in the command's place, given the words after it. -/
def helpFor : List String → ArgumentError
  | [] => .displayHelp
  | [word] =>
    if word = "help" ∨ (Name.ofText? word).isSome then .displayHelp else .unknownCommand
  | _ :: _ :: _ => .unknownCommand

/-- Reads the words of one level. Before the command, the reading stops at the command; the rest of the
words is given back with it. -/
def readWords (level : Level) (trailing : Bool) (given : Given) :
    List String → Except ArgumentError (Given × Option (Name × List String))
  | [] => .ok (given, none)
  | word :: rest =>
    if trailing then .error (strayWord level trailing word)
    else
      let command? :=
        match level with
        | .top => if given.isAwaiting then none else Name.ofText? word
        | .command _ => none
      match command? with
      | some name => .ok (given, some (name, rest))
      | none =>
        let asksHelp :=
          match level with
          | .top => word == "help" && !given.isAwaiting
          | .command _ => false
        if asksHelp then .error (helpFor rest)
        else if word = "--" then readWords level true given rest
        else
          match longOption? word with
          | some (name, attached) =>
            match readLong level given name attached with
            | .error error => .error error
            | .ok given => readWords level false given rest
          | none =>
            match shortOption? word with
            | some letter =>
              match readShort level given letter with
              | .error error => .error error
              | .ok given => readWords level false given rest
            | none =>
              match given.pending with
              | some (key, none) =>
                readWords level false { given with pending := some (key, some word) } rest
              | _ => .error (strayWord level trailing word)

/-- The environment: variables and their values. -/
abbrev Environment := List (String × String)

/-- The value that the environment gives to an option. A value that does not parse is an error, unless
the option was given at this level. -/
def fromEnvironment (environment : Environment) (given : Given) (key : Key) :
    Except ArgumentError (Option Value) :=
  match (given.find? key), key.environmentName?.bind (List.lookup · environment) with
  | none, some written => (key.form.read written).map some
  | _, _ => .ok none

/-- The words of one command line, understood. -/
structure Parsed where
  name : Name
  before : Given
  after : Given
  environment : List (Key × Value)

/-- Looks an option up: after the command, before it, in the environment. -/
def Parsed.find? (parsed : Parsed) (key : Key) : Option Value :=
  parsed.after.find? key <|> parsed.before.find? key <|> parsed.environment.lookup key

/-- What the environment gives to the options that both levels share. -/
def environmentValues (environment : Environment) (given : Given) :
    Except ArgumentError (List (Key × Value)) :=
  Key.shared.foldlM (fun values key => do
    match ← fromEnvironment environment given key with
    | some value => return (key, value) :: values
    | none => return values) []

/-- Reads a command line. What is wrong after the command is found before what is left to examine before
it; the environment is read level by level, after the words of that level. -/
def parse (environment : Environment) (words : List String) : Except ArgumentError Parsed := do
  let (before, command?) ← readWords .top false {} words
  match command? with
  | none =>
    let before ← before.settle
    let values ← environmentValues environment before
    if before.settled.isEmpty ∧ values.isEmpty then throw .missingArguments
    throw .missingCommand
  | some (name, rest) =>
    let (after, _) ← readWords (.command name) false {} rest
    let after ← after.settle
    let afterValues ← environmentValues environment after
    let before ← before.settle
    let beforeValues ← environmentValues environment before
    return ⟨name, before, after, afterValues ++ beforeValues⟩

end ParallelFilter.Command
