/-!
# Arguments

What the arguments of the program ask for. Two options go with every command and may stand before
or after its name, where the one after it counts; no option but the one for peers may be repeated
on one side of the name. A value follows its option in the next argument or after `=`; the value
of a short option may also follow at once.
-/

namespace PeerRelay.Daemon

/-- What the program can do. -/
inductive Command where
  | start
  | status
  /-- Asks peers to send again what they sent between two dates. -/
  | recover (lower upper : String) (peers : List String)
deriving DecidableEq, Repr

/-- What the arguments ask for. -/
structure Arguments where
  command : Command
  logLevel : Option String
  base : Option String
deriving DecidableEq, Repr

/-- Why the arguments ask for no command. -/
inductive Refusal where
  | version
  | help
  | misuse
deriving DecidableEq, Repr

namespace Arguments

/-- The names of the commands. -/
inductive Name where
  | start
  | status
  | recover
deriving DecidableEq, Repr

/-- The name that a text is. -/
def Name.parse? : String → Option Name
  | "start" => some .start
  | "status" => some .status
  | "recover" => some .recover
  | _ => none

/-- The options that take a value. -/
inductive Key where
  | logLevel
  | base
  | lower
  | upper
  | peer
deriving DecidableEq, Repr

/-- The values of the options on one side of the name of the command, in order. -/
abbrev Values := List (Key × String)

/-- The value of an option. -/
def value? (v : Values) (key : Key) : Option String :=
  v.lookup key

/-- Adds the value of an option. -/
def insert (v : Values) (key : Key) (value : String) : Except Refusal Values :=
  if key ≠ .peer ∧ (value? v key).isSome then .error .misuse
  else if key = .base ∧ value.isEmpty then .error .misuse
  else .ok (v ++ [(key, value)])

/-- The option with a long name, after the name of a command or before it. -/
def longKey? (command : Option Name) : String → Option Key
  | "log-level" => some .logLevel
  | "base-dir" => some .base
  | "from" => if command = some .recover then some .lower else none
  | "to" => if command = some .recover then some .upper else none
  | "peer" => if command = some .recover then some .peer else none
  | _ => none

/-- An argument by its form. -/
inductive Form where
  /-- An option with the value that it came with. -/
  | option (key : Key) (value : Option String)
  | refusal (r : Refusal)
  | word (s : String)
  /-- The mark after which nothing is an option. -/
  | endOfOptions

/-- The form of an argument in letters after two hyphens. -/
def longForm (command : Option Name) (cs : List Char) : Form :=
  let (name, rest) := cs.span (· != '=')
  match longKey? command (String.ofList name), String.ofList name, rest with
  | some key, _, '=' :: value => .option key (some (String.ofList value))
  | some key, _, _ => .option key none
  | none, "version", [] => .refusal (if command.isNone then .version else .misuse)
  | none, "help", [] => .refusal .help
  | none, _, _ => .refusal .misuse

/-- The form of an argument in letters after one hyphen. -/
def shortForm (command : Option Name) : List Char → Form
  | ['l'] => .option .logLevel none
  | 'l' :: '=' :: value => .option .logLevel (some (String.ofList value))
  | 'l' :: value => .option .logLevel (some (String.ofList value))
  | 'V' :: _ => .refusal (if command.isNone then .version else .misuse)
  | 'h' :: _ => .refusal .help
  | _ => .refusal .misuse

/-- The form of an argument. -/
def form (command : Option Name) (arg : String) : Form :=
  match arg.toList with
  | ['-', '-'] => .endOfOptions
  | '-' :: '-' :: cs => longForm command cs
  | ['-'] => .word arg
  | '-' :: cs => shortForm command cs
  | _ => .word arg

/-- Whether an argument can be the value of the option before it. -/
def isValue (arg : String) : Bool :=
  match arg.toList with
  | '-' :: _ :: _ => false
  | _ => true

/-- Reads arguments after those read before: the name of the command, if it was met, the values
before it, and those at hand. -/
def scan (command : Option Name) (before here : Values) :
    List String → Except Refusal (Option Name × Values × Values)
  | [] => .ok (command, before, here)
  | arg :: rest =>
    match form command arg, rest with
    | .option key (some value), rest => do scan command before (← insert here key value) rest
    | .option key none, value :: rest => do
      if isValue value then scan command before (← insert here key value) rest
      else throw .misuse
    | .option _ none, [] => .error .misuse
    | .refusal r, _ => .error r
    | .endOfOptions, rest => if rest.isEmpty then .ok (command, before, here) else .error .misuse
    | .word s, rest =>
      match command, Name.parse? s with
      | none, some name => scan (some name) here [] rest
      | none, none => .error (if s = "help" then .help else .misuse)
      | some _, _ => .error .misuse

/-- What a command needs. -/
def command? (v : Values) : Option Name → Option Command
  | none | some .start => some .start
  | some .status => some .status
  | some .recover => do
    let peers := (v.filter (·.1 = .peer)).map (·.2)
    return .recover (← value? v .lower) (← value? v .upper) peers

/-- Reads the arguments; without the name of a command the daemon is started. -/
def parse (args : List String) : Except Refusal Arguments := do
  let (name, before, here) ← scan none [] [] args
  match command? here name with
  | none => throw .misuse
  | some command =>
    let shared (key : Key) := value? here key <|> value? before key
    return ⟨command, shared .logLevel, shared .base⟩

end Arguments

end PeerRelay.Daemon
