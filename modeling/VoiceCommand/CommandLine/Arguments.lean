import VoiceCommand.CommandLine.Help

/-! The arguments of the program. Options can stand before and after the name of a command; each
command has options of its own besides those of all. The first mistake, or the first question for
help, ends the reading. -/
namespace VoiceCommand.CommandLine

inductive Switch where
  | config
  | verbose
  | help
  | version
  | assumeYes
  | category
  | force
  deriving DecidableEq, Repr

namespace Switch

def long : Switch → String
  | config => "config"
  | verbose => "verbose"
  | help => "help"
  | version => "version"
  | assumeYes => "assume-yes"
  | category => "category"
  | force => "force"

def letter? : Switch → Option Char
  | config => some 'c'
  | verbose => some 'v'
  | help => some 'h'
  | version => some 'V'
  | _ => none

def takesValue : Switch → Bool
  | config | category => true
  | _ => false

def allowsEmpty : Switch → Bool
  | config => false
  | _ => true

end Switch

def switchesOf : Option Verb → List Switch
  | none => [.config,.verbose,.help,.version]
  | some verb =>
    let own : List Switch := match verb with
      | .listen => [.assumeYes]
      | .intents => [.category]
      | .init => [.force]
      | _ => []
    own ++ [.config,.verbose,.help]

def wordsOf : Verb → Nat × Option Nat
  | .parse => (1,none)
  | .enable | .disable => (1,some 1)
  | .listen | .intents | .init => (0,some 0)

inductive Stop where
  | help (topic : Topic)
  | version
  | misuse
  deriving DecidableEq, Repr

structure Given where
  switches : List (Switch × String) := []
  words : List String := []
  deriving DecidableEq, Repr

namespace Given

def has (g : Given) (s : Switch) : Bool := g.switches.any fun e => e.1 == s

def value? (g : Given) (s : Switch) : Option String := g.switches.lookup s

end Given

def Given.addSwitch (verb : Option Verb) (g : Given) (s : Switch) (value : String) :
    Except Stop Given :=
  match s with
  | .help => .error (.help (.ofVerb verb))
  | .version => .error .version
  | s =>
    if g.has s ∨ (s.takesValue ∧ value = "" ∧ !s.allowsEmpty) then .error .misuse
    else .ok { g with switches := g.switches ++ [(s,value)] }

def Given.addWord (verb : Verb) (g : Given) (word : String) : Except Stop Given :=
  if (wordsOf verb).2.all fun most => g.words.length < most then
    .ok { g with words := g.words ++ [word] }
  else .error .misuse

inductive Token where
  | separator
  | word (s : String)
  | long (name : String) (value : Option String)
  | letters (cs : List Char)
  deriving DecidableEq, Repr

namespace Token

def ofText (s : String) : Token :=
  match s.toList with
  | ['-','-'] => separator
  | '-' :: '-' :: cs =>
    let name := cs.takeWhile (· != '=')
    let rest := cs.drop name.length
    long (String.ofList name) (if rest.isEmpty then none else some (String.ofList (rest.drop 1)))
  | ['-'] => word s
  | '-' :: cs => letters cs
  | _ => word s

end Token

/-- Reads switches given by letters. The rest of the letters is the value of a switch that takes one,
perhaps behind an equals sign; without a rest the switch waits for its value. -/
def readLetters (verb : Option Verb) (g : Given) : List Char → Except Stop (Given × Option Switch)
  | [] => .ok (g,none)
  | c :: cs =>
    match (switchesOf verb).find? fun s => s.letter? == some c with
    | none => .error .misuse
    | some s =>
      if s.takesValue then
        match cs with
        | [] => .ok (g,some s)
        | '=' :: value => do return (← g.addSwitch verb s (String.ofList value),none)
        | value => do return (← g.addSwitch verb s (String.ofList value),none)
      else do readLetters verb (← g.addSwitch verb s "") cs

def readLong (verb : Option Verb) (g : Given) (name : String) (value : Option String) :
    Except Stop (Given × Option Switch) :=
  match (switchesOf verb).find? fun s => s.long == name with
  | none => .error .misuse
  | some s =>
    match value with
    | some value =>
      if s.takesValue then do return (← g.addSwitch verb s value,none) else .error .misuse
    | none =>
      if s.takesValue then .ok (g,some s) else do return (← g.addSwitch verb s "",none)

def readCommand (verb : Verb) (g : Given) (waiting : Option Switch) :
    List String → Except Stop Given
  | [] => if waiting.isSome ∨ g.words.length < (wordsOf verb).1 then .error .misuse else .ok g
  | arg :: args =>
    match Token.ofText arg, waiting with
    | .word s, some switch => do
      readCommand verb (← g.addSwitch verb switch s) none args
    | .word s, none => do readCommand verb (← g.addWord verb s) none args
    | _, some _ => .error .misuse
    | .separator, none => do
      let g ← args.foldlM (fun g word => g.addWord verb word) g
      if g.words.length < (wordsOf verb).1 then .error .misuse else .ok g
    | .long name value, none => do
      let (g,waiting) ← readLong verb g name value
      readCommand verb g waiting args
    | .letters cs, none => do
      let (g,waiting) ← readLetters verb g cs
      readCommand verb g waiting args

def helpTopic : List String → Stop
  | [] => .help .overview
  | ["help"] => .help .help
  | [name] => ((Verb.ofName? name).map fun verb => Stop.help (.verb verb)).getD .misuse
  | _ => .misuse

def Given.settle (g : Given) : Option (Switch × String) → Except Stop Given
  | none => .ok g
  | some (s,value) => g.addSwitch none s value

/-- Reads all arguments: the switches of the program, and a command with its own, if there is one. A
value that is an argument of its own is `held` until the next switch, or behind the whole command. -/
def readAll (g : Given) (held : Option (Switch × String)) (waiting : Option Switch) :
    List String → Except Stop (Given × Option (Verb × Given))
  | [] => if waiting.isSome then .error .misuse else do return (← g.settle held,none)
  | arg :: args =>
    match Token.ofText arg, waiting with
    | .word s, some switch => readAll g (some (switch,s)) none args
    | .word "help", none => .error (helpTopic args)
    | .word s, none =>
      match Verb.ofName? s with
      | some verb => do
        let own ← readCommand verb {} none args
        return (← g.settle held,some (verb,own))
      | none => .error .misuse
    | _, some _ => .error .misuse
    | .separator, none =>
      if args.isEmpty then do return (← g.settle held,none) else .error .misuse
    | .long name value, none => do
      let (g,waiting) ← readLong none (← g.settle held) name value
      readAll g none waiting args
    | .letters cs, none => do
      let (g,waiting) ← readLetters none (← g.settle held) cs
      readAll g none waiting args

inductive Task where
  | parse (text : String)
  | listen (assumeYes : Bool)
  | intents (category : Option String)
  | toggle (intent : String) (enabled : Bool)
  | init (force : Bool)
  deriving DecidableEq, Repr

structure Invocation where
  config : Option String
  task : Task
  deriving DecidableEq, Repr

def taskOf : Option (Verb × Given) → Task
  | none => .listen false
  | some (verb,g) =>
    match verb with
    | .parse => .parse (" ".intercalate g.words)
    | .listen => .listen (g.has .assumeYes)
    | .intents => .intents (g.value? .category)
    | .enable => .toggle (g.words.headD "") true
    | .disable => .toggle (g.words.headD "") false
    | .init => .init (g.has .force)

-- The invocation that arguments stand for. A file named behind the command counts more than one named before
-- it.
def Invocation.ofArguments (args : List String) : Except Stop Invocation := do
  let (general,command) ← readAll {} none none args
  let named := (command.bind fun c => c.2.value? .config) <|> general.value? .config
  return ⟨named,taskOf command⟩

end VoiceCommand.CommandLine
