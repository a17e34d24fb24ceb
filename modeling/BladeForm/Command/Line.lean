import BladeForm.Config.Options

/-!
The command line: global options, a command, and that command's arguments. Options and flags
may be given once each, in any order; `--` ends them. A global option may stand on both sides
of the command, and then the later one holds. The first fault or request for help decides,
but an option given twice is a fault only where reading goes on after its value.
-/
namespace BladeForm

inductive Command where
  | formView (options : Options) (dryRun verbose : Bool)
  | check (resourceFile : String)
deriving DecidableEq, Repr

inductive Topic where
  | program | formView | check | help
deriving DecidableEq, Repr

inductive Request where
  | run (config : String) (command : Command)
  | version
  | help (topic : Topic)
deriving DecidableEq, Repr

namespace Command

def valueOptions : List String :=
  ["config", "resource-file", "views-directory", "routes-prefix", "language-filename",
    "layout-name", "template-name"]

def formViewFlags : List String := ["force", "dry-run", "verbose"]

structure Level where
  valued : List String
  flags : List String
  arguments : Nat
  topic : Topic

def Level.program : Level := ⟨["config"], [], 0, .program⟩

def Level.formView : Level := ⟨valueOptions, formViewFlags, 1, .formView⟩

def Level.check : Level := ⟨["config"], [], 1, .check⟩

/-- Arguments of one level as far as they are read. A value that stands apart from its
    option's name is pending until the next argument of the level is read. -/
structure Given where
  values : List (String × String)
  pending : Option (String × String)
  flags : List String
  arguments : List String
deriving DecidableEq, Repr

def Given.none : Given := ⟨[], Option.none, [], []⟩

inductive Step (α : Type) where
  | more (a : α)
  | stop (r : Request)
  | misuse

def Step.andThen : Step α → (α → Step β) → Step β
  | .more a, f => f a
  | .stop r, _ => .stop r
  | .misuse, _ => .misuse

instance : Monad Step where
  pure := .more
  bind := Step.andThen

def Given.addValue (g : Given) (key value : String) : Step Given :=
  if (g.values.lookup key).isSome then .misuse
  else .more { g with values := g.values ++ [(key, value)] }

def Given.settle (g : Given) : Step Given :=
  match g.pending with
  | some (key, value) => { g with pending := Option.none }.addValue key value
  | Option.none => .more g

def Given.addFlag (g : Given) (flag : String) : Step Given :=
  if g.flags.contains flag then .misuse else .more { g with flags := g.flags ++ [flag] }

def Given.addArgument (l : Level) (g : Given) (argument : String) : Step Given :=
  if g.arguments.length < l.arguments then
    .more { g with arguments := g.arguments ++ [argument] }
  else .misuse

def shortFlags (l : Level) : Given → List Char → Step Given
  | g, [] => .more g
  | g, c :: cs =>
    if c = 'h' then .stop (.help l.topic)
    else if c = 'V' && l.topic = .program then .stop .version
    else if c = 'v' && l.flags.contains "verbose" then do
      shortFlags l (← g.addFlag "verbose") cs
    else .misuse

inductive Shape where
  | long (name : String) (value : Option String)
  | short (flags : List Char)
  | escape
  | plain
deriving DecidableEq, Repr

def shapeOf (arg : String) : Shape :=
  match arg.toList with
  | ['-', '-'] => .escape
  | '-' :: '-' :: rest =>
    match rest.span (· ≠ '=') with
    | (name, _ :: value) => .long (String.ofList name) (some (String.ofList value))
    | (name, []) => .long (String.ofList name) none
  | '-' :: c :: rest => .short (c :: rest)
  | _ => .plain

def longFlag (l : Level) (g : Given) (name : String) : Step Given :=
  if name = "help" then .stop (.help l.topic)
  else if name = "version" && l.topic = .program then .stop .version
  else if l.flags.contains name then g.addFlag name
  else .misuse

/-- Reads a level. At the top it ends at the first plain argument, which names the command;
    what follows that name is returned, and a value before it stays pending. -/
def readLevel (l : Level) : Given → List String → Step (Given × Option (String × List String))
  | g, [] => do return (← g.settle, none)
  | g, arg :: rest =>
    match shapeOf arg with
    | .plain =>
      if l.topic = .program then .more (g, some (arg, rest))
      else do readLevel l (← (← g.settle).addArgument l arg) rest
    | .escape => do return (← rest.foldlM (Given.addArgument l) (← g.settle), none)
    | .short flags => do readLevel l (← shortFlags l (← g.settle) flags) rest
    | .long name (some value) =>
      if l.valued.contains name then do readLevel l (← (← g.settle).addValue name value) rest
      else .misuse
    | .long name none =>
      if l.valued.contains name then
        match rest with
        | [] => .misuse
        | value :: rest =>
          if shapeOf value = .plain then do
            readLevel l { ← g.settle with pending := some (name, value) } rest
          else .misuse
      else do readLevel l (← longFlag l (← g.settle) name) rest

def topicOf? : List String → Option Topic
  | [] => some .program
  | ["form-view"] => some .formView
  | ["check"] => some .check
  | ["help"] => some .help
  | _ => none

def Given.options (g : Given) (model : String) : Options :=
  { modelName := model
    resourceFile := g.values.lookup "resource-file"
    viewsDirectory := g.values.lookup "views-directory"
    routesPrefix := g.values.lookup "routes-prefix"
    languageFileName := g.values.lookup "language-filename"
    layoutName := g.values.lookup "layout-name"
    templateName := g.values.lookup "template-name"
    force := g.flags.contains "force" }

/-- The configuration's place: after the command, before it, or the current directory. -/
def configOf (outer inner : Given) : String :=
  ((inner.values.lookup "config").or (outer.values.lookup "config")).getD "."

/-- Reads the arguments of a command that takes exactly one. A request for help among them
    goes before a fault that is still pending outside. -/
def single (outer : Given) (l : Level) (args : List String)
    (make : (config : String) → Given → String → Request) : Option Request :=
  match readLevel l .none args with
  | .stop r => some r
  | .misuse => none
  | .more (g, _) =>
    match outer.settle, g.arguments with
    | .more outer, [a] => some (make (configOf outer g) g a)
    | _, _ => none

def parse? (args : List String) : Option Request :=
  match readLevel .program .none args with
  | .stop r => some r
  | .misuse | .more (_, none) => none
  | .more (outer, some (name, rest)) =>
    if name = "form-view" then
      single outer .formView rest fun config g model =>
        .run config (.formView (g.options model)
          (g.flags.contains "dry-run") (g.flags.contains "verbose"))
    else if name = "check" then
      single outer .check rest fun config _ file => .run config (.check file)
    else if name = "help" then (topicOf? rest).map .help
    else none

end Command

end BladeForm
