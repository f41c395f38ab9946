/-
TokenAlignment/CommandLine/Options.lean

The arguments of a command: options with one value each, and positional
arguments.

    --name value   --name=value   -n value   -nvalue   -n=value

A value that is an argument of its own must not start with a dash, unless it is
nothing but a dash.  Behind `--` every argument is positional.  Arguments are
read from the left, and the first one that does not fit, or that asks for help,
ends the reading.
-/
import TokenAlignment.Corpus.Path
import TokenAlignment.Language
import TokenAlignment.Tokenizer.Choice

namespace TokenAlignment

namespace CommandLine

/-! ### Values -/

/-- A path; it must not be empty. -/
def path? (text : String) : Option FilePath :=
  if text.isEmpty then none else some text

/-- A natural number below `2 ^ 64`. -/
def number? (text : String) : Option Nat :=
  match Natural.read text.toList with
  | .ok n => some n.toNat
  | .error _ => none

/-- The name of a language. -/
def language? (text : String) : Option Language :=
  (Language.parse text).toOption

/-- The name of a tokenizer. -/
def tokenizer? (text : String) : Option TokenizerChoice :=
  (TokenizerChoice.parse text).toOption

/-- A language and a path, with an equals sign between them. -/
def languagePath? (text : String) : Option (Language × FilePath) :=
  let lang := text.toList.takeWhile (· ≠ '=')
  match text.toList.drop lang.length with
  | '=' :: c :: cs => (language? (String.ofList lang)).map (·, String.ofList (c :: cs))
  | _ => none

/-- What the value of an option has to be. -/
inductive ValueKind where
  | path
  | number
  | language
  | tokenizer
  | languagePath
  deriving DecidableEq, Repr

/-- Whether a text is a value of the kind. -/
def ValueKind.accepts (text : String) : ValueKind → Bool
  | path => (path? text).isSome
  | number => (number? text).isSome
  | language => (language? text).isSome
  | tokenizer => (tokenizer? text).isSome
  | languagePath => (languagePath? text).isSome

/-! ### What a command takes -/

/-- An option that takes one value. -/
structure OptionSpec where
  name : String
  letter : Option Char
  /-- What stands for the value in the help text. -/
  placeholder : String
  kind : ValueKind
  /-- Whether the option may be given more than once. -/
  repeatable : Bool
  about : String
  deriving DecidableEq, Repr

/-- A positional argument, which is always a path. -/
structure PositionalSpec where
  placeholder : String
  required : Bool
  about : String
  deriving DecidableEq, Repr

/-- The arguments that a command takes. -/
structure ArgumentSpec where
  positionals : List PositionalSpec
  options : List OptionSpec
  deriving DecidableEq, Repr

/-! ### What was given -/

/-- The arguments of one call: options by name with their values, and positional
arguments, each in the order given. -/
structure Arguments where
  options : List (String × String)
  positionals : List String
  deriving DecidableEq, Repr

namespace Arguments

/-- No arguments. -/
def empty : Arguments :=
  ⟨[], []⟩

/-- The values of an option, as `read` understands them. -/
def all {β : Type} (a : Arguments) (read : String → Option β) (name : String) : List β :=
  (a.options.filter fun o => o.1 == name).filterMap fun o => read o.2

/-- The value of an option that is given at most once. -/
def get? {β : Type} (a : Arguments) (read : String → Option β) (name : String) : Option β :=
  (a.all read name).head?

/-- Whether an option was given. -/
def has (a : Arguments) (name : String) : Bool :=
  a.options.any fun o => o.1 == name

end Arguments

/-- Why arguments are not read to the end. -/
inductive Interruption where
  | help
  | misuse
  deriving DecidableEq, Repr

/-! ### Reading -/

/-- What an argument is on its own. -/
inductive Lexeme where
  /-- The two dashes before positional arguments. -/
  | divider
  | help
  | option (spec : OptionSpec) (attached : Option String)
  | positional (text : String)
  | unknown
  deriving DecidableEq, Repr

namespace ArgumentSpec

/-- The part behind the first equals sign, if there is one. -/
def behindEquals? : List Char → Option String
  | [] => none
  | c :: cs => if c = '=' then some (String.ofList cs) else behindEquals? cs

/-- The value that stands right behind the letter of an option. -/
def attached? : List Char → Option String
  | [] => none
  | '=' :: cs => some (String.ofList cs)
  | cs => some (String.ofList cs)

/-- What is behind two dashes. -/
def longLexeme (spec : ArgumentSpec) (text : List Char) : Lexeme :=
  let name := String.ofList (text.takeWhile (· ≠ '='))
  let value := behindEquals? text
  if name = "help" then
    if value.isNone then .help else .unknown
  else
    match spec.options.find? fun o => o.name == name with
    | some o => .option o value
    | none => .unknown

/-- What is behind one dash. -/
def shortLexeme (spec : ArgumentSpec) (letter : Char) (text : List Char) : Lexeme :=
  if letter = 'h' then .help
  else
    match spec.options.find? fun o => o.letter == some letter with
    | some o => .option o (attached? text)
    | none => .unknown

/-- What an argument is on its own. -/
def lexeme (spec : ArgumentSpec) (argument : String) : Lexeme :=
  match argument.toList with
  | ['-', '-'] => .divider
  | '-' :: '-' :: text => spec.longLexeme text
  | '-' :: letter :: text => spec.shortLexeme letter text
  | _ => .positional argument

/-- Whether an argument can be the value of the option before it. -/
def canBeValue (argument : String) : Bool :=
  match argument.toList with
  | ['-'] => true
  | '-' :: _ => false
  | _ => true

/-- Adds the value of an option. -/
def addOption (found : Arguments) (o : OptionSpec) (value : String) :
    Except Interruption Arguments :=
  if o.kind.accepts value && (o.repeatable || !found.has o.name) then
    .ok { found with options := found.options ++ [(o.name, value)] }
  else .error .misuse

/-- Adds a positional argument, if there is room for it. -/
def addPositional (spec : ArgumentSpec) (found : Arguments) (value : String) :
    Except Interruption Arguments :=
  if ValueKind.path.accepts value && found.positionals.length < spec.positionals.length then
    .ok { found with positionals := found.positionals ++ [value] }
  else .error .misuse

/-- Reads arguments, after those found already. -/
def readOnto (spec : ArgumentSpec) (found : Arguments) :
    List String → Except Interruption Arguments
  | [] => .ok found
  | argument :: rest =>
    match spec.lexeme argument with
    | .divider => rest.foldlM spec.addPositional found
    | .help => .error .help
    | .unknown => .error .misuse
    | .positional text => do
      let found' ← spec.addPositional found text
      spec.readOnto found' rest
    | .option o (some value) => do
      let found' ← addOption found o value
      spec.readOnto found' rest
    | .option o none =>
      match rest with
      | [] => .error .misuse
      | value :: rest' =>
        if canBeValue value then do
          let found' ← addOption found o value
          spec.readOnto found' rest'
        else .error .misuse

/-- Reads the arguments of a command. -/
def read (spec : ArgumentSpec) (arguments : List String) : Except Interruption Arguments :=
  spec.readOnto .empty arguments

end ArgumentSpec

end CommandLine

end TokenAlignment
