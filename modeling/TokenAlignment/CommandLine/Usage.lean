/-
TokenAlignment/CommandLine/Usage.lean

The help texts.

Each text is laid out from what the command takes: a column of arguments, and
next to it what each one means, always on one line.
-/
import TokenAlignment.CommandLine.Command

namespace TokenAlignment

namespace CommandLine

namespace Usage

/-- The name and number of the program. -/
def version : String :=
  s!"{Topic.program.name} 0.1.0"

/-! ### Lines -/

/-- A row of two columns whose second column starts behind `column`
characters. -/
def row (column : Nat) (entry : String × String) : List Char :=
  let gap := List.replicate (column - entry.1.length) ' '
  entry.1.toList ++ gap ++ entry.2.toList ++ ['\n']

/-- A titled list of entries in two columns. -/
def block (title : String) (entries : List (String × String)) : List Char :=
  let column := (entries.map fun e => e.1.length).foldl max 0 + 2
  title.toList ++ ":\n".toList ++ entries.flatMap (row column)

/-- Blocks with blank lines between them. -/
def page (blocks : List (List Char)) : String :=
  String.ofList (['\n'].intercalate (blocks.filter fun b => !b.isEmpty))

/-! ### Entries -/

/-- The entry of a switch. -/
def switchEntry (letter : Char) (name about : String) : String × String :=
  (s!"  -{letter}, --{name}", about)

/-- The entry of the call for help. -/
def helpEntry : String × String :=
  switchEntry 'h' "help" "Print help"

/-- The entry of an option. -/
def optionEntry (o : OptionSpec) : String × String :=
  let letter := match o.letter with
    | some c => s!"-{c}, "
    | none => "    "
  (s!"  {letter}--{o.name} <{o.placeholder}>", o.about)

/-- A positional argument as it stands in a call. -/
def positionalText (p : PositionalSpec) : String :=
  if p.required then s!"<{p.placeholder}>" else s!"[{p.placeholder}]"

/-- The entry of a positional argument. -/
def positionalEntry (p : PositionalSpec) : String × String :=
  (s!"  {positionalText p}", p.about)

/-! ### Pages -/

/-- What a topic is about. -/
def about : Topic → String
  | .program => "Evaluate how well a tokenizer's tokens align with code syntax"
  | .corpus => "Score a corpus and report per-language metrics"
  | .snippet => "Score one file and show how each identifier was split"
  | .tables => "Fold per-document CSV files into a per-language report"
  | .frequencies => "Count token pieces over a corpus"
  | .help => "Print this message or the help of the given subcommand(s)"

/-- What a call takes, behind the name of its command. -/
def callArguments : Topic → String
  | .program => "<COMMAND>"
  | .tables => "[OPTIONS] --input <INPUTS>"
  | .help => "[COMMAND]..."
  | t => " ".intercalate ("[OPTIONS]" :: t.arguments.positionals.map positionalText)

/-- How a command is called. -/
def callText (t : Topic) : String :=
  match t with
  | .program => s!"{t.name} {callArguments t}"
  | _ => s!"{Topic.program.name} {t.name} {callArguments t}"

/-- The blocks that list what a topic takes. -/
def listings (t : Topic) : List (List Char) :=
  match t with
  | .program =>
    [block "Commands" (Topic.commands.map fun c => (s!"  {c.name}", about c)),
      block "Options" [helpEntry, switchEntry 'V' "version" "Print version"]]
  | .help =>
    [block "Arguments" [("  [COMMAND]...", "Print help for the subcommand(s)")]]
  | _ =>
    let positionals := t.arguments.positionals.map positionalEntry
    [if positionals.isEmpty then [] else block "Arguments" positionals,
      block "Options" (t.arguments.options.map optionEntry ++ [helpEntry])]

/-- The help text of a topic. -/
def text (t : Topic) : String :=
  page ([(about t ++ "\n").toList, s!"Usage: {callText t}\n".toList] ++ listings t)

/-- What is said when the arguments make no sense. -/
def misuse : String :=
  "error: invalid arguments\n\nFor more information, try '--help'.\n"

end Usage

end CommandLine

end TokenAlignment
