/-
TokenAlignment/CommandLine/Command.lean

The commands of the program, and how they are called.

    corpus        score a corpus and report metrics for each language
    snippet       score one file and show the splits of its identifiers
    export        fold tables of metrics into a report for each language
    frequencies   count token pieces over a corpus
-/
import TokenAlignment.CommandLine.Options

namespace TokenAlignment

namespace CommandLine

/-! ### What is asked for -/

/-- Where the documents of a corpus come from. -/
inductive CorpusOrigin where
  /-- The source files below a directory, or one file. -/
  | tree (root : FilePath)
  /-- The records of a file, one on a line. -/
  | records (path : FilePath)
  deriving DecidableEq, Repr

/-- A corpus, and how its documents are taken apart. -/
structure CorpusSource where
  origin : CorpusOrigin
  tokenizer : TokenizerChoice
  /-- The only languages to look at; all if there are none. -/
  languages : List Language
  maxBytes : Option Nat
  threads : Option Nat
  deriving DecidableEq, Repr

/-- A call of `corpus`. -/
structure CorpusCommand where
  source : CorpusSource
  words : Option FilePath
  timeoutMillis : Option Nat
  csv : Option FilePath
  output : Option FilePath
  deriving DecidableEq, Repr

/-- A call of `snippet`. -/
structure SnippetCommand where
  file : FilePath
  language : Option Language
  tokenizer : TokenizerChoice
  words : Option FilePath
  deriving DecidableEq, Repr

/-- A call of `export`. -/
structure TablesCommand where
  inputs : List (Language × FilePath)
  output : Option FilePath
  deriving DecidableEq, Repr

/-- A call of `frequencies`. -/
structure FrequenciesCommand where
  source : CorpusSource
  top : Nat
  deriving DecidableEq, Repr

/-- A call of the program that does some work. -/
inductive Command where
  | corpus (call : CorpusCommand)
  | snippet (call : SnippetCommand)
  | tables (call : TablesCommand)
  | frequencies (call : FrequenciesCommand)
  deriving DecidableEq, Repr

/-- What there is help for. -/
inductive Topic where
  | program
  | corpus
  | snippet
  | tables
  | frequencies
  /-- The help command itself. -/
  | help
  deriving DecidableEq, Repr

/-- What a call of the program asks for. -/
inductive Invocation where
  | run (command : Command)
  | help (topic : Topic)
  | version
  deriving DecidableEq, Repr

/-! ### Names -/

namespace Topic

/-- The topics that are commands, in the order of the help text. -/
def commands : List Topic :=
  [corpus, snippet, tables, frequencies, help]

/-- The name of the command. -/
def name : Topic → String
  | program => "tokenscore"
  | corpus => "corpus"
  | snippet => "snippet"
  | tables => "export"
  | frequencies => "frequencies"
  | help => "help"

/-- The command with this name. -/
def ofName? (text : String) : Option Topic :=
  commands.find? fun t => t.name == text

end Topic

/-! ### Options -/

namespace OptionSpec

/-- The file with the records of a corpus. -/
def jsonl : OptionSpec :=
  ⟨"jsonl", none, "JSONL", .path, false,
    "JSON Lines corpus of \x7b\"lang\", \"content\"\x7d records"⟩

/-- The tokenizer to score. -/
def tokenizer : OptionSpec :=
  ⟨"tokenizer", some 't', "TOKENIZER", .tokenizer, false,
    "Tokenizer: `bytes`, `pretoken` or `hf:<tokenizer.json>` [default: bytes]"⟩

/-- The languages to look at. -/
def languages : OptionSpec :=
  ⟨"lang", some 'l', "LANGUAGES", .language, true, "Only score these languages (repeatable)"⟩

/-- The size limit of a document. -/
def maxBytes : OptionSpec :=
  ⟨"max-bytes", none, "MAX_BYTES", .number, false,
    "Skip documents larger than this many bytes"⟩

/-- The number of workers. -/
def threads : OptionSpec :=
  ⟨"threads", some 'j', "THREADS", .number, false, "Worker threads (0 = one per core)"⟩

/-- The file with extra words. -/
def words : OptionSpec :=
  ⟨"words", none, "WORDS", .path, false, "Extra splitter words, whitespace separated"⟩

/-- The time budget of a document. -/
def timeout : OptionSpec :=
  ⟨"timeout-ms", none, "TIMEOUT_MS", .number, false,
    "Per-document time budget in milliseconds"⟩

/-- The file for the rows of scored documents. -/
def csv : OptionSpec :=
  ⟨"csv", none, "CSV", .path, false, "Stream one CSV row per scored document to this file"⟩

/-- The file for the report. -/
def output : OptionSpec :=
  ⟨"output", some 'o', "OUTPUT", .path, false,
    "Write the JSON report here instead of stdout"⟩

/-- The language of a file. -/
def language : OptionSpec :=
  ⟨"lang", some 'l', "LANG", .language, false, "Language, if the extension does not tell"⟩

/-- A table of metrics with its language. -/
def inputs : OptionSpec :=
  ⟨"input", some 'i', "INPUTS", .languagePath, true,
    "`LANG=PATH` of a per-document CSV file (repeatable)"⟩

/-- The length of the lists of pieces. -/
def top : OptionSpec :=
  ⟨"top", none, "TOP", .number, false,
    "How many rarest and most frequent pieces to list [default: 10]"⟩

end OptionSpec

namespace Topic

/-- The positional argument of the commands over a corpus. -/
def rootArgument : PositionalSpec :=
  ⟨"PATH", false, "Directory tree (or single file) to score"⟩

/-- The options of the commands over a corpus. -/
def sourceOptions : List OptionSpec :=
  [.jsonl, .tokenizer, .languages, .maxBytes, .threads]

/-- The arguments of a command. -/
def arguments : Topic → ArgumentSpec
  | program => ⟨[], []⟩
  | corpus => ⟨[rootArgument], sourceOptions ++ [.words, .timeout, .csv, .output]⟩
  | snippet =>
    ⟨[⟨"FILE", true, "Source file to score"⟩], [.language, .tokenizer, .words]⟩
  | tables => ⟨[], [.inputs, .output]⟩
  | frequencies => ⟨[rootArgument], sourceOptions ++ [.top]⟩
  | help => ⟨[], []⟩

end Topic

/-! ### Calls from arguments -/

/-- The origin of a corpus: either a path or a file of records, never both. -/
def origin? (a : Arguments) : Option CorpusOrigin :=
  match a.positionals, a.get? path? "jsonl" with
  | [root], none => some (.tree root)
  | [], some path => some (.records path)
  | _, _ => none

/-- The tokenizer that is asked for. -/
def tokenizerOf (a : Arguments) : TokenizerChoice :=
  (a.get? tokenizer? "tokenizer").getD .bytes

/-- The corpus that is asked for. -/
def source? (a : Arguments) : Option CorpusSource :=
  (origin? a).map fun origin =>
    { origin := origin
      tokenizer := tokenizerOf a
      languages := a.all language? "lang"
      maxBytes := a.get? number? "max-bytes"
      threads := a.get? number? "threads" }

/-- The call of `corpus` with some arguments. -/
def corpus? (a : Arguments) : Option Command :=
  (source? a).map fun source =>
    .corpus {
      source := source
      words := a.get? path? "words"
      timeoutMillis := a.get? number? "timeout-ms"
      csv := a.get? path? "csv"
      output := a.get? path? "output" }

/-- The call of `snippet` with some arguments. -/
def snippet? (a : Arguments) : Option Command :=
  a.positionals.head?.map fun file =>
    .snippet {
      file := file
      language := a.get? language? "lang"
      tokenizer := tokenizerOf a
      words := a.get? path? "words" }

/-- The call of `export` with some arguments. -/
def tables? (a : Arguments) : Option Command :=
  match a.all languagePath? "input" with
  | [] => none
  | inputs => some (.tables ⟨inputs, a.get? path? "output"⟩)

/-- The call of `frequencies` with some arguments. -/
def frequencies? (a : Arguments) : Option Command :=
  (source? a).map fun source => .frequencies ⟨source, (a.get? number? "top").getD 10⟩

/-- What a command name with arguments asks for. -/
def call? (topic : Topic) (command? : Arguments → Option Command) (arguments : List String) :
    Option Invocation :=
  match topic.arguments.read arguments with
  | .ok a => (command? a).map .run
  | .error .help => some (.help topic)
  | .error .misuse => none

namespace Invocation

/-- What the help command asks for. -/
def helpFor? : List String → Option Invocation
  | [] => some (.help .program)
  | [name] => (Topic.ofName? name).map .help
  | _ :: _ :: _ => none

/-- What a command with arguments asks for. -/
def ofCommand? (arguments : List String) : Topic → Option Invocation
  | .program => none
  | .corpus => call? .corpus corpus? arguments
  | .snippet => call? .snippet snippet? arguments
  | .tables => call? .tables tables? arguments
  | .frequencies => call? .frequencies frequencies? arguments
  | .help => helpFor? arguments

/-- What the arguments of the program ask for; nothing if they make no sense. -/
def parse? : List String → Option Invocation
  | [] => none
  | argument :: rest =>
    match argument.toList with
    | '-' :: 'h' :: _ => some (.help .program)
    | '-' :: 'V' :: _ => some .version
    | _ =>
      if argument = "--help" then some (.help .program)
      else if argument = "--version" then some .version
      else (Topic.ofName? argument).bind (ofCommand? rest)

end Invocation

end CommandLine

end TokenAlignment
