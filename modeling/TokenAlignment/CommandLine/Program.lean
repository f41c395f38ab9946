/-
TokenAlignment/CommandLine/Program.lean

The program: what each command does on a host, step by step.

A command that cannot go on ends with a failure, and what it wrote before
stays.  The exit code is 0 after success, 1 after a failure, and 2 for arguments
that make no sense.  Totals that do not fit break a command off, with the code 101.
-/
import TokenAlignment.CommandLine.Host
import TokenAlignment.CommandLine.Usage
import TokenAlignment.Corpus.Jsonl
import TokenAlignment.Report.Csv
import TokenAlignment.Report.Json
import TokenAlignment.Report.Table
import TokenAlignment.Run.Runner

namespace TokenAlignment

namespace CommandLine

variable {m : Type → Type} [Monad m] [Host m]

/-! ### Steps that can fail -/

/-- The steps of a command. -/
abbrev Steps (m : Type → Type) : Type → Type :=
  ExceptT (Stop Failure) m

/-- Ends the command. -/
def fail {β : Type} (message : String) (causes : List String) : Steps m β :=
  throw (.error ⟨message, causes⟩)

/-- Goes on with a result; an error ends the command with `message`, and with the
texts of the error as causes. -/
def orFail {β ε : Type} (message : String) (causes : ε → List String) : Except ε β → Steps m β
  | .ok b => pure b
  | .error e => fail message (causes e)

/-- Goes on with a result that totals may stand in the way of. -/
def orStop {β ε : Type} (message : String) (causes : ε → List String) :
    Except (Stop ε) β → Steps m β
  | .ok b => pure b
  | .error (.error e) => fail message (causes e)
  | .error .overflow => throw .overflow

/-- Goes on with what comes out of sums. -/
def orBreakOff {β : Type} : Option β → Steps m β
  | some b => pure b
  | none => throw .overflow

/-- Does a step with a file; an error ends the command. -/
def fileStep {β : Type} (message : String) (step : m (Except IoError β)) :
    Steps m β := do
  let result ← liftM step
  orFail message (fun e => [e.message]) result

/-! ### Settings -/

/-- The settings with the overrides of the environment of the host. -/
def overrides (config : EvalConfig) : m (Except EnvironmentError EvalConfig) := do
  let known ← Host.environment [EvalConfig.timeoutVariable, EvalConfig.maxBytesVariable]
  return config.withEnvironment (List.lookup · known)

/-- The settings that the arguments of a command over a corpus ask for. -/
def configOf (source : CorpusSource) (timeoutMillis : Option Nat) : EvalConfig where
  timeoutMillis := timeoutMillis.getD EvalConfig.standard.timeoutMillis
  maxDocumentBytes := source.maxBytes.getD EvalConfig.standard.maxDocumentBytes
  threads := source.threads.getD EvalConfig.standard.threads
  channelCapacity := EvalConfig.standard.channelCapacity
  languages :=
    if source.languages.isEmpty then EvalConfig.standard.languages else source.languages

/-- The settings of a command over a corpus. -/
def corpusConfig (source : CorpusSource) (timeoutMillis : Option Nat) :
    Steps m EvalConfig := do
  let config ← liftM (overrides (configOf source timeoutMillis) (m := m))
  orFail "invalid environment override" (fun e => [e.message]) config

/-- The words of a file. -/
def wordsOf (bytes : List UInt8) : Except IoError (List (List Char)) :=
  match Utf8.decode? bytes with
  | some text => .ok (Text.words text)
  | none => .error .notText

/-- The extra words of a splitter; none without a file. -/
def readWords : Option FilePath → Steps m (List (List Char))
  | none => pure []
  | some path => do
    let message := s!"failed to read word list {path}"
    let bytes ← fileStep message (Host.readFile path)
    orFail message (fun e => [e.message]) (wordsOf bytes)

/-- The context of a command. -/
def buildContext (languages : List Language) (choice : TokenizerChoice)
    (words : List (List Char)) : Steps m (ScoringContext PieceTable) := do
  let grammar ← liftM (Host.grammar (m := m))
  orFail "failed to build scoring context" (fun e => [e.message])
    (ScoringContext.build grammar languages choice words)

/-! ### Corpora -/

/-- A corpus whose documents are still to be read. -/
inductive OpenCorpus where
  | files (sources : List SourceFile)
  | records (path : FilePath)

/-- Opens a corpus. -/
def openCorpus : CorpusOrigin → Steps m OpenCorpus
  | .records path => do
    fileStep s!"failed to open {path}" (Host.openFile path)
    return .records path
  | .tree root => do
    match ← liftM (Host.find root (m := m)) with
    | some tree => return .files (Discovery.sources root tree)
    | none => fail s!"{root} does not exist" []

/-- The item of a file that cannot be read. -/
def unreadable (label : String) (e : IoError) : CorpusItem :=
  ⟨label, .error (.failed s!"read failed: {e.message}")⟩

/-- Reads a source file. -/
def readSource (file : SourceFile) : m CorpusItem := do
  match ← Host.readFile file.path with
  | .ok bytes => return .ofContent file.path file.language bytes
  | .error e => return unreadable file.path e

/-- Reads the documents of a corpus. -/
def OpenCorpus.items : OpenCorpus → m (List CorpusItem)
  | files sources => sources.mapM readSource
  | records path => do
    match ← Host.readFile path with
    | .ok bytes => return Jsonl.items path bytes
    | .error e => return [unreadable (Jsonl.label path 1) e]

/-! ### Reports -/

/-- Writes a report to a file, or else to the stream for results. -/
def writeReport (score : CorpusScore Float) : Option FilePath → Steps m Unit
  | some path =>
    fileStep s!"failed to write {path}"
      (Host.writeFile path (Utf8.encode (score.toText ++ ['\n'])))
  | none => liftM (Host.print (String.ofList (score.toText ++ ['\n'])) : m Unit)

/-- The counts of a run as a line. -/
def countsLine (s : RunSummary Float) (elapsed : String) : String :=
  s!"scored {s.scored}, skipped {s.skipped}, failed {s.failed}, timed out {s.timedOut}" ++
    s!" in {elapsed}s\n"

/-- Reports the counts and the headline of a run. -/
def reportSummary (s : RunSummary Float) : m Unit := do
  Host.report (countsLine s (← Host.elapsed))
  Host.report (Report.headline s.score)

/-! ### Commands -/

/-- Runs over a corpus, without rows or with rows for a file. -/
def scoreCorpus (runner : Runner PieceTable) (corpus : OpenCorpus) :
    Option FilePath → Steps m (RunSummary Float)
  | none => do
    let items ← liftM (corpus.items (m := m))
    orBreakOff (runner.run Float .empty items (.null Float) ()).1
  | some path => do
    fileStep s!"failed to create {path}" (Host.createFile path)
    let items ← liftM (corpus.items (m := m))
    let (summary, table) := runner.run Float .empty items (Csv.sink Float) .empty
    let written ← liftM (Host.writeFile path (Utf8.encode table.text) : m (Except IoError Unit))
    -- the rows so far are written in any case
    let summary ← orBreakOff summary
    match written with
    | .ok () => return summary
    | .error e => return summary.noteSinkError (some e.message)

/-- Scores a corpus. -/
def runCorpus (c : CorpusCommand) : Steps m Unit := do
  let config ← corpusConfig c.source c.timeoutMillis
  let words ← readWords c.words
  let context ← buildContext config.languages c.source.tokenizer words
  let corpus ← openCorpus c.source.origin
  let summary ← scoreCorpus ⟨context, config⟩ corpus c.csv
  liftM (reportSummary summary : m Unit)
  writeReport summary.score c.output
  match summary.sinkError with
  | some e => fail s!"CSV output is incomplete: {e}" []
  | none => pure ()

/-- The language of a file: the one that is asked for, or else the one that the
extension tells. -/
def languageOf (c : SnippetCommand) : Steps m Language :=
  match c.language <|> c.file.extension?.bind Language.ofExtension? with
  | some lang => pure lang
  | none => fail s!"cannot tell the language of {c.file}; pass --lang" []

/-- The document with this content. -/
def documentOf (lang : Language) (bytes : List UInt8) : Steps m Document :=
  match Document.ofContent? lang bytes with
  | .ok document => pure document
  | .error e => fail e.message []

/-- Scores one file. -/
def runSnippet (c : SnippetCommand) : Steps m Unit := do
  let lang ← languageOf c
  let bytes ← fileStep s!"failed to read {c.file}" (Host.readFile c.file)
  let document ← documentOf lang bytes
  let words ← readWords c.words
  let context ← buildContext [lang] c.tokenizer words
  match ← liftM (overrides EvalConfig.standard (m := m)) with
  | .error e => fail e.message []
  | .ok config =>
    let tokens ← orFail s!"tokenizer `{context.tokenizer.name}` failed" (fun e => [e.message])
      (context.tokenizer.tokenize document .empty).1
    let score ← orFail s!"failed to score {c.file}" ScoreError.chain
      (scoreDocument Float context.parser document tokens context.splitter
        (Deadline.after config.timeoutMillis))
    liftM (Host.print
      (String.ofList (Report.snippet document score.splits score.metrics)) : m Unit)

/-- Adds the table of a file to a score. -/
def addTableFile (score : CorpusScore Float) (input : Language × FilePath) :
    Steps m (CorpusScore Float) := do
  let (lang, path) := input
  fileStep s!"failed to open {path}" (Host.openFile path)
  let message := s!"failed to read {path}"
  let bytes ← fileStep message (Host.readFile path)
  orStop message (fun e => [CsvError.message e]) (score.addTable lang bytes)

/-- Folds tables of metrics into a report. -/
def runTables (c : TablesCommand) : Steps m Unit := do
  let score ← c.inputs.foldlM addTableFile CorpusScore.new
  liftM (Host.print (Report.headline score) : m Unit)
  writeReport score c.output

/-- Counts the pieces of a corpus. -/
def runFrequencies (c : FrequenciesCommand) : Steps m Unit := do
  let config ← corpusConfig c.source none
  let context ← buildContext config.languages c.source.tokenizer []
  let corpus ← openCorpus c.source.origin
  let items ← liftM (corpus.items (m := m))
  let runner : Runner PieceTable := ⟨context, config⟩
  let table ← orBreakOff (runner.frequencies? .empty items)
  let summary := table.summary Float c.top
  liftM (Host.print (String.ofList (summary.toJson.render ++ ['\n'])) : m Unit)

/-- Does what a command asks for. -/
def Command.run : Command → Steps m Unit
  | corpus c => runCorpus c
  | snippet c => runSnippet c
  | tables c => runTables c
  | frequencies c => runFrequencies c

/-! ### The program -/

/-- The code after success. -/
def success : UInt32 := 0

/-- The code after a failure. -/
def failure : UInt32 := 1

/-- The code for arguments that make no sense. -/
def misuse : UInt32 := 2

/-- The code after totals that do not fit. -/
def broken : UInt32 := 101

/-- Runs the program with some arguments, and gives its exit code. -/
def program (arguments : List String) : m UInt32 := do
  match Invocation.parse? arguments with
  | none =>
    Host.report Usage.misuse
    return misuse
  | some .version =>
    Host.print s!"{Usage.version}\n"
    return success
  | some (.help topic) =>
    Host.print (Usage.text topic)
    return success
  | some (.run command) =>
    match ← command.run.run with
    | .ok () => return success
    | .error (.error f) =>
      Host.report f.render
      return failure
    | .error .overflow =>
      Host.report s!"{Stop.overflowMessage}\n"
      return broken

end CommandLine

end TokenAlignment
