/-
TokenAlignment/Run/Runner.lean

Runs over a corpus.

    items ──→ results ──→ summary
                  └─────→ sink

A document that fails is counted and never ends the run.  A sink that fails gets
no more rows, and the run goes on without it: the summary keeps the first error
of the sink and is otherwise the same as with any other sink.

Only totals that do not fit end a run: then there is no summary, and the sink is
left as it is.
-/
import TokenAlignment.Corpus.Item
import TokenAlignment.Run.Config
import TokenAlignment.Run.Context
import TokenAlignment.Run.Outcome
import TokenAlignment.Run.Sink
import TokenAlignment.Score.DocumentScore
import TokenAlignment.Score.Frequencies

namespace TokenAlignment

/-- A context with the settings of a run. -/
structure Runner (σ : Type) where
  context : ScoringContext σ
  config : EvalConfig

namespace Runner

variable {σ : Type} (α : Type) [Scalar α]

/-! ### One document -/

/-- Why a document is skipped before any work on it. -/
def rejection? (r : Runner σ) (document : Document) : Option String :=
  if r.config.maxDocumentBytes < document.length then
    let limit := r.config.maxDocumentBytes
    some s!"document of {document.length} bytes exceeds the {limit} byte limit"
  else if !r.config.accepts document.language then
    some s!"language {document.language} not selected"
  else none

/-- The outcome of a document that has no tokens. -/
def outcomeOfTokenizerError (name : String) : TokenizerError → Outcome α
  | .decode e => .skipped s!"not UTF-8 text: {e.message}"
  | e => .failed s!"{name}: {e.message}"

/-- The outcome of scoring a document. -/
def outcomeOfScore : Except ScoreError (DocumentScore α) → Outcome α
  | .ok score => .scored score.metrics
  | .error e => if e.isTimeout then .timedOut else .failed e.message

/-- Scores one document, and gives the memory of the tokenizer after it. -/
def scoreDocument (r : Runner σ) (document : Document) (memory : σ) : Outcome α × σ :=
  match r.rejection? document with
  | some reason => (.skipped reason, memory)
  | none =>
    let deadline := Deadline.after r.config.timeoutMillis
    match r.context.tokenizer.tokenize document memory with
    | (.error e, memory') => (outcomeOfTokenizerError α r.context.tokenizer.name e, memory')
    | (.ok tokens, memory') =>
      (outcomeOfScore α (TokenAlignment.scoreDocument α r.context.parser document tokens
        r.context.splitter deadline), memory')

/-- The outcome of an item that is no document. -/
def outcomeOfRejection : Rejection → Outcome α
  | .skipped reason => .skipped reason
  | .failed reason => .failed reason

/-- The result of one item, and the memory of the tokenizer after it. -/
def process (r : Runner σ) (item : CorpusItem) (memory : σ) : DocumentResult α × σ :=
  match item.document with
  | .ok document =>
    let (outcome, memory') := r.scoreDocument α document memory
    (⟨item.label, some document.language, outcome⟩, memory')
  | .error rejection => (⟨item.label, none, outcomeOfRejection α rejection⟩, memory)

/-! ### A corpus -/

/-- The results of some items after results found already (newest first). -/
def processAllOnto (r : Runner σ) (done : List (DocumentResult α)) (memory : σ) :
    List CorpusItem → List (DocumentResult α)
  | [] => done.reverse
  | item :: items =>
    let (result, memory') := r.process α item memory
    processAllOnto r (result :: done) memory' items

/-- The results of the items of a corpus, for a tokenizer with a given memory. -/
def processAll (r : Runner σ) (memory : σ) (items : List CorpusItem) :
    List (DocumentResult α) :=
  r.processAllOnto α [] memory items

end Runner

/-! ### The summary and the sink -/

namespace RunSummary

variable {α τ : Type} [Scalar α]

/-- Keeps the error of a sink. -/
def noteSinkError (s : RunSummary α) (error : Option String) : RunSummary α :=
  match error with
  | some text => { s with sinkError := some text }
  | none => s

/-- Gives one result to the sink, if it is a row and the sink is still sound, and
counts it.  A run that has ended takes nothing. -/
def take (sink : MetricsSink α τ) (state : Option (RunSummary α) × τ)
    (result : DocumentResult α) : Option (RunSummary α) × τ :=
  match state with
  | (none, t) => (none, t)
  | (some s, t) =>
    match result.outcome, result.language, s.sinkError with
    | .scored metrics, some lang, none =>
      let (error, t') := sink.record lang metrics t
      ((s.noteSinkError error).record? result, t')
    | _, _, _ => (s.record? result, t)

/-- Ends the run: a sink that is still sound is finished. -/
def close (sink : MetricsSink α τ) (state : Option (RunSummary α) × τ) :
    Option (RunSummary α) × τ :=
  match state with
  | (none, t) => (none, t)
  | (some s, t) =>
    match s.sinkError with
    | some _ => (some s, t)
    | none =>
      let (error, t') := sink.finish t
      (some (s.noteSinkError error), t')

/-- The summary of some results, if the totals fit, and the state of the sink after
them. -/
def ofResults (sink : MetricsSink α τ) (t : τ) (results : List (DocumentResult α)) :
    Option (RunSummary α) × τ :=
  close sink (results.foldl (take sink) (some .new, t))

end RunSummary

namespace Runner

variable {σ : Type} (α : Type) [Scalar α]

/-- Scores every item of a corpus and streams the rows into a sink. -/
def run {τ : Type} (r : Runner σ) (memory : σ) (items : List CorpusItem)
    (sink : MetricsSink α τ) (t : τ) : Option (RunSummary α) × τ :=
  RunSummary.ofResults sink t (r.processAll α memory items)

/-! ### Frequencies -/

/-- Counts the tokens of one item; one that is rejected or has no tokens is left
out. -/
def countItem? (r : Runner σ) (state : TokenFrequencies × σ) (item : CorpusItem) :
    Option (TokenFrequencies × σ) :=
  let (f, memory) := state
  match item.document with
  | .error _ => some (f, memory)
  | .ok document =>
    if (r.rejection? document).isSome then some (f, memory)
    else
      match r.context.tokenizer.tokenize document memory with
      | (.ok tokens, memory') => (f.addDocument? document tokens).map (·, memory')
      | (.error _, memory') => some (f, memory')

/-- Counts the tokens of a corpus, if their number fits; the vocabulary of the
tokenizer is in the table too. -/
def frequencies? (r : Runner σ) (memory : σ) (items : List CorpusItem) :
    Option TokenFrequencies := do
  let (f, _) ← items.foldlM r.countItem? (.empty, memory)
  return f.seed r.context.tokenizer.vocabulary

end Runner

end TokenAlignment
