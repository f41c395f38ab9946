/-
TokenAlignment/Syntax/Recorded.lean

Trees that a parser delivered earlier, kept with the documents they belong to.

A recorded tree is flat: its nodes come in document order, each before its
children, and each says how many children it has.  Several of them make a
grammar that knows exactly the recorded documents:

    {"lang": "go", "content": "", "tree": [["source_file", 0, 0, 0]]}
-/
import TokenAlignment.Json.Number
import TokenAlignment.Json.Reader
import TokenAlignment.Language
import TokenAlignment.Syntax.Tree
import TokenAlignment.Text.Split
import TokenAlignment.Text.Utf8

namespace TokenAlignment

/-- A node of a flat tree. -/
structure FlatNode where
  kind : String
  start : Nat
  stop : Nat
  /-- The number of its children. -/
  arity : Nat
  deriving DecidableEq, Repr

namespace SyntaxTree

/-- Puts a node in front of the trees behind it, the first of which become its
children. -/
def plant? (node : FlatNode) (behind : Option (List SyntaxTree)) : Option (List SyntaxTree) :=
  behind.bind fun trees =>
    let children := trees.take node.arity
    if children.length = node.arity then
      some (.node node.kind node.start node.stop children :: trees.drop node.arity)
    else none

/-- The tree with these nodes, each before its children. -/
def ofPreorder? (nodes : List FlatNode) : Option SyntaxTree :=
  match nodes.foldr plant? (some []) with
  | some [tree] => some tree
  | _ => none

end SyntaxTree

/-- A document and the tree that a parser found for it. -/
structure RecordedTree where
  language : Language
  content : Array UInt8
  tree : SyntaxTree

namespace RecordedTree

/-- The grammar that knows the recorded documents. -/
def grammar (known : List RecordedTree) (lang : Language) (content : Array UInt8) :
    Option SyntaxTree :=
  (known.find? fun r => r.language = lang && r.content == content).map RecordedTree.tree

/-! ### Records -/

/-- The number that a JSON value is. -/
def natural? : Json → Option Nat
  | .number lexeme => (JsonNumber.readWord? lexeme).map UInt64.toNat
  | _ => none

/-- The node that a JSON value describes. -/
def node? : Json → Option FlatNode
  | .array [.string (some kind), start, stop, arity] => do
    return ⟨String.ofList kind, ← natural? start, ← natural? stop, ← natural? arity⟩
  | _ => none

/-- The recorded tree that a JSON value describes. -/
def ofJson? (v : Json) : Option RecordedTree :=
  match v.fields? ["lang", "content", "tree"] with
  | some [.string (some lang), .string (some content), .array nodes] => do
    let language ← Language.ofName? (String.ofList lang)
    let tree ← SyntaxTree.ofPreorder? (← nodes.mapM node?)
    return ⟨language, (Utf8.encode content).toArray, tree⟩
  | _ => none

/-- The recorded trees of a file with one on each line; other lines do not
count. -/
def ofLines (bytes : List UInt8) : List RecordedTree :=
  (Lines.ofBytes bytes).filterMap fun line =>
    ((Utf8.decode? line).bind Json.ofText?).bind ofJson?

end RecordedTree

end TokenAlignment
