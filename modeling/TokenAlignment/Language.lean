/-
TokenAlignment/Language.lean

The programming languages whose sources are scored: their names, the file
extensions that tell them, and the kinds of syntax nodes that are identifiers
in each.

The set is closed.  `Language.all` is the order of every report.
-/
import TokenAlignment.Text.Blank

namespace TokenAlignment

/-- A source language. -/
inductive Language where
  | cpp
  | go
  | java
  | javascript
  | python
  deriving DecidableEq, Repr

/-- A name that is none of the supported languages. -/
structure UnsupportedLanguage where
  name : String
  deriving DecidableEq, Repr

namespace UnsupportedLanguage

/-- The wording of the error. -/
def message (e : UnsupportedLanguage) : String :=
  s!"unsupported language `{e.name}` (expected one of: c++, go, java, javascript, python)"

end UnsupportedLanguage

namespace Language

/-- Every language, in the order of reports. -/
def all : List Language :=
  [cpp, go, java, javascript, python]

/-- The name in lower case. -/
def name : Language → String
  | cpp => "c++"
  | go => "go"
  | java => "java"
  | javascript => "javascript"
  | python => "python"

instance : ToString Language := ⟨name⟩

/-- The language with exactly this name. -/
def ofName? (s : String) : Option Language :=
  all.find? fun lang => lang.name == s

/-- The language that a user means: white space around the name and the case of
its ASCII letters do not count, and `cpp` is `c++`. -/
def parse (s : String) : Except UnsupportedLanguage Language :=
  let word := String.ofList ((Text.trim s.toList).map Char.toLower)
  if word = "cpp" then .ok cpp
  else
    match ofName? word with
    | some lang => .ok lang
    | none => .error ⟨s⟩

/-- The file extensions of the language, in lower case and without the dot. -/
def extensions : Language → List String
  | cpp => ["cc", "cpp", "cxx", "c++", "hpp", "hh", "hxx", "h"]
  | go => ["go"]
  | java => ["java"]
  | javascript => ["js", "mjs", "cjs", "jsx"]
  | python => ["py", "pyi"]

/-- The language that a file extension tells; the case of ASCII letters does not
count. -/
def ofExtension? (extension : String) : Option Language :=
  let word := String.ofList (extension.toList.map Char.toLower)
  all.find? fun lang => lang.extensions.contains word

/-- The kinds of syntax nodes that are identifiers in the language. -/
def identifierKinds : Language → List String
  | cpp => ["identifier", "type_identifier", "namespace_identifier", "field_identifier"]
  | go => ["identifier", "package_identifier", "type_identifier", "field_identifier"]
  | java => ["identifier", "type_identifier"]
  | javascript => ["identifier", "property_identifier"]
  | python => ["identifier"]

theorem mem_all (lang : Language) : lang ∈ all := by
  cases lang <;> decide

end Language

/-! ### One value for each language -/

/-- A value for each language. -/
structure PerLanguage (β : Type) where
  cpp : β
  go : β
  java : β
  javascript : β
  python : β
  deriving DecidableEq, BEq, Repr

namespace PerLanguage

/-- The same value for every language. -/
def const {β : Type} (b : β) : PerLanguage β :=
  ⟨b, b, b, b, b⟩

/-- The value for a language. -/
def get {β : Type} (p : PerLanguage β) : Language → β
  | .cpp => p.cpp
  | .go => p.go
  | .java => p.java
  | .javascript => p.javascript
  | .python => p.python

/-- Replaces the value for one language. -/
def set {β : Type} (p : PerLanguage β) (lang : Language) (b : β) : PerLanguage β :=
  match lang with
  | .cpp => { p with cpp := b }
  | .go => { p with go := b }
  | .java => { p with java := b }
  | .javascript => { p with javascript := b }
  | .python => { p with python := b }

@[simp] theorem get_const {β : Type} (b : β) (lang : Language) : (const b).get lang = b := by
  cases lang <;> rfl

@[simp] theorem get_set {β : Type} (p : PerLanguage β) (lang other : Language) (b : β) :
    (p.set lang b).get other = if other = lang then b else p.get other := by
  cases lang <;> cases other <;> rfl

@[ext] theorem ext_get {β : Type} {p q : PerLanguage β} (h : ∀ lang, p.get lang = q.get lang) :
    p = q := by
  obtain ⟨_, _, _, _, _⟩ := p
  obtain ⟨_, _, _, _, _⟩ := q
  have h₁ := h .cpp
  have h₂ := h .go
  have h₃ := h .java
  have h₄ := h .javascript
  have h₅ := h .python
  simp_all [get]

end PerLanguage

end TokenAlignment
