import MullXCTest.Library.Words

/-!
# How PlistBuddy reads a command

Unquoted, unescaped whitespace separates the arguments of a command, an entry is
split at its unescaped colons, and a backslash makes the next character literal. A
quote protects the whitespace up to the quote that closes it, and neither of the
two belongs to the argument. `plutil` splits a key path at its dots.
-/

namespace MullXCTest.RunFile

/-- The keys that lead from the root of a plist to an entry. -/
abbrev KeyPath := List String

/-- What the reader makes of a character. -/
inductive Symbol
  | separator
  | plain (c : Char)
  | literal (c : Char)
  deriving DecidableEq

inductive Quote
  | single
  | double
  deriving DecidableEq

def quoteOf (c : Char) : Option Quote :=
  if c = '\'' then some .single else if c = '"' then some .double else none

/-- The quote that is open, and whether the last character was an unescaped backslash. -/
structure Scan where
  quote : Option Quote
  afterSlash : Bool

namespace Scan

def start : Scan := ⟨none, false⟩

def emit (state : Scan) (c : Char) : List Symbol :=
  if state.afterSlash then [.literal c]
  else if c = '\\' then []
  else
    match state.quote with
    | none =>
        if quoteOf c ≠ none then [] else if c.isWhitespace then [.separator] else [.plain c]
    | some q => if quoteOf c = some q then [] else [.plain c]

def next (state : Scan) (c : Char) : Scan :=
  if state.afterSlash then { state with afterSlash := false }
  else if c = '\\' then { state with afterSlash := true }
  else
    match state.quote with
    | none => { state with quote := quoteOf c }
    | some q => if quoteOf c = some q then { state with quote := none } else state

/-- The symbols of a text that is read from a state on. -/
def scan (state : Scan) : List Char → List Symbol
  | [] => []
  | c :: rest => state.emit c ++ (state.next c).scan rest

end Scan

def isSeparator : Symbol → Bool
  | .separator => true
  | _ => false

@[simp] theorem isSeparator_eq_true {s : Symbol} : isSeparator s = true ↔ s = .separator := by
  cases s <;> simp [isSeparator]

@[simp] theorem isSeparator_eq_false {s : Symbol} : isSeparator s = false ↔ s ≠ .separator := by
  cases s <;> simp [isSeparator]

/-- The arguments of a command: what stands between the separators. -/
def arguments (symbols : List Symbol) : List (List Symbol) :=
  Words.words isSeparator symbols

/-- The characters of an argument. -/
def characters : List Symbol → List Char
  | [] => []
  | .separator :: rest => characters rest
  | .plain c :: rest => c :: characters rest
  | .literal c :: rest => c :: characters rest

/-- An argument as the path of an entry. -/
def keyPath (argument : List Symbol) : KeyPath :=
  (argument.splitOnP (· == .plain ':')).map fun key => String.ofList (characters key)

/-- The number of arguments of a command that are entries. -/
def entryCount (verb : String) : Nat :=
  if verb = "Copy" then 2 else if verb ∈ ["Add", "Delete", "Set"] then 1 else 0

/-- The entries that a command names. -/
def entryPaths (command : String) : List KeyPath :=
  match arguments (Scan.start.scan command.toList) with
  | [] => []
  | verb :: rest =>
      (rest.take (entryCount (String.ofList (characters verb)))).map keyPath

/-- The components of a key path of `plutil`. -/
def plutilKeyPath (path : String) : KeyPath :=
  (path.toList.splitOn '.').map String.ofList

end MullXCTest.RunFile
