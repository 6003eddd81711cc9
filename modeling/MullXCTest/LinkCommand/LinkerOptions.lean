import MullXCTest.LinkCommand.Filelist

/-!
# Collecting objects and options from parsed arguments

Each front end walks its parsed arguments twice: `collectObjectFiles` gathers
the objects for the mutation pipeline and `collectObjectLinkOpts` renders what
is forwarded to the real tool. An iterator is the list of the arguments it has
still to visit, so `args.end()` is the empty list. Advancing or reading an
iterator there is a `Fault`.
-/

namespace MullXCTest.LinkCommand

/-- The options that the collectors test for. Any other option is only rendered. -/
inductive OptId
  | input
  | filelist
  | addAstPath
  | bitcodeBundle
  | help
  | other (name : String)
  deriving DecidableEq, Repr

/-- A parsed argument of an option table, with the answers of LLVM's accessors. -/
structure Arg where
  option : OptId
  values : List String
  /-- The command line strings that `arg->render` appends. -/
  render : List String
  deriving DecidableEq, Repr

abbrev InputArgList := List Arg

namespace Arg

/-- `arg->getOption().matches(id)`. -/
def isOption (arg : Arg) (id : OptId) : Bool := arg.option == id

/-- `arg->getValue()`; input and separate arguments always have one value. -/
def getValue (arg : Arg) : String := arg.values.headD ""

/-- The parsed form of the two strings that `appendFilelist` adds. -/
def ofFilelist (path : String) : Arg where
  option := .filelist
  values := [path]
  render := ["-filelist", path]

end Arg

/-- What the argument handling can do outside the rules of C++. -/
inductive Fault
  | indexPastEnd
  | iteratorPastEnd
  | readAtEnd
  | nullOptTable
  deriving DecidableEq, Repr

namespace LD64OptTable

def collectObjectFiles (fs : FileSystem) :
    InputArgList → List String → Except Fault (List String)
  | [], objectFiles => .ok objectFiles
  | arg :: it, objectFiles =>
      if arg.isOption .addAstPath then
        match it with
        -- `++it` reaches the end here and the loop's own `++it` jumps over it.
        | [] => .error .iteratorPastEnd
        | _ :: it => collectObjectFiles fs it objectFiles
      else if arg.isOption .input then
        collectObjectFiles fs it (objectFiles ++ [arg.getValue])
      else if arg.isOption .filelist then
        -- The error flag is not looked at.
        collectObjectFiles fs it (readFilelistFile fs arg.getValue objectFiles).2
      else
        collectObjectFiles fs it objectFiles

theorem collectObjectFiles_astPath {fs : FileSystem} {arg value : Arg} {it : InputArgList}
    {objectFiles : List String} (h : arg.isOption .addAstPath = true) :
    collectObjectFiles fs (arg :: value :: it) objectFiles =
      collectObjectFiles fs it objectFiles := by
  simp [collectObjectFiles, h]

theorem collectObjectFiles_cons {fs : FileSystem} {arg : Arg} {it : InputArgList}
    {objectFiles : List String} (h : arg.isOption .addAstPath = false) :
    collectObjectFiles fs (arg :: it) objectFiles =
      if arg.isOption .input then collectObjectFiles fs it (objectFiles ++ [arg.getValue])
      else if arg.isOption .filelist then
        collectObjectFiles fs it (readFilelistFile fs arg.getValue objectFiles).2
      else collectObjectFiles fs it objectFiles := by
  cases it <;> simp [collectObjectFiles, h]

def collectObjectLinkOpts : InputArgList → List String → Except Fault (List String)
  | [], output => .ok output
  | arg :: it, output =>
      if arg.isOption .addAstPath then
        match it with
        -- `arg = *it` right after `++it` reached the end.
        | [] => .error .readAtEnd
        | value :: it => collectObjectLinkOpts it (output ++ arg.render ++ value.render)
      else if arg.isOption .bitcodeBundle then
        collectObjectLinkOpts it output
      else if !arg.isOption .input && !arg.isOption .filelist then
        collectObjectLinkOpts it (output ++ arg.render)
      else
        collectObjectLinkOpts it output

theorem collectObjectLinkOpts_astPath {arg value : Arg} {it : InputArgList}
    {output : List String} (h : arg.isOption .addAstPath = true) :
    collectObjectLinkOpts (arg :: value :: it) output =
      collectObjectLinkOpts it (output ++ arg.render ++ value.render) := by
  simp [collectObjectLinkOpts, h]

theorem collectObjectLinkOpts_cons {arg : Arg} {it : InputArgList} {output : List String}
    (h : arg.isOption .addAstPath = false) :
    collectObjectLinkOpts (arg :: it) output =
      if arg.isOption .bitcodeBundle then collectObjectLinkOpts it output
      else if !arg.isOption .input && !arg.isOption .filelist then
        collectObjectLinkOpts it (output ++ arg.render)
      else collectObjectLinkOpts it output := by
  cases it <;> simp [collectObjectLinkOpts, h]

end LD64OptTable

/-- Two filtered passes: all inputs first, then the content of all filelists. -/
def collectFiltered (fs : FileSystem) (args : InputArgList) (objectFiles : List String) :
    List String :=
  let objectFiles := (args.filter fun arg => arg.isOption .input).foldl
    (fun output input => output ++ [input.getValue]) objectFiles
  (args.filter fun arg => arg.isOption .filelist).foldl
    (fun output arg => (readFilelistFile fs arg.getValue output).2) objectFiles

/-- One pass that renders everything but inputs and filelists. -/
def renderOthers (args : InputArgList) (output : List String) : List String :=
  args.foldl (fun output arg =>
    if !arg.isOption .input && !arg.isOption .filelist then output ++ arg.render else output)
    output

namespace ClangOptTable

def collectObjectFiles (fs : FileSystem) (args : InputArgList) (objectFiles : List String) :
    Except Fault (List String) := .ok (collectFiltered fs args objectFiles)

def collectObjectLinkOpts (args : InputArgList) (output : List String) :
    Except Fault (List String) := .ok (renderOthers args output)

end ClangOptTable

namespace Libtool

def collectObjectFiles (fs : FileSystem) (args : InputArgList) (objectFiles : List String) :
    Except Fault (List String) := .ok (collectFiltered fs args objectFiles)

def collectObjectLinkOpts (args : InputArgList) (output : List String) :
    Except Fault (List String) := .ok (renderOthers args output)

end Libtool

/-- Every front end appends the filelist in the same way. -/
def appendFilelist (filelist : String) (output : List String) : List String :=
  output ++ ["-filelist", filelist]

/-- The two option tables of mull-ld and the one of mull-libtool. -/
inductive FrontEnd
  | ld64
  | clang
  | libtool
  deriving DecidableEq, Repr

namespace FrontEnd

def collectObjectFiles (fe : FrontEnd) :
    FileSystem → InputArgList → List String → Except Fault (List String) :=
  match fe with
  | .ld64 => LD64OptTable.collectObjectFiles
  | .clang => ClangOptTable.collectObjectFiles
  | .libtool => Libtool.collectObjectFiles

def collectObjectLinkOpts (fe : FrontEnd) :
    InputArgList → List String → Except Fault (List String) :=
  match fe with
  | .ld64 => LD64OptTable.collectObjectLinkOpts
  | .clang => ClangOptTable.collectObjectLinkOpts
  | .libtool => Libtool.collectObjectLinkOpts

/-- The arguments with which `link` and `runLibtool` start the real tool. -/
def linkArguments (fe : FrontEnd) (args : InputArgList) (filelistPath : String) :
    Except Fault (List String) := do
  let rawArgs ← fe.collectObjectLinkOpts args []
  return appendFilelist filelistPath rawArgs

/-- `hasHelpFlag` of the two tables of mull-ld; mull-libtool has no such test. -/
def hasHelpFlag (fe : FrontEnd) (args : InputArgList) : Bool :=
  match fe with
  | .ld64 | .clang => args.any fun arg => arg.isOption .help
  | .libtool => false

end FrontEnd

section Example

/-- A single command line string, parsed as one of a few flags or as an input. -/
def parseWord (word : String) : Arg :=
  if word = "-add_ast_path" then ⟨.addAstPath, [], [word]⟩
  else if word = "-bitcode_bundle" then ⟨.bitcodeBundle, [], [word]⟩
  else if word = "-dylib" then ⟨.other "dylib", [], [word]⟩
  else ⟨.input, [word], [word]⟩

/-- An option parser for the concrete command lines of the examples. -/
def parseFlat : List String → InputArgList
  | [] => []
  | word :: rest =>
      if word = "-filelist" then
        match rest with
        | [] => []
        | path :: rest => Arg.ofFilelist path :: parseFlat rest
      else parseWord word :: parseFlat rest

end Example

end MullXCTest.LinkCommand
