import MullXCTest.Library.FindReplace

/-!
# The commands of `XCTestRunFile`

The member functions run PlistBuddy or plutil on the run file. Here are the
command texts for the one and the argument vector for the other.
-/

namespace MullXCTest.RunFile

open FindReplace

def escapeColon (value : String) : String :=
  String.ofList (replaceAll [':'] ['\\', ':'] (List.cons_ne_nil _ _) value.toList)

theorem escapeColon_toList (value : String) :
    (escapeColon value).toList =
      value.toList.flatMap fun c => if c = ':' then ['\\', ':'] else [c] := by
  rw [escapeColon, String.toList_ofList, replaceAll_singleton]

structure XCTestRunFile where
  filePath : String

namespace XCTestRunFile

/-- The command of `addEnvironmentVariable`, which writes 1 whatever `value` is. -/
def addEnvironmentVariableCommand (targetName key _value : String) : String :=
  "Add " ++ escapeColon targetName ++ ":TestingEnvironmentVariables:" ++ escapeColon key ++
    " string 1"

def setBlueprintNameCommand (targetName name : String) : String :=
  "Set " ++ escapeColon targetName ++ ":BlueprintName " ++ name

def duplicateTestTargetCommand (srcTargetName newTargetName : String) : String :=
  "Copy " ++ escapeColon srcTargetName ++ " " ++ escapeColon newTargetName

def deleteTestTargetCommand (targetName : String) : String :=
  "Delete " ++ escapeColon targetName

/-- The key path of `getDependentProductPaths`. -/
def dependentProductPathsKeyPath (targetName : String) : String :=
  targetName ++ ".DependentProductPaths"

def getDependentProductPathsArguments (file : XCTestRunFile) (targetName outFile : String) :
    List String :=
  ["/usr/bin/plutil", "-extract", dependentProductPathsKeyPath targetName, "json",
    file.filePath, "-o", outFile]

end XCTestRunFile

end MullXCTest.RunFile
