import Mathlib.Data.List.Basic

/-!
# Extracting and loading embedded bitcode

`extractEmbeddedFile` and `loadBitcodeFromBuffer` on what LLVM's and mull's
readers return, which are parameters. Both functions add their warnings to the
diagnostics and return nothing when the object has to be passed on unchanged.
-/

namespace MullXCTest.Pipeline

/-- The bytes of a memory buffer. -/
abbrev Buffer := List UInt8

/-- The warnings issued so far. -/
abbrev Diagnostics := List String

/-- A section of a Mach-O object file, with the answers of LLVM's accessors. -/
structure MachOSection where
  name : Except String String
  finalSegmentName : String
  contents : Except String Buffer

/-- The result of `object::createBinary`, as far as `dyn_cast` tells the kinds apart. -/
inductive Binary
  | machOObjectFile (sections : List MachOSection)
  | other

/-- Unreadable contents count as empty, and so does a file without the section. -/
def getBitcodeSectionContent : List MachOSection → Buffer
  | [] => []
  | sect :: rest =>
      match sect.name with
      | .error _ => getBitcodeSectionContent rest
      | .ok sectionName =>
          if sect.finalSegmentName = "__LLVM" ∧ sectionName = "__bitcode" then
            match sect.contents with
            | .error _ => []
            | .ok content => content
          else getBitcodeSectionContent rest

/-- LLVM's and mull's readers of object files and bitcode. -/
structure Readers (Module : Type) where
  createBinary : String → Except String Binary
  loadModuleFromBuffer : Buffer → Option Module
  /-- The module has the named metadata `llvm.dbg.cu`. -/
  hasDebugInfo : Module → Bool

variable {Module : Type} (readers : Readers Module)

def extractEmbeddedFile (inputFile : String) (diagnostics : Diagnostics) :
    Option Buffer × Diagnostics :=
  match readers.createBinary inputFile with
  | .error message =>
      (none, diagnostics ++ ["createBinary failed: \"" ++ message ++ "\"."])
  | .ok .other =>
      (none, diagnostics ++ ["input file is not mach-o object file: " ++ inputFile])
  | .ok (.machOObjectFile sections) => (some (getBitcodeSectionContent sections), diagnostics)

def loadBitcodeFromBuffer (buffer : Buffer) (diagnostics : Diagnostics) :
    Option Module × Diagnostics :=
  match readers.loadModuleFromBuffer buffer with
  | none =>
      (none, diagnostics ++ ["Bitcode module could not be loaded. Possible reason: the bitcode " ++
        "file could be built with a newer version of LLVM than is used by Mull."])
  | some module =>
      if readers.hasDebugInfo module then (some module, diagnostics)
      else (some module,
        diagnostics ++ ["Bitcode module does not have debug information."])

/-- The bitcode section of an object file that LLVM can read. -/
def embeddedBuffer (inputFile : String) : Option Buffer :=
  match readers.createBinary inputFile with
  | .ok (.machOObjectFile sections) => some (getBitcodeSectionContent sections)
  | _ => none

theorem extractEmbeddedFile_fst (inputFile : String) (diagnostics : Diagnostics) :
    (extractEmbeddedFile readers inputFile diagnostics).1 = embeddedBuffer readers inputFile := by
  unfold extractEmbeddedFile embeddedBuffer
  rcases readers.createBinary inputFile with message | (sections | _) <;> rfl

theorem loadBitcodeFromBuffer_fst (buffer : Buffer) (diagnostics : Diagnostics) :
    (loadBitcodeFromBuffer readers buffer diagnostics).1 =
      readers.loadModuleFromBuffer buffer := by
  unfold loadBitcodeFromBuffer
  cases readers.loadModuleFromBuffer buffer with
  | none => rfl
  | some module => dsimp only; split <;> rfl

/-- The bitcode module of an input, if it can be extracted and loaded. -/
def loadedModule (inputFile : String) : Option Module :=
  (embeddedBuffer readers inputFile).bind readers.loadModuleFromBuffer

end MullXCTest.Pipeline
