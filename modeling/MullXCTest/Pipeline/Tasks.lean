import MullXCTest.Pipeline.EmbeddedBitcode
import MullXCTest.TaskExecutor.PthreadTaskExecutor

/-!
# The tasks that extract and load embedded bitcode

The loops of `ExtractEmbeddedFileTask` and `LoadBitcodeFromBufferTask`. Their bodies
do what `extractEmbeddedFile` and `loadBitcodeFromBuffer` do, with a `continue` in
the place of every `return nullptr`.
-/

namespace MullXCTest.Pipeline

open TaskExecutor

variable {Module : Type}

namespace extractEmbeddedFileTask

/-- What one round stores, and its warnings. -/
def body (readers : Readers Module) (inputFile : String) : List Buffer × Diagnostics :=
  match readers.createBinary inputFile with
  | .error message => ([], ["createBinary failed: \"" ++ message ++ "\"."])
  | .ok .other => ([], ["input file is not mach-o object file: " ++ inputFile])
  | .ok (.machOObjectFile sections) => ([getBitcodeSectionContent sections], [])

theorem body_eq (readers : Readers Module) (inputFile : String) :
    (body readers inputFile).1 = (extractEmbeddedFile readers inputFile []).1.toList ∧
      (body readers inputFile).2 = (extractEmbeddedFile readers inputFile []).2 := by
  unfold body extractEmbeddedFile
  rcases readers.createBinary inputFile with message | (sections | _) <;> exact ⟨rfl, rfl⟩

end extractEmbeddedFileTask

/-- `readers i` answer in the round for the position `i`. -/
def extractEmbeddedFileTask (readers : Nat → Readers Module) : Task String Buffer :=
  forEach fun i inputFile => (extractEmbeddedFileTask.body (readers i) inputFile).1

namespace loadBitcodeFromBufferTask

def body (readers : Readers Module) (buffer : Buffer) : List Module × Diagnostics :=
  match readers.loadModuleFromBuffer buffer with
  | none =>
      ([], ["Bitcode module could not be loaded. Possible reason: the bitcode " ++
        "file could be built with a newer version of LLVM than is used by Mull."])
  | some module =>
      if readers.hasDebugInfo module then ([module], [])
      else ([module], ["Bitcode module does not have debug information."])

theorem body_eq (readers : Readers Module) (buffer : Buffer) :
    (body readers buffer).1 = (loadBitcodeFromBuffer readers buffer []).1.toList ∧
      (body readers buffer).2 = (loadBitcodeFromBuffer readers buffer []).2 := by
  unfold body loadBitcodeFromBuffer
  cases readers.loadModuleFromBuffer buffer with
  | none => exact ⟨rfl, rfl⟩
  | some module =>
      dsimp only
      split <;> exact ⟨rfl, rfl⟩

end loadBitcodeFromBufferTask

def loadBitcodeFromBufferTask (readers : Nat → Readers Module) : Task Buffer Module :=
  forEach fun i buffer => (loadBitcodeFromBufferTask.body (readers i) buffer).1

/-- One task after the other loads the modules that the loop of the pipeline loads. -/
theorem outputs_extract_load (readers : Readers Module) (inputObjects : List String) :
    outputs (loadBitcodeFromBufferTask (fun _ => readers)
        (outputs (extractEmbeddedFileTask (fun _ => readers) inputObjects))) =
      inputObjects.filterMap (loadedModule readers) := by
  have hextract : outputs (extractEmbeddedFileTask (fun _ => readers) inputObjects) =
      inputObjects.filterMap (embeddedBuffer readers) := by
    rw [extractEmbeddedFileTask, outputs_forEach_const, List.filterMap_eq_flatMap_toList]
    simp only [extractEmbeddedFileTask.body_eq, extractEmbeddedFile_fst]
  have hload : ∀ buffers, outputs (loadBitcodeFromBufferTask (fun _ => readers) buffers) =
      buffers.filterMap readers.loadModuleFromBuffer := by
    intro buffers
    rw [loadBitcodeFromBufferTask, outputs_forEach_const, List.filterMap_eq_flatMap_toList]
    simp only [loadBitcodeFromBufferTask.body_eq, loadBitcodeFromBuffer_fst]
  rw [hextract, hload, List.filterMap_filterMap]
  rfl

end MullXCTest.Pipeline
