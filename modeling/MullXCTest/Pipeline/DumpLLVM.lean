import MullXCTest.Invocation.PathAppend
import MullXCTest.LLVM.Path
import Mathlib.Logic.Function.Basic

/-!
# The dumped modules

`dumpLLVM` writes each module to the file in the destination directory that has the name of
its source file, with the extension `ll`. What the source files have in front of their names
and behind the last dot in them is lost, and a later module overwrites an earlier one.
-/

namespace MullXCTest.Pipeline

open Invocation PathWalk

/-- Where a file is: from the root or from the current directory, along some components. -/
def location (path : List Char) : Bool × List (List Char) :=
  (decide (IsAbsolute '/' path), components '/' path)

/-- The texts of the files that have been written. -/
abbrev Files := Bool × List (List Char) → Option String

/-- The configuration of mull-ld and mull-libtool: no dump without a directory. -/
def configureDumpLLVM (dumpLLVM : String) : Option String :=
  if dumpLLVM = "" then none else some dumpLLVM

/-- `filepath` in `dumpLLVM`. -/
def dumpPath (destDir sourceFileName : String) : List Char :=
  LLVM.replaceExtension (pathAppend destDir (LLVM.filename sourceFileName)).toList "ll".toList

section Dump

variable {Module : Type} (getSourceFileName print : Module → String)

/-- A stream for a path truncates the file that is there. -/
def dumpModule (destDir : String) (files : Files) (module : Module) : Files :=
  Function.update files (location (dumpPath destDir (getSourceFileName module)))
    (some (print module))

def dumpLLVM (program : List Module) (destDir : String) (files : Files) : Files :=
  program.foldl (dumpModule getSourceFileName print destDir) files

/-- The modules are written to different files in the destination directory, and each file
has the text of its module in the end. -/
structure KeepsDumps (program : List Module) (destDir : String) : Prop where
  distinct : program.Pairwise fun first second =>
    location (dumpPath destDir (getSourceFileName first)) ≠
      location (dumpPath destDir (getSourceFileName second))
  inside : ∀ module ∈ program, ∃ name,
    location (dumpPath destDir (getSourceFileName module)) =
      ((location destDir.toList).1, (location destDir.toList).2 ++ [name])
  kept : ∀ (files : Files), ∀ module ∈ program,
    dumpLLVM getSourceFileName print program destDir files
      (location (dumpPath destDir (getSourceFileName module))) = some (print module)

end Dump

/-- What is left of a source file name: its last component up to the last dot in it. -/
def dumpStem (sourceFileName : String) : List Char :=
  LLVM.stem ((LLVM.filename sourceFileName).toList.dropWhile (· = '/'))

section Destination

variable {destDir : String}

/-- The dump of a module is the file in the directory that has the stem of its source file
name. -/
theorem location_dumpPath (h : destDir ≠ "") (sourceFileName : String) :
    location (dumpPath destDir sourceFileName) =
      ((location destDir.toList).1, (location destDir.toList).2 ++
        [dumpStem sourceFileName ++ '.' :: "ll".toList]) := by
  obtain ⟨dir, hpath, hcomponents, habs⟩ := pathAppend_eq h (LLVM.filename sourceFileName)
  have hname := LLVM.separator_notMem_filename sourceFileName
  have hfile : '/' ∉ dumpStem sourceFileName ++ '.' :: "ll".toList := by
    have hstem : '/' ∉ dumpStem sourceFileName :=
      fun hmem => hname (LLVM.mem_of_mem_stem hmem)
    simp [hstem]
  unfold location dumpPath
  rw [hpath, LLVM.replaceExtension_append dir hname (by decide) (by decide),
    components_append_cons, hcomponents, ← dumpStem, components_of_notMem (by simp) hfile]
  congr 1
  exact decide_eq_decide.mpr (habs _)

theorem location_eq_iff (h : destDir ≠ "") (first second : String) :
    location (dumpPath destDir first) = location (dumpPath destDir second) ↔
      dumpStem first = dumpStem second := by
  rw [location_dumpPath h, location_dumpPath h]
  simp

end Destination

section Writes

variable {Module : Type} {getSourceFileName print : Module → String} {destDir : String}

/-- A file that no module is written to keeps its text. -/
theorem dumpLLVM_of_ne {program : List Module} {file : Bool × List (List Char)}
    (h : ∀ module ∈ program, location (dumpPath destDir (getSourceFileName module)) ≠ file)
    (files : Files) : dumpLLVM getSourceFileName print program destDir files file = files file := by
  induction program generalizing files with
  | nil => rfl
  | cons first rest ih =>
      have hrest := ih (fun module hmodule => h module (List.mem_cons_of_mem _ hmodule))
        (dumpModule getSourceFileName print destDir files first)
      have hfirst := h first List.mem_cons_self
      calc
        dumpLLVM getSourceFileName print (first :: rest) destDir files file =
            dumpModule getSourceFileName print destDir files first file := hrest
        _ = files file := Function.update_of_ne hfirst.symm _ _

theorem dumpLLVM_of_mem {program : List Module}
    (h : program.Pairwise fun first second =>
      location (dumpPath destDir (getSourceFileName first)) ≠
        location (dumpPath destDir (getSourceFileName second)))
    (files : Files) {module : Module} (hmodule : module ∈ program) :
    dumpLLVM getSourceFileName print program destDir files
      (location (dumpPath destDir (getSourceFileName module))) = some (print module) := by
  induction program generalizing files with
  | nil => cases hmodule
  | cons first rest ih =>
      obtain ⟨hfirst, hrest⟩ := List.pairwise_cons.mp h
      rcases List.mem_cons.mp hmodule with rfl | hmodule
      · have hlater := @dumpLLVM_of_ne _ _ print _ _ _
          (fun later hlater => (hfirst later hlater).symm)
          (dumpModule getSourceFileName print destDir files module)
        exact hlater.trans (Function.update_self _ _ _)
      · exact ih hrest _ hmodule

end Writes

/-- **The dumps of all modules are kept** exactly when no two modules have source files whose
names agree up to their last dots. -/
theorem keepsDumps_iff {Module : Type} (getSourceFileName print : Module → String)
    (program : List Module) {dumpLLVM destDir : String}
    (h : configureDumpLLVM dumpLLVM = some destDir) :
    KeepsDumps getSourceFileName print program destDir ↔
      program.Pairwise fun first second =>
        dumpStem (getSourceFileName first) ≠ dumpStem (getSourceFileName second) := by
  have hdest : destDir ≠ "" := by
    rintro rfl
    unfold configureDumpLLVM at h
    split_ifs at h with hempty
    exact hempty (Option.some.inj h)
  have hlocation : ∀ first second : Module,
      location (dumpPath destDir (getSourceFileName first)) ≠
          location (dumpPath destDir (getSourceFileName second)) ↔
        dumpStem (getSourceFileName first) ≠ dumpStem (getSourceFileName second) :=
    fun first second => not_congr (location_eq_iff hdest _ _)
  constructor
  · intro keeps
    exact keeps.distinct.imp fun hne => (hlocation _ _).mp hne
  · intro hstems
    have hdistinct := hstems.imp fun hne => (hlocation _ _).mpr hne
    refine ⟨hdistinct, ?_, ?_⟩
    · intro module _
      exact ⟨_, location_dumpPath hdest _⟩
    · intro files module hmodule
      exact dumpLLVM_of_mem hdistinct files hmodule

/-- Two sources with different names. -/
theorem keepsDumps_example :
    KeepsDumps Prod.fst Prod.snd [("src/a.cpp", "A"), ("src/b.cpp", "B")] "dump" :=
  (@keepsDumps_iff _ Prod.fst Prod.snd _ "dump" "dump" rfl).mpr (by decide)

/-- Two sources with one name, in two directories or with two extensions. -/
theorem not_keepsDumps_example :
    ¬ KeepsDumps Prod.fst Prod.snd [("a/x.cpp", "A"), ("b/x.cpp", "B")] "dump" ∧
      ¬ KeepsDumps Prod.fst Prod.snd [("x.c", "A"), ("x.cpp", "B")] "dump" := by
  have hone : ∀ first second : String × String,
      dumpStem first.1 = dumpStem second.1 →
        ¬ KeepsDumps Prod.fst Prod.snd [first, second] "dump" := by
    intro first second hstem keeps
    have hdistinct := keeps.distinct
    rw [List.pairwise_pair] at hdistinct
    apply hdistinct
    exact (location_eq_iff (by decide) _ _).mpr hstem
  exact ⟨hone _ _ (by decide), hone _ _ (by decide)⟩

end MullXCTest.Pipeline
