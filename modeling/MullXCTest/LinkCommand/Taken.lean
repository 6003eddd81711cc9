import MullXCTest.LinkCommand.LinkerOptions
import MullXCTest.Library.MarkerScan

/-!
# Which arguments each collector takes

The two loops of a front end are repeated here on arguments that carry their
place on the command line, and record the arguments they take instead of what
those contribute. The output of each loop is then the contribution of the
recorded arguments, in the recorded order.
-/

namespace MullXCTest.LinkCommand

/-- A parsed argument together with its place on the command line. -/
abbrev Placed := Arg × Nat

/-- The arguments that name objects, directly or through a filelist. -/
def Arg.isObject (arg : Arg) : Bool := arg.isOption .input || arg.isOption .filelist

theorem Arg.isOption_iff {arg : Arg} {id : OptId} :
    arg.isOption id = true ↔ arg.option = id := by
  simp [Arg.isOption]

theorem Arg.isOption_of_ne {arg : Arg} {id : OptId} (h : arg.isOption id = true)
    (id' : OptId) (hne : id ≠ id') : arg.isOption id' = false := by
  have ho := Arg.isOption_iff.mp h
  simp [Arg.isOption, ho, hne]

/-- What an object argument adds to the list of objects. -/
def objectsOf (fs : FileSystem) (arg : Arg) : List String :=
  if arg.isOption .input then [arg.getValue] else (readFilelistFile fs arg.getValue []).2

theorem objectsOf_input {fs : FileSystem} {arg : Arg} (h : arg.isOption .input = true) :
    objectsOf fs arg = [arg.getValue] := by
  simp [objectsOf, h]

/-- A filelist adds its lines behind what was collected before. -/
theorem objectsOf_filelist {fs : FileSystem} {arg : Arg} {buffer : String}
    (h : arg.isOption .input = false) (hfs : fs arg.getValue = some buffer) :
    objectsOf fs arg = filelistLines buffer := by
  simp [objectsOf, h, readFilelistFile, hfs]

theorem readFilelistFile_eq {fs : FileSystem} {arg : Arg} (h : arg.isOption .input = false)
    (output : List String) :
    (readFilelistFile fs arg.getValue output).2 = output ++ objectsOf fs arg := by
  cases hfs : fs arg.getValue <;> simp [objectsOf, readFilelistFile, h, hfs]

/-- The option whose value the ld64 loops skip or render without looking at it. -/
def isAstPath (arg : Arg) : Bool := arg.isOption .addAstPath

/-- The same test on placed arguments. -/
def marksAstPath (p : Placed) : Bool := isAstPath p.1

open MarkerScan

theorem dangling_placed (ps : List Placed) :
    dangling isAstPath (ps.map Prod.fst) = dangling marksAstPath ps :=
  dangling_map Prod.fst ps

namespace LD64OptTable

def takenObjects : List Placed → List Placed
  | [] => []
  | p :: it =>
      if p.1.isOption .addAstPath then
        match it with
        | [] => []
        | _ :: it => takenObjects it
      else if p.1.isOption .input then p :: takenObjects it
      else if p.1.isOption .filelist then p :: takenObjects it
      else takenObjects it

theorem takenObjects_astPath {p value : Placed} {it : List Placed}
    (h : marksAstPath p = true) : takenObjects (p :: value :: it) = takenObjects it := by
  simp [takenObjects, show p.1.isOption .addAstPath = true from h]

theorem takenObjects_cons {p : Placed} {it : List Placed} (h : marksAstPath p = false) :
    takenObjects (p :: it) =
      if p.1.isObject then p :: takenObjects it else takenObjects it := by
  have ha : p.1.isOption .addAstPath = false := h
  cases hin : p.1.isOption .input <;> cases it <;> simp [takenObjects, Arg.isObject, ha, hin]

def takenOptions : List Placed → List Placed
  | [] => []
  | p :: it =>
      if p.1.isOption .addAstPath then
        match it with
        | [] => []
        | value :: it => p :: value :: takenOptions it
      else if p.1.isOption .bitcodeBundle then takenOptions it
      else if !p.1.isOption .input && !p.1.isOption .filelist then p :: takenOptions it
      else takenOptions it

theorem takenOptions_astPath {p value : Placed} {it : List Placed}
    (h : marksAstPath p = true) :
    takenOptions (p :: value :: it) = p :: value :: takenOptions it := by
  simp [takenOptions, show p.1.isOption .addAstPath = true from h]

theorem takenOptions_cons {p : Placed} {it : List Placed} (h : marksAstPath p = false) :
    takenOptions (p :: it) =
      if p.1.isOption .bitcodeBundle || p.1.isObject then takenOptions it
      else p :: takenOptions it := by
  have ha : p.1.isOption .addAstPath = false := h
  cases hbc : p.1.isOption .bitcodeBundle <;> cases hin : p.1.isOption .input <;>
    cases hfl : p.1.isOption .filelist <;> cases it <;>
    simp [takenOptions, Arg.isObject, ha, hbc, hin, hfl]

/-- The first loop adds exactly what the arguments it takes contribute, in order. -/
theorem collectObjectFiles_eq (fs : FileSystem) (ps : List Placed) (objectFiles : List String)
    (h : dangling marksAstPath ps = false) :
    collectObjectFiles fs (ps.map Prod.fst) objectFiles =
      .ok (objectFiles ++ (takenObjects ps).flatMap fun p => objectsOf fs p.1) := by
  induction ps using scan_induction marksAstPath generalizing objectFiles with
  | nil => simp [collectObjectFiles, takenObjects]
  | single p hp => simp [dangling_single hp] at h
  | pair p value it hp ih =>
      rw [dangling_marker hp] at h
      rw [List.map_cons, List.map_cons, collectObjectFiles_astPath hp, takenObjects_astPath hp]
      exact ih objectFiles h
  | cons p it hp ih =>
      rw [dangling_cons hp] at h
      rw [List.map_cons, collectObjectFiles_cons hp, takenObjects_cons hp]
      cases hin : p.1.isOption .input
      · cases hfl : p.1.isOption .filelist
        · simpa [Arg.isObject, hin, hfl] using ih objectFiles h
        · simp [Arg.isObject, hin, hfl, ih _ h, readFilelistFile_eq hin]
      · simp [Arg.isObject, hin, ih _ h, objectsOf_input hin]

/-- The second loop renders exactly the arguments it takes, in order. -/
theorem collectObjectLinkOpts_eq (ps : List Placed) (output : List String)
    (h : dangling marksAstPath ps = false) :
    collectObjectLinkOpts (ps.map Prod.fst) output =
      .ok (output ++ (takenOptions ps).flatMap fun p => p.1.render) := by
  induction ps using scan_induction marksAstPath generalizing output with
  | nil => simp [collectObjectLinkOpts, takenOptions]
  | single p hp => simp [dangling_single hp] at h
  | pair p value it hp ih =>
      rw [dangling_marker hp] at h
      rw [List.map_cons, List.map_cons, collectObjectLinkOpts_astPath hp,
        takenOptions_astPath hp, ih _ h]
      simp
  | cons p it hp ih =>
      rw [dangling_cons hp] at h
      rw [List.map_cons, collectObjectLinkOpts_cons hp, takenOptions_cons hp]
      cases hbc : p.1.isOption .bitcodeBundle
      · cases hob : p.1.isObject
        · have hnot : (!p.1.isOption .input && !p.1.isOption .filelist) = true := by
            simpa [Arg.isObject] using hob
          simp [hnot, ih _ h]
        · have hnot : (!p.1.isOption .input && !p.1.isOption .filelist) = false := by
            simpa [Arg.isObject, ← Bool.not_or] using hob
          simp [hnot, ih _ h]
      · simp [ih _ h]

/-- A dangling `-add_ast_path` moves both iterators out of the arguments. -/
theorem collect_dangling (fs : FileSystem) (args : InputArgList)
    (objectFiles output : List String) (h : dangling isAstPath args = true) :
    collectObjectFiles fs args objectFiles = .error .iteratorPastEnd ∧
      collectObjectLinkOpts args output = .error .readAtEnd := by
  induction args using scan_induction isAstPath generalizing objectFiles output with
  | nil => simp at h
  | single arg ha =>
      simp [collectObjectFiles, collectObjectLinkOpts,
        show arg.isOption .addAstPath = true from ha]
  | pair arg value it ha ih =>
      rw [dangling_marker ha] at h
      rw [collectObjectFiles_astPath ha, collectObjectLinkOpts_astPath ha]
      exact ih _ _ h
  | cons arg it ha ih =>
      rw [dangling_cons ha] at h
      rw [collectObjectFiles_cons ha, collectObjectLinkOpts_cons ha]
      constructor
      · split_ifs <;> exact (ih _ output h).1
      · split_ifs <;> exact (ih objectFiles _ h).2

end LD64OptTable

section Filtered

/-- What the two filtered passes take: inputs, then filelists. -/
def filteredObjects (ps : List Placed) : List Placed :=
  (ps.filter fun p => p.1.isOption .input) ++ ps.filter fun p => p.1.isOption .filelist

/-- What the rendering pass takes. -/
def filteredOptions (ps : List Placed) : List Placed :=
  ps.filter fun p => !p.1.isOption .input && !p.1.isOption .filelist

theorem collectFiltered_eq (fs : FileSystem) (ps : List Placed) (objectFiles : List String) :
    collectFiltered fs (ps.map Prod.fst) objectFiles =
      objectFiles ++ (filteredObjects ps).flatMap fun p => objectsOf fs p.1 := by
  have hin (ps : List Placed) (output : List String) :
      ((ps.map Prod.fst).filter fun arg => arg.isOption .input).foldl
          (fun output input => output ++ [input.getValue]) output =
        output ++ (ps.filter fun p => p.1.isOption .input).flatMap
          fun p => objectsOf fs p.1 := by
    induction ps generalizing output with
    | nil => simp
    | cons p rest ih =>
        cases h : p.1.isOption .input
        · simpa [List.filter_cons, h] using ih output
        · simp [h, ih, objectsOf_input h]
  have hfl (ps : List Placed) (output : List String) :
      ((ps.map Prod.fst).filter fun arg => arg.isOption .filelist).foldl
          (fun output arg => (readFilelistFile fs arg.getValue output).2) output =
        output ++ (ps.filter fun p => p.1.isOption .filelist).flatMap
          fun p => objectsOf fs p.1 := by
    induction ps generalizing output with
    | nil => simp
    | cons p rest ih =>
        cases h : p.1.isOption .filelist
        · simpa [List.filter_cons, h] using ih output
        · have hni := Arg.isOption_of_ne h .input (by decide)
          simp [h, ih, readFilelistFile_eq hni]
  simp only [collectFiltered, filteredObjects, List.flatMap_append]
  rw [hfl, hin, List.append_assoc]

theorem renderOthers_eq (ps : List Placed) (output : List String) :
    renderOthers (ps.map Prod.fst) output =
      output ++ (filteredOptions ps).flatMap fun p => p.1.render := by
  induction ps generalizing output with
  | nil => simp [renderOthers, filteredOptions]
  | cons p rest ih =>
      simp only [renderOthers, filteredOptions, List.map_cons, List.foldl_cons,
        List.filter_cons] at ih ⊢
      split
      · rw [ih, List.flatMap_cons, List.append_assoc]
      · exact ih output

end Filtered

namespace FrontEnd

def takenObjects (fe : FrontEnd) : List Placed → List Placed :=
  match fe with
  | .ld64 => LD64OptTable.takenObjects
  | .clang | .libtool => filteredObjects

def takenOptions (fe : FrontEnd) : List Placed → List Placed :=
  match fe with
  | .ld64 => LD64OptTable.takenOptions
  | .clang | .libtool => filteredOptions

/-- Only the ld64 loops look one argument ahead. -/
def Scannable (fe : FrontEnd) (args : InputArgList) : Prop :=
  fe = .ld64 → dangling isAstPath args = false

theorem collectObjectFiles_eq (fe : FrontEnd) (fs : FileSystem) (ps : List Placed)
    (h : fe.Scannable (ps.map Prod.fst)) :
    fe.collectObjectFiles fs (ps.map Prod.fst) [] =
      .ok ((fe.takenObjects ps).flatMap fun p => objectsOf fs p.1) := by
  cases fe with
  | ld64 => exact LD64OptTable.collectObjectFiles_eq fs ps [] (dangling_placed ps ▸ h rfl)
  | clang => exact congrArg Except.ok (collectFiltered_eq fs ps [])
  | libtool => exact congrArg Except.ok (collectFiltered_eq fs ps [])

theorem collectObjectLinkOpts_eq (fe : FrontEnd) (ps : List Placed)
    (h : fe.Scannable (ps.map Prod.fst)) :
    fe.collectObjectLinkOpts (ps.map Prod.fst) [] =
      .ok ((fe.takenOptions ps).flatMap fun p => p.1.render) := by
  cases fe with
  | ld64 => exact LD64OptTable.collectObjectLinkOpts_eq ps [] (dangling_placed ps ▸ h rfl)
  | clang => exact congrArg Except.ok (renderOthers_eq ps [])
  | libtool => exact congrArg Except.ok (renderOthers_eq ps [])

theorem collectObjectFiles_ok (fe : FrontEnd) (fs : FileSystem) {args : InputArgList}
    (h : fe.Scannable args) : ∃ objects, fe.collectObjectFiles fs args [] = .ok objects := by
  have hmap : args.zipIdx.map Prod.fst = args := List.zipIdx_map_fst 0 args
  have heq := fe.collectObjectFiles_eq fs args.zipIdx (hmap.symm ▸ h)
  rw [hmap] at heq
  exact ⟨_, heq⟩

theorem collectObjectLinkOpts_ok (fe : FrontEnd) {args : InputArgList}
    (h : fe.Scannable args) : ∃ options, fe.collectObjectLinkOpts args [] = .ok options := by
  have hmap : args.zipIdx.map Prod.fst = args := List.zipIdx_map_fst 0 args
  have heq := fe.collectObjectLinkOpts_eq args.zipIdx (hmap.symm ▸ h)
  rw [hmap] at heq
  exact ⟨_, heq⟩

end FrontEnd

end MullXCTest.LinkCommand
