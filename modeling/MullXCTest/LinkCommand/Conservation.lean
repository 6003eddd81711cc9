import MullXCTest.LinkCommand.Taken
import Mathlib.Data.List.Infix
import Mathlib.Data.List.Sigma
import Mathlib.Logic.Function.Basic

/-!
# The rebuilt link command conserves the original one

The two loops of a front end split the parsed arguments between them. Feeding
the rendered options and the written filelist back to the same front end gives
the same objects and the same options again.
-/

namespace MullXCTest.LinkCommand

open MarkerScan

/-- If every `-add_ast_path` is followed by another argument, the scan never dangles. -/
theorem dangling_eq_false {args : InputArgList}
    (h : ∀ k arg, args[k]? = some arg → arg.isOption .addAstPath = true →
      k + 1 < args.length) : dangling isAstPath args = false := by
  by_contra hd
  obtain ⟨last, hlast, hopt⟩ := getLast?_of_dangling (Bool.not_eq_false _ ▸ hd)
  rw [List.getLast?_eq_getElem?] at hlast
  have hlt := h _ _ hlast hopt
  omega

namespace LD64OptTable

/-- The arguments that neither loop takes. -/
def dropped (ps : List Placed) : List Placed :=
  ((withValue marksAstPath false ps).filter
    fun q => q.1.1.isOption .bitcodeBundle && !q.2).map Prod.fst

theorem dropped_astPath {p value : Placed} {it : List Placed} (h : marksAstPath p = true) :
    dropped (p :: value :: it) = dropped it := by
  simp [dropped, withValue_marker h,
    Arg.isOption_of_ne (show p.1.isOption .addAstPath = true from h)
      .bitcodeBundle (by decide)]

theorem dropped_cons {p : Placed} {it : List Placed} (h : marksAstPath p = false) :
    dropped (p :: it) =
      if p.1.isOption .bitcodeBundle then p :: dropped it else dropped it := by
  cases hb : p.1.isOption .bitcodeBundle <;> simp [dropped, withValue_cons h, hb]

/-- Every argument is an object, a rendered option or a dropped `-bitcode_bundle`, once. -/
theorem taken_perm (ps : List Placed) (h : dangling marksAstPath ps = false) :
    (takenObjects ps ++ (takenOptions ps ++ dropped ps)).Perm ps := by
  induction ps using scan_induction marksAstPath with
  | nil => simp [takenObjects, takenOptions, dropped]
  | single p hp => simp [dangling_single hp] at h
  | pair p value it hp ih =>
      rw [dangling_marker hp] at h
      rw [takenObjects_astPath hp, takenOptions_astPath hp, dropped_astPath hp]
      simp only [List.cons_append]
      calc
        (takenObjects it ++ p :: value :: (takenOptions it ++ dropped it)).Perm
            (p :: (takenObjects it ++ value :: (takenOptions it ++ dropped it))) :=
          List.perm_middle
        List.Perm _ (p :: value :: (takenObjects it ++ (takenOptions it ++ dropped it))) :=
          List.perm_middle.cons p
        List.Perm _ (p :: value :: it) := ((ih h).cons value).cons p
  | cons p it hp ih =>
      rw [dangling_cons hp] at h
      rw [takenObjects_cons hp, takenOptions_cons hp, dropped_cons hp]
      cases hb : p.1.isOption .bitcodeBundle
      · cases ho : p.1.isObject
        · simpa using List.perm_middle.trans ((ih h).cons p)
        · simpa using (ih h).cons p
      · have ho : p.1.isObject = false := by
          simp [Arg.isObject, Arg.isOption_of_ne hb .input (by decide),
            Arg.isOption_of_ne hb .filelist (by decide)]
        rw [← List.append_assoc] at ih
        simpa [ho] using List.perm_middle.trans ((ih h).cons p)

theorem takenOptions_sublist (ps : List Placed) : (takenOptions ps).Sublist ps := by
  induction ps using scan_induction marksAstPath with
  | nil => simp [takenOptions]
  | single p hp => simp [takenOptions, show p.1.isOption .addAstPath = true from hp]
  | pair p value it hp ih =>
      rw [takenOptions_astPath hp]
      exact (ih.cons_cons value).cons_cons p
  | cons p it hp ih =>
      rw [takenOptions_cons hp]
      split
      · exact ih.cons p
      · exact ih.cons_cons p

/-- The value of an `-add_ast_path` is rendered right behind it. -/
theorem astValue_infix {ps : List Placed} {p value : Placed}
    (h : [(p, false), (value, true)] <:+: withValue marksAstPath false ps) :
    [p, value] <:+: takenOptions ps := by
  induction ps using scan_induction marksAstPath with
  | nil => simp at h
  | single q hq => simp [withValue, List.infix_cons_iff] at h
  | pair q w it hq ih =>
      rw [takenOptions_astPath hq]
      simp only [withValue_marker hq, List.infix_cons_iff, List.cons_prefix_cons,
        Prod.mk.injEq] at h
      rcases h with ⟨⟨rfl, -⟩, ⟨rfl, -⟩, -⟩ | ⟨⟨-, hf⟩, -⟩ | h
      · exact ⟨[], takenOptions it, by simp⟩
      · cases hf
      · exact (ih h).trans ⟨[q, w], [], by simp⟩
  | cons q it hq ih =>
      have hrest : [p, value] <:+: takenOptions it := by
        simp only [withValue_cons hq, List.infix_cons_iff, List.cons_prefix_cons] at h
        rcases h with ⟨-, hpre⟩ | h
        · cases it <;> simp [withValue] at hpre
        · exact ih h
      rw [takenOptions_cons hq]
      split
      · exact hrest
      · exact hrest.trans ⟨[q], [], by simp⟩

/-- The scan of the rendered options with a filelist behind them renders the options again
and takes the filelist as the only object. -/
theorem taken_rendered (ps : List Placed) (f : Placed) (hf : f.1.isOption .filelist = true) :
    takenObjects (takenOptions ps ++ [f]) = [f] ∧
      takenOptions (takenOptions ps ++ [f]) = takenOptions ps ∧
      dangling marksAstPath (takenOptions ps ++ [f]) = false := by
  have hast : marksAstPath f = false :=
    Arg.isOption_of_ne hf .addAstPath (by decide)
  have hobj : f.1.isObject = true := by simp [Arg.isObject, hf]
  have hlast : takenObjects [f] = [f] ∧ takenOptions [f] = [] ∧
      dangling marksAstPath [f] = false := by
    rw [takenObjects_cons hast, takenOptions_cons hast, dangling_cons hast]
    simp [hobj, takenObjects, takenOptions]
  induction ps using scan_induction marksAstPath with
  | nil => simpa [takenOptions] using hlast
  | single p hp =>
      simpa [takenOptions, show p.1.isOption .addAstPath = true from hp] using hlast
  | pair p value it hp ih =>
      rw [takenOptions_astPath hp, List.cons_append, List.cons_append, takenObjects_astPath hp,
        takenOptions_astPath hp, dangling_marker hp, ih.2.1]
      exact ⟨ih.1, rfl, ih.2.2⟩
  | cons p it hp ih =>
      rw [takenOptions_cons hp]
      split
      · exact ih
      · rename_i hnot
        rw [List.cons_append, takenObjects_cons hp, takenOptions_cons hp, dangling_cons hp,
          if_neg hnot, if_neg (by simp_all), ih.2.1]
        exact ⟨ih.1, rfl, ih.2.2⟩

end LD64OptTable

section Filtered

theorem filtered_perm (ps : List Placed) :
    (filteredObjects ps ++ filteredOptions ps).Perm ps := by
  induction ps with
  | nil => simp [filteredObjects, filteredOptions]
  | cons p rest ih =>
      cases hin : p.1.isOption .input
      · cases hfl : p.1.isOption .filelist
        · simpa [filteredObjects, filteredOptions, hin, hfl] using
            List.perm_middle.trans (ih.cons p)
        · simpa [filteredObjects, filteredOptions, hin, hfl] using
            List.perm_middle.trans ((List.append_assoc .. ▸ ih).cons p)
      · have hfl := Arg.isOption_of_ne hin .filelist (by decide)
        simpa [filteredObjects, filteredOptions, hin, hfl] using ih.cons p

theorem filtered_rendered (ps : List Placed) (f : Placed)
    (hf : f.1.isOption .filelist = true) :
    filteredObjects (filteredOptions ps ++ [f]) = [f] ∧
      filteredOptions (filteredOptions ps ++ [f]) = filteredOptions ps := by
  have hin := Arg.isOption_of_ne hf .input (by decide)
  constructor
  · have hnone : ∀ p ∈ filteredOptions ps,
        p.1.isOption .input = false ∧ p.1.isOption .filelist = false := by
      intro p hp
      simpa [filteredOptions] using (List.mem_filter.mp hp).2
    have h₁ : (filteredOptions ps).filter (fun p => p.1.isOption .input) = [] := by
      simpa [List.filter_eq_nil_iff] using fun a b hp => (hnone (a, b) hp).1
    have h₂ : (filteredOptions ps).filter (fun p => p.1.isOption .filelist) = [] := by
      simpa [List.filter_eq_nil_iff] using fun a b hp => (hnone (a, b) hp).2
    simp [filteredObjects, h₁, h₂, hin, hf]
  · simp [filteredOptions, hf]

end Filtered

namespace FrontEnd

def dropped (fe : FrontEnd) : List Placed → List Placed :=
  match fe with
  | .ld64 => LD64OptTable.dropped
  | .clang | .libtool => fun _ => []

theorem linkArguments_eq (fe : FrontEnd) (ps : List Placed) (filelistPath : String)
    (h : fe.Scannable (ps.map Prod.fst)) :
    fe.linkArguments (ps.map Prod.fst) filelistPath =
      .ok (((fe.takenOptions ps).flatMap fun p => p.1.render) ++
        ["-filelist", filelistPath]) := by
  rw [linkArguments, collectObjectLinkOpts_eq fe ps h]
  rfl

theorem taken_perm (fe : FrontEnd) (ps : List Placed) (h : fe.Scannable (ps.map Prod.fst)) :
    (fe.takenObjects ps ++ (fe.takenOptions ps ++ fe.dropped ps)).Perm ps := by
  cases fe with
  | ld64 => exact LD64OptTable.taken_perm ps (dangling_placed ps ▸ h rfl)
  | clang => simpa [takenObjects, takenOptions, dropped] using filtered_perm ps
  | libtool => simpa [takenObjects, takenOptions, dropped] using filtered_perm ps

theorem takenOptions_sublist (fe : FrontEnd) (ps : List Placed) :
    (fe.takenOptions ps).Sublist ps := by
  cases fe with
  | ld64 => exact LD64OptTable.takenOptions_sublist ps
  | clang => exact List.filter_sublist
  | libtool => exact List.filter_sublist

theorem taken_rendered (fe : FrontEnd) (ps : List Placed) (f : Placed)
    (hf : f.1.isOption .filelist = true) :
    fe.takenObjects (fe.takenOptions ps ++ [f]) = [f] ∧
      fe.takenOptions (fe.takenOptions ps ++ [f]) = fe.takenOptions ps ∧
      fe.Scannable ((fe.takenOptions ps ++ [f]).map Prod.fst) := by
  cases fe with
  | ld64 =>
      obtain ⟨h₁, h₂, h₃⟩ := LD64OptTable.taken_rendered ps f hf
      exact ⟨h₁, h₂, fun _ => (dangling_placed _).trans h₃⟩
  | clang =>
      obtain ⟨h₁, h₂⟩ := filtered_rendered ps f hf
      exact ⟨h₁, h₂, by simp [Scannable]⟩
  | libtool =>
      obtain ⟨h₁, h₂⟩ := filtered_rendered ps f hf
      exact ⟨h₁, h₂, by simp [Scannable]⟩

end FrontEnd

theorem objectsOf_ofFilelist {fs : FileSystem} {path buffer : String}
    (h : fs path = some buffer) : objectsOf fs (Arg.ofFilelist path) = filelistLines buffer := by
  simp [objectsOf, Arg.ofFilelist, Arg.isOption, Arg.getValue, readFilelistFile, h]

/-- **The rebuilt command.** Every parsed argument is taken by exactly one of the two
collectors, apart from the dropped `-bitcode_bundle` of ld64; a value of `-add_ast_path` is
rendered right behind it and never an object; the rendered options keep their order. The
command with a filelist of the collected objects gives back the same objects and, rebuilt
once more, the same command up to the name of the filelist. -/
theorem rebuilt_command_conserves (fe : FrontEnd) (fs : FileSystem)
    (parse : List String → InputArgList) (args : InputArgList)
    (followed : fe = .ld64 → ∀ k arg, args[k]? = some arg →
      arg.isOption .addAstPath = true → k + 1 < args.length)
    (reparse : ∀ path,
      parse ((fe.takenOptions args.zipIdx).flatMap (fun p => p.1.render) ++
          ["-filelist", path]) =
        (fe.takenOptions args.zipIdx).map Prod.fst ++ [Arg.ofFilelist path])
    (listable : ∀ objects, fe.collectObjectFiles fs args [] = .ok objects →
      ∀ path ∈ objects, Listable path) :
    (fe.takenObjects args.zipIdx ++
        (fe.takenOptions args.zipIdx ++ fe.dropped args.zipIdx)).Perm args.zipIdx ∧
      (fe.takenOptions args.zipIdx).Sublist args.zipIdx ∧
      (fe = .ld64 → ∀ p value,
        [(p, false), (value, true)] <:+: withValue marksAstPath false args.zipIdx →
          value ∉ fe.takenObjects args.zipIdx ∧
            [p, value] <:+: fe.takenOptions args.zipIdx) ∧
      ∃ objects,
        fe.collectObjectFiles fs args [] = .ok objects ∧
        objects = (fe.takenObjects args.zipIdx).flatMap (fun p => objectsOf fs p.1) ∧
        fe.collectObjectLinkOpts args [] =
          .ok ((fe.takenOptions args.zipIdx).flatMap fun p => p.1.render) ∧
        ∀ path, ∃ command,
          fe.linkArguments args path = .ok command ∧
          fe.collectObjectFiles (Function.update fs path (some (filelistText objects)))
            (parse command) [] = .ok objects ∧
          ∀ path', fe.linkArguments (parse command) path' = fe.linkArguments args path' := by
  have hmap : args.zipIdx.map Prod.fst = args := List.zipIdx_map_fst 0 args
  have hscan : fe.Scannable (args.zipIdx.map Prod.fst) := fun hfe =>
    hmap.symm ▸ dangling_eq_false (followed hfe)
  have hobjects := fe.collectObjectFiles_eq fs args.zipIdx hscan
  have hoptions := fe.collectObjectLinkOpts_eq args.zipIdx hscan
  have hlink := fun path => fe.linkArguments_eq args.zipIdx path hscan
  have hperm := fe.taken_perm args.zipIdx hscan
  rw [hmap] at hobjects hoptions
  simp only [hmap] at hlink
  refine ⟨hperm, fe.takenOptions_sublist args.zipIdx, ?_, _, hobjects, rfl, hoptions, ?_⟩
  · rintro rfl p value hvalue
    have hinfix := LD64OptTable.astValue_infix hvalue
    refine ⟨?_, hinfix⟩
    intro hmem
    have hnodup : args.zipIdx.Nodup := (List.nodup_zipIdx_map_snd args).of_map
    have hdisjoint := (List.nodup_append.mp (hperm.nodup_iff.mpr hnodup)).2.2
    have htaken : value ∈ LD64OptTable.takenOptions args.zipIdx := hinfix.subset (by simp)
    exact hdisjoint value hmem value (List.mem_append_left _ htaken) rfl
  · intro path
    obtain ⟨h₁, h₂, h₃⟩ := fe.taken_rendered args.zipIdx (Arg.ofFilelist path, 0) rfl
    refine ⟨_, hlink path, ?_, ?_⟩
    · have hc := fe.collectObjectFiles_eq
        (Function.update fs path (some (filelistText
          ((fe.takenObjects args.zipIdx).flatMap fun p => objectsOf fs p.1)))) _ h₃
      rw [List.map_append, List.map_singleton, h₁] at hc
      rw [reparse, hc, List.flatMap_singleton, objectsOf_ofFilelist (Function.update_self ..),
        filelistLines_filelistText _ (listable _ hobjects)]
    · intro path'
      have hl := fe.linkArguments_eq _ path' h₃
      rw [List.map_append, List.map_singleton, h₂] at hl
      rw [reparse, hl, hlink]

section Example

def exampleArgs : InputArgList :=
  parseFlat ["-add_ast_path", "m.swiftmodule", "a.o", "-filelist", "objects", "-bitcode_bundle",
    "-dylib"]

def exampleFs : FileSystem := fun path => if path = "objects" then some "b.o\nc.o\n" else none

theorem rebuilt_command_conserves_example :
    ∃ objects, FrontEnd.ld64.collectObjectFiles exampleFs exampleArgs [] = .ok objects ∧
      ∀ path, ∃ command, FrontEnd.ld64.linkArguments exampleArgs path = .ok command ∧
        FrontEnd.ld64.collectObjectFiles
          (Function.update exampleFs path (some (filelistText objects)))
          (parseFlat command) [] = .ok objects := by
  obtain ⟨-, -, -, objects, hobjects, -, -, hcommand⟩ :=
    rebuilt_command_conserves .ld64 exampleFs parseFlat exampleArgs
      (fun _ k arg hk hopt => by
        have hlt : k < exampleArgs.length := (List.getElem?_eq_some_iff.mp hk).1
        have hlast : k ≠ 5 := by
          rintro rfl
          have harg : arg = parseWord "-dylib" := (Option.some.inj hk).symm
          rw [harg] at hopt
          exact absurd hopt (by decide)
        have hlen : exampleArgs.length = 6 := rfl
        omega)
      (fun path => rfl)
      (fun objects hobjects path hpath => by
        have ho : objects = ["a.o", "b.o", "c.o"] := by
          have hc : FrontEnd.ld64.collectObjectFiles exampleFs exampleArgs [] =
            .ok ["a.o", "b.o", "c.o"] := by decide
          simpa [hc] using hobjects.symm
        subst ho
        simp only [List.mem_cons, List.not_mem_nil, or_false] at hpath
        rcases hpath with rfl | rfl | rfl <;> exact ⟨by decide, by decide, by decide⟩)
  exact ⟨objects, hobjects, fun path => by
    obtain ⟨command, hlink, hfiles, -⟩ := hcommand path
    exact ⟨command, hlink, hfiles⟩⟩

end Example

end MullXCTest.LinkCommand
