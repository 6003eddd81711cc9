import MullXCTest.Library.PathWalk

/-!
# Paths and strings of LLVM

`filename`, `remove_filename` and `replace_extension` of `llvm::sys::path` and
`llvm::StringRef::rsplit`, as far as they are called.
-/

namespace MullXCTest.LLVM

/-- The last component of a path without a root name. A trailing separator counts as `.`
behind it, unless it is the root directory. -/
def lastComponent (path : List Char) : List Char :=
  if path.getLast? = some '/' then
    if path.all (· = '/') then ['/'] else ['.']
  else path.rtakeWhile (· ≠ '/')

/-- `llvm::sys::path::filename`. Two separators before another character begin a root name. -/
def filename (path : String) : String :=
  match path.toList with
  | '/' :: '/' :: c :: rest =>
      if c = '/' then String.ofList (lastComponent ('/' :: '/' :: c :: rest))
      else
        match rest.dropWhile (· ≠ '/') with
        | [] => path
        | rest => String.ofList (lastComponent rest)
  | path => String.ofList (lastComponent path)

/-- `rsplit(".").first`: what stands before the last dot. -/
def rsplitDotFirst (name : String) : String :=
  if '.' ∈ name.toList then String.ofList (name.toList.rdropWhile (· ≠ '.')).dropLast else name

/-- What stands before the last component, without the separators at its end. -/
def parentPath (path : List Char) : List Char :=
  (path.rdropWhile (· ≠ '/')).rdropWhile (· = '/')

/-- `llvm::sys::path::remove_filename` of a path without a root name, whose last component is
a name. The root directory is kept. -/
def removeFilename (path : String) : String :=
  if '/' ∈ path.toList then
    if parentPath path.toList = [] then "/" else String.ofList (parentPath path.toList)
  else ""

/-- `StringRef::find_last_of` for one character. -/
def findLastOf (c : Char) (text : List Char) : Option Nat :=
  if c ∈ text then some ((text.rdropWhile (· ≠ c)).length - 1) else none

/-- `filename_pos`: where the last component begins. -/
def filenamePos (path : List Char) : Nat :=
  if path.getLast? = some '/' then path.length - 1
  else
    match findLastOf '/' path with
    | none => 0
    | some pos => if pos = 1 ∧ path.head? = some '/' then 0 else pos + 1

/-- The first part of `replace_extension`, which erases an extension that is there. -/
def eraseExtension (path : List Char) : List Char :=
  match findLastOf '.' path with
  | none => path
  | some pos => if filenamePos path ≤ pos then path.take pos else path

/-- `llvm::sys::path::replace_extension`. -/
def replaceExtension (path extension : List Char) : List Char :=
  if extension ≠ [] ∧ extension.head? ≠ some '.' then eraseExtension path ++ '.' :: extension
  else eraseExtension path ++ extension

/-- A cut at the last occurrence of a character. -/
theorem rdropWhile_ne_append (c : Char) (front : List Char) {back : List Char} (h : c ∉ back) :
    (front ++ c :: back).rdropWhile (· ≠ c) = front ++ [c] := by
  induction back using List.reverseRecOn with
  | nil => exact List.rdropWhile_concat_neg _ _ _ (by simp)
  | append_singleton back d ih =>
      have hd : d ≠ c := by
        rintro rfl
        exact h (by simp)
      rw [← List.cons_append, ← List.append_assoc,
        List.rdropWhile_concat_pos _ _ _ (by simpa using hd)]
      exact ih fun hmem => h (List.mem_append_left _ hmem)

theorem parentPath_append (dir : List Char) {name : List Char} (h : '/' ∉ name) :
    parentPath (dir ++ '/' :: name) = dir.rdropWhile (· = '/') := by
  rw [parentPath, rdropWhile_ne_append '/' dir h]
  exact List.rdropWhile_concat_pos _ _ _ (by simp)

/-- The extension is what stands behind the last dot. -/
theorem rsplitDotFirst_append (name : String) {ext : String} (h : '.' ∉ ext.toList) :
    rsplitDotFirst (name ++ "." ++ ext) = name := by
  have htext : (name ++ "." ++ ext).toList = name.toList ++ '.' :: ext.toList := by simp
  rw [rsplitDotFirst, htext, if_pos (by simp), rdropWhile_ne_append '.' _ h,
    List.dropLast_concat, String.ofList_toList]

theorem findLastOf_append (c : Char) (front : List Char) {back : List Char} (h : c ∉ back) :
    findLastOf c (front ++ c :: back) = some front.length := by
  rw [findLastOf, if_pos (by simp), rdropWhile_ne_append c front h]
  simp

/-- The position behind the last separator, or the begin of the path if that is a root name. -/
theorem filenamePos_append (dir : List Char) {name : List Char} (hne : name ≠ [])
    (h : '/' ∉ name) :
    filenamePos (dir ++ '/' :: name) =
      if dir.length = 1 ∧ (dir ++ '/' :: name).head? = some '/' then 0 else dir.length + 1 := by
  have hlast : (dir ++ '/' :: name).getLast? ≠ some '/' := by
    rw [← List.singleton_append, ← List.append_assoc, List.getLast?_append_of_ne_nil _ hne]
    exact fun hmem => h (List.mem_of_getLast? hmem)
  rw [filenamePos, if_neg hlast, findLastOf_append _ _ h]

/-- What a name is called without its extension. -/
def stem (name : List Char) : List Char :=
  if '.' ∈ name then (name.rdropWhile (· ≠ '.')).dropLast else name

theorem mem_of_mem_stem {c : Char} {name : List Char} (h : c ∈ stem name) : c ∈ name := by
  unfold stem at h
  split_ifs at h
  · apply (List.rdropWhile_prefix _ name).sublist.mem
    exact (List.dropLast_sublist _).mem h
  · exact h

/-- A dot before the last component begins no extension. -/
theorem eraseExtension_of_notMem (dir : List Char) {name : List Char} (h : '/' ∉ name)
    (hdot : '.' ∉ name) : eraseExtension (dir ++ '/' :: name) = dir ++ '/' :: name := by
  by_cases hdir : '.' ∈ dir
  · obtain ⟨front, back, rfl, hback⟩ := PathWalk.exists_last_cut hdir
    have hrest : '.' ∉ back ++ '/' :: name := by simp [hback, hdot]
    have hbefore : front.length < filenamePos (front ++ '.' :: back ++ '/' :: name) := by
      cases name with
      | nil =>
          rw [filenamePos, if_pos List.getLast?_concat]
          simp
      | cons c name =>
          rw [filenamePos_append _ (List.cons_ne_nil c name) h]
          split_ifs with hroot
          · cases front <;> simp_all
          · rw [List.length_append]
            omega
    rw [eraseExtension, List.append_assoc, List.cons_append, findLastOf_append '.' front hrest]
    rw [List.append_assoc, List.cons_append] at hbefore
    simp only [if_neg (Nat.not_le.mpr hbefore)]
  · have hpath : '.' ∉ dir ++ '/' :: name := by simp [hdir, hdot]
    rw [eraseExtension, findLastOf, if_neg hpath]

/-- The extension of the last component is erased, and the rest of the path stays. -/
theorem eraseExtension_append (dir : List Char) {name : List Char} (h : '/' ∉ name) :
    eraseExtension (dir ++ '/' :: name) = dir ++ '/' :: stem name := by
  by_cases hdot : '.' ∈ name
  · obtain ⟨front, back, rfl, hback⟩ := PathWalk.exists_last_cut hdot
    have hstem : stem (front ++ '.' :: back) = front := by
      rw [stem, if_pos hdot, rdropWhile_ne_append '.' front hback, List.dropLast_concat]
    have hpath : dir ++ '/' :: (front ++ '.' :: back) =
        (dir ++ '/' :: front) ++ '.' :: back := by simp
    have hbegin : filenamePos ((dir ++ '/' :: front) ++ '.' :: back) ≤
        (dir ++ '/' :: front).length := by
      rw [← hpath, filenamePos_append dir (by simp) h]
      split_ifs <;> simp
    rw [hstem, hpath, eraseExtension, findLastOf_append '.' _ hback]
    simp only [if_pos hbegin, List.take_left]
  · rw [stem, if_neg hdot, eraseExtension_of_notMem dir h hdot]

theorem replaceExtension_append (dir : List Char) {name : List Char} (h : '/' ∉ name)
    {extension : List Char} (hne : extension ≠ []) (hdot : extension.head? ≠ some '.') :
    replaceExtension (dir ++ '/' :: name) extension =
      dir ++ '/' :: (stem name ++ '.' :: extension) := by
  rw [replaceExtension, if_pos ⟨hne, hdot⟩, eraseExtension_append dir h]
  simp

section LastComponent

variable {dir last : List Char}

theorem getLast?_append_component (hne : last ≠ []) (h : '/' ∉ last) :
    (dir ++ last).getLast? ≠ some '/' := by
  rw [List.getLast?_append_of_ne_nil _ hne]
  intro hlast
  exact h (List.mem_of_getLast? hlast)

theorem rtakeWhile_component (h : '/' ∉ last) :
    (dir ++ last).rtakeWhile (· ≠ '/') = dir.rtakeWhile (· ≠ '/') ++ last := by
  induction last using List.reverseRecOn with
  | nil => simp
  | append_singleton last c ih =>
      have hc : c ≠ '/' := by
        rintro rfl
        exact h (by simp)
      rw [← List.append_assoc, List.rtakeWhile_concat_pos _ _ _ (by simpa using hc),
        ih fun hmem => h (List.mem_append_left _ hmem), List.append_assoc]

/-- Behind a separator, or without one, the last component is a name. -/
theorem lastComponent_append (hdir : dir = [] ∨ dir.getLast? = some '/') (hne : last ≠ [])
    (h : '/' ∉ last) : lastComponent (dir ++ last) = last := by
  rw [lastComponent, if_neg (getLast?_append_component hne h), rtakeWhile_component h]
  rcases hdir with rfl | hdir
  · rfl
  · obtain ⟨outer, rfl⟩ := List.getLast?_eq_some_iff.mp hdir
    rw [List.rtakeWhile_concat_neg _ _ _ (by simp)]
    rfl

/-- What is left of a directory from its first separator on ends as the directory does. -/
theorem getLast?_dropWhile (hdir : dir.getLast? = some '/') :
    (dir.dropWhile (· ≠ '/')).getLast? = some '/' := by
  obtain ⟨outer, rfl⟩ := List.getLast?_eq_some_iff.mp hdir
  rw [List.dropWhile_append]
  split_ifs <;> simp

/-- Behind a root name the last component is taken from the rest. -/
theorem filename_rootName {path : String} {c : Char} {rest : List Char}
    (hpath : path.toList = '/' :: '/' :: c :: rest) (hc : c ≠ '/') :
    filename path = if rest.dropWhile (· ≠ '/') = [] then path
      else String.ofList (lastComponent (rest.dropWhile (· ≠ '/'))) := by
  rw [filename, hpath]
  simp only [if_neg hc]
  by_cases hrest : rest.dropWhile (· ≠ '/') = []
  · rw [if_pos hrest, hrest]
  · obtain ⟨d, left, hleft⟩ := List.exists_cons_of_ne_nil hrest
    rw [if_neg hrest, hleft]

/-- Any other path has no root name. -/
theorem filename_plain {path : String}
    (hpath : ∀ c rest, path.toList = '/' :: '/' :: c :: rest → c = '/') :
    filename path = String.ofList (lastComponent path.toList) := by
  unfold filename
  split
  · rename_i c rest hroot
    rw [if_pos (hpath c rest hroot), hroot]
  · rfl

/-- The last component of a path is a name, or the path is a root name with nothing behind. -/
theorem filename_append {path : String} (hpath : path.toList = dir ++ last)
    (hdir : dir = [] ∨ dir.getLast? = some '/') (hne : last ≠ []) (h : '/' ∉ last) :
    filename path = String.ofList last ∨ dir = ['/', '/'] ∧ filename path = path := by
  by_cases hplain : ∀ c rest, path.toList = '/' :: '/' :: c :: rest → c = '/'
  · rw [filename_plain hplain, hpath, lastComponent_append hdir hne h]
    exact .inl rfl
  · simp only [not_forall] at hplain
    obtain ⟨c, rest, hroot, hc⟩ := hplain
    rw [filename_rootName hroot hc]
    rw [hpath] at hroot
    match dir, hdir with
    | [], _ => simp_all
    | [_], _ => simp_all
    | [a, b], _ =>
        obtain ⟨rfl, rfl, rfl⟩ : a = '/' ∧ b = '/' ∧ last = c :: rest := by simpa using hroot
        have hrest : rest.dropWhile (· ≠ '/') = [] := by
          rw [List.dropWhile_eq_nil_iff]
          intro d hd
          have hd' : d ≠ '/' := by
            rintro rfl
            exact h (List.mem_cons_of_mem _ hd)
          simpa using hd'
        rw [if_pos hrest]
        exact .inr ⟨rfl, rfl⟩
    | a :: b :: d :: inner, hdir =>
        obtain ⟨rfl, rfl, rfl, rfl⟩ : a = '/' ∧ b = '/' ∧ d = c ∧ inner ++ last = rest := by
          simpa using hroot
        have hinner : inner.getLast? = some '/' := by
          have hlast := hdir.resolve_left (by simp)
          cases inner with
          | nil => exact absurd (by simpa using hlast) hc
          | cons e inner => simpa using hlast
        have hleft := getLast?_dropWhile hinner
        have hsplit : (inner ++ last).dropWhile (· ≠ '/') =
            inner.dropWhile (· ≠ '/') ++ last := by
          rw [List.dropWhile_append, if_neg]
          intro hempty
          rw [List.isEmpty_iff.mp hempty] at hleft
          cases hleft
        rw [hsplit, if_neg (by simp [hne]), lastComponent_append (.inr hleft) hne h]
        exact .inl rfl

/-- Behind a separator there is no name. -/
theorem filename_of_separator {path : String} (h : path.toList.getLast? = some '/') :
    filename path = "." ∨ filename path = "/" := by
  have hlast : ∀ text : List Char, text.getLast? = some '/' →
      String.ofList (lastComponent text) = "." ∨ String.ofList (lastComponent text) = "/" := by
    intro text htext
    rw [lastComponent, if_pos htext]
    split_ifs
    · exact .inr rfl
    · exact .inl rfl
  by_cases hplain : ∀ c rest, path.toList = '/' :: '/' :: c :: rest → c = '/'
  · rw [filename_plain hplain]
    exact hlast _ h
  · simp only [not_forall] at hplain
    obtain ⟨c, rest, hroot, hc⟩ := hplain
    have hrest : rest.getLast? = some '/' := by
      rw [hroot] at h
      cases rest with
      | nil => exact absurd (by simpa using h) hc
      | cons d rest => simpa using h
    have hleft := getLast?_dropWhile hrest
    have hne : rest.dropWhile (· ≠ '/') ≠ [] := by
      intro hnil
      rw [hnil] at hleft
      cases hleft
    rw [filename_rootName hroot hc, if_neg hne]
    exact hlast _ hleft

theorem separator_notMem_lastComponent (text : List Char) :
    '/' ∉ (lastComponent text).dropWhile (· = '/') := by
  unfold lastComponent
  split_ifs
  · simp
  · simp
  · intro hmem
    have hname := List.mem_rtakeWhile_imp ((List.dropWhile_sublist _).mem hmem)
    simp at hname

/-- Apart from separators at its begin, a file name has no separator. -/
theorem separator_notMem_filename (path : String) :
    '/' ∉ (filename path).toList.dropWhile (· = '/') := by
  by_cases hplain : ∀ c rest, path.toList = '/' :: '/' :: c :: rest → c = '/'
  · rw [filename_plain hplain, String.toList_ofList]
    exact separator_notMem_lastComponent _
  · simp only [not_forall] at hplain
    obtain ⟨c, rest, hroot, hc⟩ := hplain
    rw [filename_rootName hroot hc]
    split_ifs with hrest
    · rw [List.dropWhile_eq_nil_iff] at hrest
      have hnone : '/' ∉ rest := fun hmem => by simpa using hrest '/' hmem
      simp [hroot, hc, Ne.symm hc, hnone]
    · rw [String.toList_ofList]
      exact separator_notMem_lastComponent _

end LastComponent

example : filename "/Build/App.app" = "App.app" ∧ filename "/Build/App.app/" = "." := by decide

end MullXCTest.LLVM
