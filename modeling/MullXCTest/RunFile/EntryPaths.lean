import MullXCTest.RunFile.SpecialCharacters
import MullXCTest.RunFile.XCTestRunFile

/-!
# Which entries the commands name

A command names the intended entries exactly if the names in it are free of
whitespace, quotes and backslashes: `escapeColon` takes care of the colons only. The
key path for plutil is not escaped at all, so that it needs a target without dots.
-/

namespace MullXCTest.RunFile

open Words XCTestRunFile

theorem toList_escapeColon (name : String) : (escapeColon name).toList = escaped name.toList :=
  escapeColon_toList name

theorem characters_plain (l : List Char) : characters (l.map .plain) = l := by
  induction l with
  | nil => rfl
  | cons c l ih => simp [characters, ih]

/-- The verb of a command is read as it is. -/
theorem entryPaths_verb {verb : String} {l : List Char} {command : String}
    (hne : verb.toList ≠ []) (hverb : Plain verb) (h : command.toList = verb.toList ++ ' ' :: l) :
    entryPaths command = ((arguments (Scan.start.scan l)).take (entryCount verb)).map keyPath := by
  obtain ⟨hscan, hstate⟩ := Scan.scan_constant hverb
  have hsymbols : Scan.start.scan command.toList =
      verb.toList.map .plain ++ .separator :: Scan.start.scan l := by
    rw [h, Scan.scan_append, hscan, hstate]
    rfl
  rw [entryPaths, hsymbols, arguments, words_append (by simpa using hne) (by simp) (by rfl)]
  simp only [characters_plain, String.ofList_toList]
  rfl

section Names

variable {name : List Char}

theorem plain_notMem_symbols : Symbol.plain ':' ∉ name.map symbol := by
  simp only [List.mem_map, not_exists, not_and]
  intro c _ h
  unfold symbol at h
  split_ifs at h with hc
  simp_all

theorem separator_notMem_symbols (h : ∀ c ∈ name, special c = false) :
    ∀ s ∈ name.map symbol, isSeparator s = false := by
  simp only [List.mem_map]
  rintro s ⟨c, hc, rfl⟩
  have hws := (Scan.special_eq_false_iff.mp (h c hc)).1
  simp only [symbol, hws, Bool.false_eq_true, if_false]
  split_ifs <;> rfl

theorem characters_symbols (h : ∀ c ∈ name, special c = false) :
    characters (name.map symbol) = name := by
  induction name with
  | nil => rfl
  | cons c name ih =>
      obtain ⟨hc, hname⟩ := List.forall_mem_cons.mp h
      have hws := (Scan.special_eq_false_iff.mp hc).1
      rw [List.map_cons, ← List.singleton_append, characters_append, ih hname]
      by_cases hcolon : c = ':'
      · simp [symbol, characters, hcolon]
      · simp [symbol, characters, hcolon, hws]

end Names

theorem count_escaped {x : Char} (hx : x ≠ '\\') (name : List Char) :
    (escaped name).count x = name.count x := by
  induction name with
  | nil => rfl
  | cons c name ih =>
      have hc : (if c = ':' then ['\\', ':'] else [c]).count x = [c].count x := by
        by_cases hcolon : c = ':'
        · simp [hcolon, List.count_cons, Ne.symm hx]
        · rw [if_neg hcolon]
      calc
        (escaped (c :: name)).count x =
            (if c = ':' then ['\\', ':'] else [c]).count x + (escaped name).count x :=
          List.count_append
        _ = [c].count x + name.count x := by rw [hc, ih]
        _ = (c :: name).count x := List.count_append.symm

theorem characters_separators {gap : List Symbol}
    (h : ∀ s ∈ gap, isSeparator s = true) : characters gap = [] := by
  induction gap with
  | nil => rfl
  | cons s gap ih =>
      obtain ⟨hs, htail⟩ := List.forall_mem_cons.mp h
      cases s with
      | separator => exact ih htail
      | plain c => cases hs
      | literal c => cases hs

/-- Up to the separator that ends an argument, only the splitting colons end a key. -/
theorem takeWhile_kept {a tail : List Symbol} (ha : ∀ s ∈ a, isSeparator s = false)
    (htail : ∀ s ∈ tail.head?, isSeparator s = true) :
    (a ++ tail).takeWhile kept = a.takeWhile (· ≠ .plain ':') := by
  induction a with
  | nil =>
      cases tail with
      | nil => rfl
      | cons s tail =>
          have hs : s = .separator := by simpa using htail s (by simp)
          simp [hs, kept]
  | cons s a ih =>
      obtain ⟨hs, ha⟩ := List.forall_mem_cons.mp ha
      by_cases hcolon : s = .plain ':'
      · simp [hcolon, kept]
      · have hkept : kept s = true := by simpa [kept, hcolon] using hs
        simp [hkept, hcolon, ih ha]

/-- A name that is read as the first key of the first entry has no special characters, unless
the text behind it is read into the same key. -/
theorem plain_of_first_key {name : String} {a : List Symbol} {more : List (List Symbol)}
    {keys : KeyPath} (rest : List Symbol) (x : Char)
    (hargs : arguments (Scan.start.scan (escaped name.toList) ++ rest) = a :: more)
    (hkey : keyPath a = name :: keys) (hx : special x = false) (hslash : x ≠ '\\')
    (hhead : ∀ s ∈ rest.head?, s ≠ .separator)
    (hrest : rest.takeWhile kept = [] ∨ x ∈ characters (rest.takeWhile kept)) : Plain name := by
  by_contra hplain
  obtain ⟨gap, tail, hsplit, hgap, -, ha, htail, -⟩ := words_eq_cons hargs
  obtain ⟨l, hl, hatail⟩ : ∃ l, Scan.start.scan (escaped name.toList) = gap ++ l ∧
      a ++ tail = l ++ rest := by
    rcases List.append_eq_append_iff.mp hsplit with ⟨l, hl, hr⟩ | ⟨l, hl, hr⟩
    · cases l with
      | nil => exact ⟨[], by simpa using hl.symm, by simpa using hr.symm⟩
      | cons s l =>
          refine absurd ?_ (hhead s (by simp [hr]))
          simpa using hgap s (by simp [hl])
    · exact ⟨l, hl, hr⟩
  have hlt : l.countP kept < name.toList.length := by
    have hkept := Scan.countP_kept_lt hplain
    rw [hl, List.countP_append] at hkept
    omega
  have hcount : (characters l).count x = name.toList.count x := by
    have hscan := Scan.count_characters_scan hx Scan.start (escaped name.toList)
    rwa [hl, characters_append, characters_separators hgap, List.nil_append,
      count_escaped hslash] at hscan
  apply characters_takeWhile_ne hlt hcount hrest
  rw [← hatail, takeWhile_kept ha htail]
  exact (keyPath_eq_cons hkey).1.symm

/-- A name before a colon and a character that is not special. -/
theorem plain_of_first_key_colon {name : String} {a : List Symbol} {more : List (List Symbol)}
    {keys : KeyPath} {x : Char} {l : List Char}
    (hargs : arguments (Scan.start.scan (escaped name.toList ++ ':' :: x :: l)) = a :: more)
    (hkey : keyPath a = name :: keys) (hx : special x = false) (hcolon : x ≠ ':') :
    Plain name := by
  rw [Scan.scan_append] at hargs
  have hslash := (Scan.special_eq_false_iff.mp hx).2.2
  exact plain_of_first_key _ x hargs hkey hx hslash (Scan.head_colon _ _)
    (Scan.takeWhile_boundary _ (Or.inl rfl) hx hcolon l)

/-- A target that is read as it is, and a constant part of a path behind it. -/
theorem scan_target {target : String} {constant : List Char} (hplain : Plain target)
    (hconstant : ∀ c ∈ constant, special c = false) (rest : List Char) :
    Scan.start.scan (escaped target.toList ++ ':' :: (constant ++ rest)) =
      target.toList.map symbol ++ .plain ':' :: (constant.map .plain ++ Scan.start.scan rest) := by
  obtain ⟨hscan, hstate⟩ := Scan.scan_name hplain
  obtain ⟨hscan', hstate'⟩ := Scan.scan_constant hconstant
  rw [Scan.scan_append, hscan, hstate, ← hscan']
  refine congrArg _ ?_
  change .plain ':' :: Scan.start.scan (constant ++ rest) = _
  rw [Scan.scan_append, hstate']

theorem separator_notMem_entry {target : String} {l : List Symbol} (hplain : Plain target)
    (hl : ∀ s ∈ l, isSeparator s = false) :
    ∀ s ∈ target.toList.map symbol ++ .plain ':' :: l, isSeparator s = false := by
  intro s hs
  rw [List.mem_append, List.mem_cons] at hs
  rcases hs with hs | rfl | hs
  · exact separator_notMem_symbols hplain s hs
  · rfl
  · exact hl s hs

section Commands

variable {src new target key name : String}

/-- A command with one entry. -/
theorem entryPaths_single {verb : String} {l : List Char} {command : String} {path : KeyPath}
    (hne : verb.toList ≠ []) (hverb : Plain verb) (hcount : entryCount verb = 1)
    (h : command.toList = verb.toList ++ ' ' :: l) :
    entryPaths command = [path] ↔
      ∃ a more, arguments (Scan.start.scan l) = a :: more ∧ keyPath a = path := by
  rw [entryPaths_verb hne hverb h, hcount]
  cases arguments (Scan.start.scan l) with
  | nil => simp
  | cons a more => simp

theorem deleteTestTarget_iff (htarget : target ≠ "") :
    entryPaths (deleteTestTargetCommand target) = [[target]] ↔ Plain target := by
  have hcommand : (deleteTestTargetCommand target).toList =
      "Delete".toList ++ ' ' :: escaped target.toList := by
    rw [deleteTestTargetCommand, String.toList_append, toList_escapeColon]
    rfl
  rw [entryPaths_single (by decide) (by decide) (by decide) hcommand]
  constructor
  · rintro ⟨a, more, hargs, hkey⟩
    exact plain_of_first_key [] 'x' (by simpa using hargs) hkey (by decide) (by decide) (by simp)
      (Or.inl rfl)
  · intro hplain
    have hne : target.toList.map symbol ≠ [] := by simpa using htarget
    refine ⟨target.toList.map symbol, [], ?_, ?_⟩
    · rw [(Scan.scan_name hplain).1]
      exact words_single hne (separator_notMem_symbols hplain)
    · rw [keyPath_single plain_notMem_symbols, characters_symbols hplain, String.ofList_toList]

theorem setBlueprintName_iff :
    entryPaths (setBlueprintNameCommand target name) = [[target, "BlueprintName"]] ↔
      Plain target := by
  have hcommand : (setBlueprintNameCommand target name).toList = "Set".toList ++ ' ' ::
      (escaped target.toList ++ ':' :: ("BlueprintName".toList ++ ' ' :: name.toList)) := by
    simp only [setBlueprintNameCommand, String.toList_append, toList_escapeColon]
    rw [List.append_assoc, List.append_assoc]
    rfl
  rw [entryPaths_single (by decide) (by decide) (by decide) hcommand]
  constructor
  · rintro ⟨a, more, hargs, hkey⟩
    exact plain_of_first_key_colon (x := 'B') hargs hkey (by decide) (by decide)
  · intro hplain
    let a : List Symbol :=
      target.toList.map symbol ++ .plain ':' :: "BlueprintName".toList.map .plain
    refine ⟨a, arguments (Scan.start.scan name.toList), ?_, ?_⟩
    · rw [scan_target hplain (by decide), ← List.cons_append, ← List.append_assoc]
      exact words_append (by simp) (separator_notMem_entry hplain (by simp)) rfl _
    · rw [keyPath_append plain_notMem_symbols, characters_symbols hplain,
        keyPath_single (by decide), characters_plain]
      simp

theorem toList_addEnvironmentVariableCommand :
    (addEnvironmentVariableCommand target key name).toList = "Add".toList ++ ' ' ::
      (escaped target.toList ++ ':' :: ("TestingEnvironmentVariables:".toList ++
        (escaped key.toList ++ ' ' :: 's' :: "tring 1".toList))) := by
  simp only [addEnvironmentVariableCommand, String.toList_append, toList_escapeColon]
  simp only [List.append_assoc]
  rfl

/-- The first argument of `addEnvironmentVariable` behind a target that is read as it is. -/
theorem addEnvironmentVariable_entry (hplain : Plain target) (l : List Char) :
    ∃ a more, arguments (Scan.start.scan (escaped target.toList ++
        ':' :: ("TestingEnvironmentVariables:".toList ++ l))) = a :: more ∧
      keyPath a = target :: "TestingEnvironmentVariables" ::
        keyPath ((Scan.start.scan l).takeWhile fun s => !isSeparator s) := by
  let middle : List Symbol := "TestingEnvironmentVariables".toList.map .plain
  let entry : List Symbol := target.toList.map symbol ++ .plain ':' :: (middle ++ [.plain ':'])
  have hsymbols : Scan.start.scan (escaped target.toList ++
      ':' :: ("TestingEnvironmentVariables:".toList ++ l)) = entry ++ Scan.start.scan l := by
    rw [scan_target hplain (by decide), List.append_assoc]
    rfl
  have hentry : ∀ s ∈ entry, isSeparator s = false :=
    separator_notMem_entry hplain (by simp [middle])
  obtain ⟨s, tail, htail⟩ : ∃ s tail, entry = s :: tail :=
    List.exists_cons_of_ne_nil (by simp [entry])
  have hargs : arguments (s :: (tail ++ Scan.start.scan l)) = _ :=
    words_cons (hentry s (by simp [htail])) _
  rw [← List.cons_append, ← htail] at hargs
  refine ⟨_, _, (congrArg arguments hsymbols).trans hargs, ?_⟩
  rw [List.takeWhile_append_of_pos (by simpa using hentry)]
  calc
    keyPath (entry ++ (Scan.start.scan l).takeWhile fun s => !isSeparator s) =
        keyPath (target.toList.map symbol ++ .plain ':' :: (middle ++
          .plain ':' :: (Scan.start.scan l).takeWhile fun s => !isSeparator s)) := by
      simp only [entry, List.append_assoc, List.cons_append, List.nil_append]
    _ = target :: keyPath (middle ++
          .plain ':' :: (Scan.start.scan l).takeWhile fun s => !isSeparator s) := by
      rw [keyPath_append plain_notMem_symbols, characters_symbols hplain, String.ofList_toList]
    _ = target :: "TestingEnvironmentVariables" ::
          keyPath ((Scan.start.scan l).takeWhile fun s => !isSeparator s) := by
      rw [keyPath_append (by decide), characters_plain, String.ofList_toList]

theorem takeWhile_separator_colon (l : List Symbol) :
    (l.takeWhile fun s => !isSeparator s).takeWhile (· ≠ .plain ':') =
      l.takeWhile kept := by
  rw [List.takeWhile_takeWhile]
  congr 1
  funext s
  rw [Bool.eq_iff_iff]
  simp [kept, and_comm]

theorem addEnvironmentVariable_iff :
    entryPaths (addEnvironmentVariableCommand target key name) =
        [[target, "TestingEnvironmentVariables", key]] ↔ Plain target ∧ Plain key := by
  rw [entryPaths_single (by decide) (by decide) (by decide) toList_addEnvironmentVariableCommand]
  constructor
  · rintro ⟨a, more, hargs, hpath⟩
    have hplain : Plain target :=
      plain_of_first_key_colon (x := 'T') hargs hpath (by decide) (by decide)
    refine ⟨hplain, ?_⟩
    obtain ⟨a', more', hargs', hpath'⟩ := addEnvironmentVariable_entry hplain
      (escaped key.toList ++ ' ' :: 's' :: "tring 1".toList)
    obtain ⟨rfl, rfl⟩ := List.cons.inj (hargs.symm.trans hargs')
    obtain ⟨-, hkey⟩ := List.cons.inj (List.cons.inj (hpath'.symm.trans hpath)).2
    by_contra hspecial
    have hcount := Scan.count_characters_scan (x := 's') (by decide) Scan.start
      (escaped key.toList)
    rw [count_escaped (by decide)] at hcount
    refine characters_takeWhile_ne (x := 's') (Scan.countP_kept_lt hspecial) hcount
      (Scan.takeWhile_boundary ((escaped key.toList).foldl Scan.next Scan.start)
        (Or.inr rfl) (by decide) (by decide) "tring 1".toList) ?_
    rw [← Scan.scan_append, ← takeWhile_separator_colon]
    exact (keyPath_eq_cons hkey).1.symm
  · rintro ⟨hplain, hkey⟩
    obtain ⟨a, more, hargs, hpath⟩ := addEnvironmentVariable_entry hplain
      (escaped key.toList ++ ' ' :: 's' :: "tring 1".toList)
    refine ⟨a, more, hargs, hpath.trans ?_⟩
    obtain ⟨hscan, hstate⟩ := Scan.scan_name hkey
    have hsymbols : Scan.start.scan (escaped key.toList ++ ' ' :: 's' :: "tring 1".toList) =
        key.toList.map symbol ++ .separator :: Scan.start.scan ('s' :: "tring 1".toList) := by
      rw [Scan.scan_append, hscan, hstate]
      rfl
    rw [hsymbols, List.takeWhile_append_of_pos (by simpa using separator_notMem_symbols hkey)]
    simp [keyPath_single plain_notMem_symbols, characters_symbols hkey]

theorem toList_duplicateTestTargetCommand :
    (duplicateTestTargetCommand src new).toList =
      "Copy".toList ++ ' ' :: (escaped src.toList ++ ' ' :: escaped new.toList) := by
  simp only [duplicateTestTargetCommand, String.toList_append, toList_escapeColon]
  simp only [List.append_assoc]
  rfl

/-- An argument holds at least the characters of its first key. -/
theorem length_le_of_keyPath {a : List Symbol} {keys : KeyPath}
    (ha : ∀ s ∈ a, isSeparator s = false) (hkey : keyPath a = name :: keys) :
    name.toList.length ≤ a.countP kept := by
  have hend : ∀ s ∈ ([] : List Symbol).head?, isSeparator s = true := by simp
  have htake := takeWhile_kept ha hend
  rw [List.append_nil] at htake
  rw [(keyPath_eq_cons hkey).1, ← htake]
  calc
    (characters (a.takeWhile kept)).length ≤ (a.takeWhile kept).length :=
      length_characters_le _
    _ ≤ a.countP kept := length_takeWhile_le_countP kept a

/-- Two arguments leave no room for another symbol that counts. -/
theorem length_le_of_two_keys {l a b : List Symbol} {more : List (List Symbol)}
    (hargs : arguments l = a :: b :: more) (ha : keyPath a = [src]) (hb : keyPath b = [new]) :
    src.toList.length + new.toList.length ≤ l.countP kept ∧
      src.toList.length + 1 + new.toList.length ≤ l.countP counts := by
  obtain ⟨gap, rest, rfl, -, -, hsepa, hrest, hwords⟩ := words_eq_cons hargs
  obtain ⟨gap', rest', rfl, hgap', hne, hsepb, -, -⟩ := words_eq_cons hwords
  have hsrc := length_le_of_keyPath hsepa ha
  have hnew := length_le_of_keyPath hsepb hb
  have hsep : 1 ≤ gap'.countP counts := by
    cases gap' with
    | nil =>
        obtain ⟨s, tail, rfl⟩ := List.exists_cons_of_ne_nil hne
        have hs := hrest s (by simp)
        rw [hsepb s (by simp)] at hs
        cases hs
    | cons s gap' =>
        have hs : s = .separator := by simpa using hgap' s (by simp)
        simp [hs, counts]
  have hsrc' := hsrc.trans (Scan.countP_kept_le a)
  have hnew' := hnew.trans (Scan.countP_kept_le b)
  simp only [List.countP_append]
  omega

/-- Two escaped names that leave nothing of themselves out have no special characters. -/
theorem plain_of_countP
    (hkept : src.toList.length + new.toList.length ≤
      (Scan.start.scan (escaped src.toList ++ ' ' :: escaped new.toList)).countP kept)
    (hcounts : src.toList.length + 1 + new.toList.length ≤
      (Scan.start.scan (escaped src.toList ++ ' ' :: escaped new.toList)).countP counts) :
    Plain src ∧ Plain new := by
  rw [Scan.scan_append, Scan.scan, List.countP_append, List.countP_append] at hkept hcounts
  have hunquoted : ∀ c ∈ src.toList, c ≠ '\\' ∧ quoteOf c = none := by
    by_contra hquoted
    have hfirst := Scan.countP_quoted_lt hquoted
    have hspace := Scan.countP_emit_le counts
      ((escaped src.toList).foldl Scan.next Scan.start) ' '
    have hsecond := Scan.countP_escaped_le
      (((escaped src.toList).foldl Scan.next Scan.start).next ' ') new.toList
    omega
  rw [(Scan.scan_unquoted hunquoted).2] at hkept
  have hspace : (Scan.start.emit ' ').countP kept = 0 := by decide
  have hstate : Scan.start.next ' ' = Scan.start := rfl
  rw [hspace, hstate] at hkept
  have hle : ∀ name : List Char,
      (Scan.start.scan (escaped name)).countP kept ≤ name.length := by
    intro name
    calc
      (Scan.start.scan (escaped name)).countP kept ≤
          (Scan.start.scan (escaped name)).countP counts := Scan.countP_kept_le _
      _ ≤ name.length := Scan.countP_escaped_le _ _
  have hlesrc := hle src.toList
  have hlenew := hle new.toList
  constructor
  · by_contra hspecial
    have hlt := Scan.countP_kept_lt hspecial
    omega
  · by_contra hspecial
    have hlt := Scan.countP_kept_lt hspecial
    omega

/-- Two names without special characters are two arguments. -/
theorem arguments_two (hsrc : src ≠ "") (hnew : new ≠ "") (hplain : Plain src)
    (hplain' : Plain new) :
    arguments (Scan.start.scan (escaped src.toList ++ ' ' :: escaped new.toList)) =
      [src.toList.map symbol, new.toList.map symbol] := by
  obtain ⟨hscan, hstate⟩ := Scan.scan_name hplain
  have hsymbols : Scan.start.scan (escaped src.toList ++ ' ' :: escaped new.toList) =
      src.toList.map symbol ++ .separator :: new.toList.map symbol := by
    rw [Scan.scan_append, hscan, hstate, ← (Scan.scan_name hplain').1]
    rfl
  rw [hsymbols, arguments, words_append (by simpa using hsrc) (separator_notMem_symbols hplain) rfl,
    words_single (by simpa using hnew) (separator_notMem_symbols hplain')]

theorem duplicateTestTarget_iff (hsrc : src ≠ "") (hnew : new ≠ "") :
    entryPaths (duplicateTestTargetCommand src new) = [[src], [new]] ↔ Plain src ∧ Plain new := by
  have hverb : entryCount "Copy" = 2 := by decide
  rw [entryPaths_verb (by decide) (by decide) toList_duplicateTestTargetCommand, hverb]
  constructor
  · intro hpaths
    obtain ⟨a, b, more, hargs, ha, hb⟩ : ∃ a b more,
        arguments (Scan.start.scan (escaped src.toList ++ ' ' :: escaped new.toList)) =
          a :: b :: more ∧ keyPath a = [src] ∧ keyPath b = [new] := by
      revert hpaths
      rcases arguments (Scan.start.scan (escaped src.toList ++ ' ' :: escaped new.toList)) with
        _ | ⟨a, _ | ⟨b, more⟩⟩ <;> simp
    obtain ⟨hkept, hcounts⟩ := length_le_of_two_keys hargs ha hb
    exact plain_of_countP hkept hcounts
  · rintro ⟨hplain, hplain'⟩
    rw [arguments_two hsrc hnew hplain hplain']
    simp [keyPath_single plain_notMem_symbols, characters_symbols hplain,
      characters_symbols hplain']

theorem getDependentProductPaths_iff :
    plutilKeyPath (dependentProductPathsKeyPath target) = [target, "DependentProductPaths"] ↔
      '.' ∉ target.toList := by
  have hpath : (dependentProductPathsKeyPath target).toList =
      target.toList ++ '.' :: "DependentProductPaths".toList := by
    rw [dependentProductPathsKeyPath, String.toList_append]
    rfl
  rw [plutilKeyPath, hpath]
  constructor
  · intro h hdot
    obtain ⟨first, rest, htarget, hfirst⟩ := List.eq_append_cons_of_mem hdot
    rw [htarget, List.append_assoc, List.cons_append,
      List.splitOn_append_cons_self_of_not_mem hfirst, List.map_cons] at h
    have hlength := congrArg (fun s => s.toList.length) (List.cons.inj h).1
    simp only [String.toList_ofList, htarget, List.length_append, List.length_cons] at hlength
    omega
  · intro hdot
    rw [List.splitOn_append_cons_self_of_not_mem hdot]
    simp only [List.map_cons, String.ofList_toList]
    rfl

/-- The commands and the key path denote the entries that the member functions are about. -/
structure EntriesDenoted (src new target key name : String) : Prop where
  duplicateTestTarget : entryPaths (duplicateTestTargetCommand src new) = [[src], [new]]
  deleteTestTarget : entryPaths (deleteTestTargetCommand target) = [[target]]
  addEnvironmentVariable : entryPaths (addEnvironmentVariableCommand target key "1") =
    [[target, "TestingEnvironmentVariables", key]]
  setBlueprintName : entryPaths (setBlueprintNameCommand target name) =
    [[target, "BlueprintName"]]
  getDependentProductPaths : plutilKeyPath (dependentProductPathsKeyPath target) =
    [target, "DependentProductPaths"]

/-- **The denoted entries.** They are the intended ones exactly if the target names and the
identifier are free of whitespace, quotes and backslashes and the target is free of dots. -/
theorem entriesDenoted_iff (hsrc : src ≠ "") (hnew : new ≠ "") (htarget : target ≠ "") :
    EntriesDenoted src new target key name ↔
      (Plain src ∧ Plain new ∧ Plain target ∧ Plain key) ∧ '.' ∉ target.toList := by
  constructor
  · intro denoted
    obtain ⟨hplain, hplain'⟩ := (duplicateTestTarget_iff hsrc hnew).mp denoted.duplicateTestTarget
    obtain ⟨htarget, hkey⟩ := addEnvironmentVariable_iff.mp denoted.addEnvironmentVariable
    exact ⟨⟨hplain, hplain', htarget, hkey⟩,
      getDependentProductPaths_iff.mp denoted.getDependentProductPaths⟩
  · rintro ⟨⟨hplain, hplain', hplainTarget, hkey⟩, hdot⟩
    constructor
    · exact (duplicateTestTarget_iff hsrc hnew).mpr ⟨hplain, hplain'⟩
    · exact (deleteTestTarget_iff htarget).mpr hplainTarget
    · exact addEnvironmentVariable_iff.mpr ⟨hplainTarget, hkey⟩
    · exact setBlueprintName_iff.mpr hplainTarget
    · exact getDependentProductPaths_iff.mpr hdot

/-- An identifier with colons in it. -/
theorem entriesDenoted_iff_example :
    EntriesDenoted "Tests" "Tests-main:7:3" "Tests-main:7:3" "main:7:3" "main:7:3" :=
  (entriesDenoted_iff (by decide) (by decide) (by decide)).mpr (by decide)

/-- A target with a space, and one with a dot. -/
theorem not_entriesDenoted_example :
    ¬ EntriesDenoted "My Tests" "My Tests-1" "My Tests" "1" "1" ∧
      ¬ EntriesDenoted "App.Tests" "App.Tests-1" "App.Tests" "1" "1" := by
  constructor
  · intro denoted
    have hplain := (deleteTestTarget_iff (by decide)).mp denoted.deleteTestTarget
    exact absurd hplain (by decide)
  · intro denoted
    have hdot := getDependentProductPaths_iff.mp denoted.getDependentProductPaths
    exact absurd hdot (by decide)

end Commands

end MullXCTest.RunFile
