import MullXCTest.RunFile.PlistBuddy

/-!
# Special characters in a name

`escapeColon` takes the meaning of a separator from the colons, but whitespace,
backslashes and quotes of a name keep theirs. Every character of a name gives at
most one symbol, and a special one is lost for the argument that it stands in, so
that no text read from a name with special characters can be the name again.
-/

namespace MullXCTest.RunFile

/-- PlistBuddy gives the character a meaning of its own wherever it stands. -/
def special (c : Char) : Bool :=
  c.isWhitespace || quoteOf c != none || c == '\\'

/-- Decided along the list, and not over all characters. -/
instance decidableForallSpecial (l : List Char) : Decidable (∀ c ∈ l, special c = false) :=
  List.decidableBAll _ l

/-- A name without whitespace, quotes and backslashes. -/
def Plain (name : String) : Prop :=
  ∀ c ∈ name.toList, special c = false

instance (name : String) : Decidable (Plain name) :=
  decidableForallSpecial name.toList

/-- The characters of an escaped name. -/
def escaped (name : List Char) : List Char :=
  name.flatMap fun c => if c = ':' then ['\\', ':'] else [c]

/-- The symbol that stands for a character of a name without quotes and backslashes. -/
def symbol (c : Char) : Symbol :=
  if c = ':' then .literal ':' else if c.isWhitespace then .separator else .plain c

/-- The symbols that belong to the key that they stand in. -/
def kept (s : Symbol) : Bool :=
  s != .separator && s != .plain ':'

/-- The symbols but for the colons that split an entry. -/
def counts (s : Symbol) : Bool :=
  s != .plain ':'

theorem characters_append (l rest : List Symbol) :
    characters (l ++ rest) = characters l ++ characters rest := by
  induction l with
  | nil => rfl
  | cons s l ih => cases s <;> simp [characters, ih]

namespace Scan

theorem scan_append (state : Scan) (l rest : List Char) :
    state.scan (l ++ rest) = state.scan l ++ (l.foldl next state).scan rest := by
  induction l generalizing state with
  | nil => rfl
  | cons c l ih => simp [scan, ih]

theorem countP_emit_le (p : Symbol → Bool) (state : Scan) (c : Char) :
    (state.emit c).countP p ≤ 1 := by
  apply List.countP_le_length.trans
  obtain ⟨quote, afterSlash⟩ := state
  cases quote with
  | none =>
      simp only [emit]
      split_ifs <;> simp
  | some q =>
      simp only [emit]
      split_ifs <;> simp

/-- The colon of a name gives one symbol that counts, whether or not its backslash is literal. -/
theorem countP_colon_le (state : Scan) : (state.scan ['\\', ':']).countP counts ≤ 1 := by
  obtain ⟨quote, afterSlash⟩ := state
  cases afterSlash
  · simp [scan, emit, next, counts]
  · rcases quote with _ | _ | _ <;> decide

theorem countP_escaped_le (state : Scan) (name : List Char) :
    (state.scan (escaped name)).countP counts ≤ name.length := by
  induction name generalizing state with
  | nil => simp [escaped, scan]
  | cons c name ih =>
      rw [escaped, List.flatMap_cons, scan_append, List.countP_append, List.length_cons,
        Nat.add_comm]
      apply Nat.add_le_add (ih _)
      by_cases hc : c = ':'
      · rw [if_pos hc]
        exact countP_colon_le state
      · rw [if_neg hc]
        simpa [scan] using countP_emit_le counts state c

/-- Quotes and backslashes aside, every character gives its own symbol. -/
theorem scan_unquoted {name : List Char} (h : ∀ c ∈ name, c ≠ '\\' ∧ quoteOf c = none) :
    start.scan (escaped name) = name.map symbol ∧ (escaped name).foldl next start = start := by
  induction name with
  | nil => exact ⟨rfl, rfl⟩
  | cons c name ih =>
      obtain ⟨⟨hslash, hquote⟩, hname⟩ := List.forall_mem_cons.mp h
      obtain ⟨hscan, hstate⟩ := ih hname
      by_cases hc : c = ':'
      · subst hc
        refine ⟨?_, hstate⟩
        rw [List.map_cons, ← hscan]
        rfl
      · have hescaped : escaped (c :: name) = c :: escaped name := by
          rw [escaped, List.flatMap_cons, if_neg hc]
          rfl
        have hnext : start.next c = start := by simp [next, start, hslash, hquote]
        rw [hescaped, scan, List.foldl_cons, hnext, hscan, List.map_cons]
        refine ⟨?_, hstate⟩
        by_cases hws : c.isWhitespace
        · simp [emit, start, symbol, hslash, hquote, hc, hws]
        · simp [emit, start, symbol, hslash, hquote, hc, hws]

/-- The first quote or backslash of a name gives no symbol. -/
theorem countP_quoted_lt {name : List Char} (h : ¬ ∀ c ∈ name, c ≠ '\\' ∧ quoteOf c = none) :
    (start.scan (escaped name)).countP counts < name.length := by
  induction name with
  | nil => exact absurd (by simp) h
  | cons c name ih =>
      rw [escaped, List.flatMap_cons, scan_append, List.countP_append, List.length_cons]
      by_cases hc : c ≠ '\\' ∧ quoteOf c = none
      · have hname : ¬ ∀ d ∈ name, d ≠ '\\' ∧ quoteOf d = none := fun hname =>
          h (List.forall_mem_cons.mpr ⟨hc, hname⟩)
        have hsingle : ∀ d ∈ [c], d ≠ '\\' ∧ quoteOf d = none := by simpa using hc
        obtain ⟨-, hstate⟩ := scan_unquoted hsingle
        have hone := countP_escaped_le start [c]
        simp only [escaped, List.flatMap_cons, List.flatMap_nil, List.append_nil,
          List.length_singleton] at hstate hone
        rw [hstate]
        have hrest := ih hname
        rw [escaped] at hrest
        omega
      · have hcolon : c ≠ ':' := by
          rintro rfl
          exact hc (by decide)
        have hemit : start.emit c = [] := by
          by_cases hslash : c = '\\'
          · simp [emit, start, hslash]
          · have hquote : quoteOf c ≠ none := by simpa [hslash] using hc
            simp [emit, start, hslash, hquote]
        have hrest := countP_escaped_le (start.next c) name
        rw [escaped] at hrest
        simp only [hcolon, if_false, scan, hemit, List.foldl_cons, List.foldl_nil,
          List.append_nil, List.countP_nil]
        omega

theorem countP_kept_le (l : List Symbol) : l.countP kept ≤ l.countP counts :=
  List.countP_mono_left fun s _ hs => by
    simp only [kept, Bool.and_eq_true] at hs
    exact hs.2

/-- A name with a special character loses one for the key that it stands in. -/
theorem countP_kept_lt {name : List Char} (h : ¬ ∀ c ∈ name, special c = false) :
    (start.scan (escaped name)).countP kept < name.length := by
  by_cases hquoted : ∀ c ∈ name, c ≠ '\\' ∧ quoteOf c = none
  · rw [(scan_unquoted hquoted).1, List.countP_map]
    apply Nat.lt_of_le_of_ne List.countP_le_length
    intro heq
    apply h
    intro c hc
    have hkept := List.countP_eq_length.mp heq c hc
    obtain ⟨hslash, hquote⟩ := hquoted c hc
    by_cases hws : c.isWhitespace
    · by_cases hcolon : c = ':'
      · exact absurd hws (by rw [hcolon]; decide)
      · simp [symbol, kept, hcolon, hws] at hkept
    · simp [special, hws, hquote, hslash]
  · calc
      (start.scan (escaped name)).countP kept ≤ (start.scan (escaped name)).countP counts :=
        countP_kept_le _
      _ < name.length := countP_quoted_lt hquoted

/-- A character that is not special is never dropped. -/
theorem characters_emit {x : Char} (hx : special x = false) (state : Scan) :
    characters (state.emit x) = [x] := by
  simp only [special, Bool.or_eq_false_iff, beq_eq_false_iff_ne, bne_eq_false_iff_eq] at hx
  obtain ⟨⟨hws, hquote⟩, hslash⟩ := hx
  obtain ⟨quote, afterSlash⟩ := state
  cases afterSlash <;> cases quote <;> simp [emit, hws, hquote, hslash, characters]

theorem characters_emit_sublist (state : Scan) (c : Char) :
    (characters (state.emit c)).Sublist [c] := by
  unfold emit
  split
  · simp [characters]
  · split
    · simp [characters]
    · split <;> split_ifs <;> simp [characters]

theorem count_characters_scan {x : Char} (hx : special x = false) (state : Scan)
    (l : List Char) : (characters (state.scan l)).count x = l.count x := by
  induction l generalizing state with
  | nil => rfl
  | cons c l ih =>
      have hemit : (characters (state.emit c)).count x = [c].count x := by
        by_cases hc : c = x
        · rw [hc, characters_emit hx]
        · have hle := (characters_emit_sublist state c).count_le x
          have hzero : [c].count x = 0 := List.count_eq_zero.mpr (by simpa using Ne.symm hc)
          omega
      calc
        (characters (state.scan (c :: l))).count x =
            (characters (state.emit c)).count x +
              (characters ((state.next c).scan l)).count x := by
          rw [scan, characters_append, List.count_append]
        _ = [c].count x + l.count x := by rw [hemit, ih]
        _ = (c :: l).count x := List.count_append.symm

/-- The constant parts of a command. -/
theorem scan_constant {l : List Char} (h : ∀ c ∈ l, special c = false) :
    start.scan l = l.map .plain ∧ l.foldl next start = start := by
  induction l with
  | nil => exact ⟨rfl, rfl⟩
  | cons c l ih =>
      obtain ⟨hc, hl⟩ := List.forall_mem_cons.mp h
      obtain ⟨hscan, hstate⟩ := ih hl
      simp only [special, Bool.or_eq_false_iff, beq_eq_false_iff_ne, bne_eq_false_iff_eq] at hc
      obtain ⟨⟨hws, hquote⟩, hslash⟩ := hc
      have hnext : start.next c = start := by simp [next, start, hslash, hquote]
      rw [scan, List.foldl_cons, hnext, hscan]
      exact ⟨by simp [emit, start, hslash, hquote, hws], hstate⟩

theorem special_eq_false_iff {c : Char} :
    special c = false ↔ c.isWhitespace = false ∧ quoteOf c = none ∧ c ≠ '\\' := by
  simp [special, and_assoc]

/-- Names without special characters are read as they are. -/
theorem scan_name {name : List Char} (h : ∀ c ∈ name, special c = false) :
    start.scan (escaped name) = name.map symbol ∧ (escaped name).foldl next start = start :=
  scan_unquoted fun c hc => by
    obtain ⟨-, hquote, hslash⟩ := special_eq_false_iff.mp (h c hc)
    exact ⟨hslash, hquote⟩

theorem head_colon (state : Scan) (l : List Char) :
    ∀ s ∈ (state.scan (':' :: l)).head?, s ≠ .separator := by
  obtain ⟨quote, afterSlash⟩ := state
  cases afterSlash <;> cases quote <;> simp [scan, emit, quoteOf]

/-- A colon or a space gives one symbol; what stands behind it either belongs to another key, or
the next character belongs to the same. -/
theorem takeWhile_boundary (state : Scan) {b x : Char} (hb : b = ':' ∨ b = ' ')
    (hx : special x = false) (hcolon : x ≠ ':') (rest : List Char) :
    (state.scan (b :: x :: rest)).takeWhile kept = [] ∨
      x ∈ characters ((state.scan (b :: x :: rest)).takeWhile kept) := by
  have hsingle : ∃ s, state.emit b = [s] := by
    obtain ⟨quote, afterSlash⟩ := state
    rcases hb with rfl | rfl <;> cases afterSlash <;> cases quote <;> simp [emit, quoteOf]
  obtain ⟨s, hs⟩ := hsingle
  obtain ⟨hws, hquote, hslash⟩ := special_eq_false_iff.mp hx
  have hkept : ∃ t, (state.next b).emit x = [t] ∧ kept t = true ∧ characters [t] = [x] := by
    obtain ⟨quote, afterSlash⟩ := state.next b
    cases afterSlash <;> cases quote <;>
      simp [emit, hws, hquote, hslash, kept, characters, hcolon]
  obtain ⟨t, ht, htkept, htx⟩ := hkept
  rw [scan, scan, hs, ht]
  by_cases hskept : kept s = true
  · apply Or.inr
    have hmem : ∀ l, x ∈ characters ([s] ++ ([t] ++ l)) := fun l => by
      rw [characters_append, characters_append, htx]
      simp
    simpa [hskept, htkept] using hmem _
  · exact Or.inl (by simp [hskept])

end Scan

theorem length_characters_le (l : List Symbol) : (characters l).length ≤ l.length := by
  induction l with
  | nil => simp [characters]
  | cons s l ih =>
      cases s <;> simp only [characters, List.length_cons] <;> omega

theorem length_takeWhile_le_countP (p : Symbol → Bool) (l : List Symbol) :
    (l.takeWhile p).length ≤ l.countP p := by
  induction l with
  | nil => simp
  | cons s l ih => by_cases hs : p s <;> simp [hs, ih]

/-- A key that lost a character of a name, and does not lose it to another character of a text
behind the name, is not the name. -/
theorem characters_takeWhile_ne {l rest : List Symbol} {name : List Char} {x : Char}
    (hlt : l.countP kept < name.length) (hcount : (characters l).count x = name.count x)
    (hrest : rest.takeWhile kept = [] ∨ x ∈ characters (rest.takeWhile kept)) :
    characters ((l ++ rest).takeWhile kept) ≠ name := by
  intro heq
  have hle := length_takeWhile_le_countP kept l
  have hlength := length_characters_le (l.takeWhile kept)
  rw [List.takeWhile_append] at heq
  split_ifs at heq with hall
  · have hl : l.takeWhile kept = l := (List.takeWhile_sublist kept).eq_of_length hall
    rw [hl] at hle hlength
    rcases hrest with hrest | hrest
    · rw [hrest, List.append_nil] at heq
      rw [heq] at hlength
      omega
    · have hpos := List.count_pos_iff.mpr hrest
      have htotal := congrArg (List.count x) heq
      rw [characters_append, List.count_append] at htotal
      omega
  · rw [heq] at hlength
    omega

/-- An entry without a splitting colon has one key. -/
theorem keyPath_single {l : List Symbol} (h : .plain ':' ∉ l) :
    keyPath l = [String.ofList (characters l)] := by
  rw [keyPath, List.splitOnP_eq_singleton]
  · rfl
  · intro s hs
    rw [beq_eq_false_iff_ne]
    rintro rfl
    exact h hs

theorem keyPath_append {l : List Symbol} (h : .plain ':' ∉ l) (rest : List Symbol) :
    keyPath (l ++ .plain ':' :: rest) = String.ofList (characters l) :: keyPath rest := by
  rw [keyPath, List.splitOnP_append_cons_of_forall_mem]
  · rfl
  · intro s hs
    rw [beq_eq_false_iff_ne]
    rintro rfl
    exact h hs
  · rfl

/-- The first key of an entry goes up to the first splitting colon. -/
theorem keyPath_eq_cons {l : List Symbol} {key : String} {keys : KeyPath}
    (h : keyPath l = key :: keys) :
    key.toList = characters (l.takeWhile (· ≠ .plain ':')) ∧
      (keys = [] → .plain ':' ∉ l) := by
  by_cases hmem : Symbol.plain ':' ∈ l
  · obtain ⟨first, rest, rfl, hfirst⟩ := List.eq_append_cons_of_mem hmem
    rw [keyPath_append hfirst] at h
    obtain ⟨rfl, rfl⟩ := List.cons.inj h
    constructor
    · rw [String.toList_ofList, List.takeWhile_append_of_pos]
      · simp
      · intro s hs
        exact decide_eq_true fun heq => hfirst (heq ▸ hs)
    · intro hnil
      simp [keyPath] at hnil
  · rw [keyPath_single hmem] at h
    obtain ⟨rfl, rfl⟩ := List.cons.inj h
    refine ⟨?_, fun _ => hmem⟩
    rw [String.toList_ofList, List.takeWhile_eq_self_iff.mpr]
    intro s hs
    exact decide_eq_true fun heq => hmem (heq ▸ hs)

end MullXCTest.RunFile
