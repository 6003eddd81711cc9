import MullXCTest.RunFile.DependentProducts

/-!
# The in-place loops of the run file

The loop for `__TESTROOT__` and the loop of `escapeColon` search the text that they
change. Both end on every text, also where the replacement contains the key or makes one
with the text around it, and leave one substitution from left to right.
-/

namespace MullXCTest.RunFile

open FindReplace

/-- One character, as `escapeColon` leaves it. -/
def escapeChar (c : Char) : List Char := if c = ':' then ['\\', ':'] else [c]

theorem flatMap_escapeChar_length (text : List Char) :
    (text.flatMap escapeChar).length = text.length + text.count ':' := by
  induction text with
  | nil => rfl
  | cons c rest ih =>
      rw [List.flatMap_cons, List.length_append, ih, List.length_cons, List.count_cons]
      by_cases hc : c = ':'
      · simp [escapeChar, hc]
        omega
      · simp [escapeChar, hc]
        omega

theorem head?_flatMap_escapeChar (text : List Char) :
    (text.flatMap escapeChar).head? ≠ some ':' := by
  cases text with
  | nil => simp
  | cons c rest =>
      by_cases hc : c = ':'
      · simp [escapeChar, hc]
      · rw [List.flatMap_cons, escapeChar, if_neg hc]
        intro hhead
        exact hc (Option.some.inj hhead)

/-- A backslash before a colon was added, since no escaped text begins with a colon. -/
theorem escapeChar_append_cancel {c c' : Char} {rest rest' : List Char}
    (hrest : rest.head? ≠ some ':') (hrest' : rest'.head? ≠ some ':')
    (h : escapeChar c ++ rest = escapeChar c' ++ rest') : c = c' ∧ rest = rest' := by
  by_cases hc : c = ':' <;> by_cases hc' : c' = ':'
  · subst hc hc'
    exact ⟨rfl, List.append_cancel_left h⟩
  · have htail : ':' :: rest = rest' := by
      simp only [escapeChar, if_pos hc, if_neg hc', List.cons_append, List.nil_append] at h
      exact (List.cons.inj h).2
    rw [← htail] at hrest'
    exact absurd rfl hrest'
  · have htail : rest = ':' :: rest' := by
      simp only [escapeChar, if_neg hc, if_pos hc', List.cons_append, List.nil_append] at h
      exact (List.cons.inj h).2
    rw [htail] at hrest
    exact absurd rfl hrest
  · simpa [escapeChar, hc, hc'] using h

theorem flatMap_escapeChar_injective :
    Function.Injective fun text : List Char => text.flatMap escapeChar := by
  intro text
  induction text with
  | nil =>
      intro text' h
      have hlength := congrArg List.length h
      simp only [flatMap_escapeChar_length, List.length_nil, List.count_nil] at hlength
      exact (List.length_eq_zero_iff.mp (by omega)).symm
  | cons c rest ih =>
      intro text' h
      cases text' with
      | nil =>
          have hlength := congrArg List.length h
          simp only [flatMap_escapeChar_length, List.length_cons, List.length_nil] at hlength
          simp at hlength
      | cons c' rest' =>
          obtain ⟨rfl, hrest⟩ := escapeChar_append_cancel (head?_flatMap_escapeChar rest)
            (head?_flatMap_escapeChar rest') h
          rw [ih hrest]

/-- **The in-place loops substitute once.** Whatever the replacement is, each loop ends and
leaves the gaps between the leftmost occurrences of its key with the replacement between
them; an escaped string is its characters, each colon behind one backslash. -/
theorem inPlaceLoops_substituteOnce :
    (∀ testRoot stringVal : String,
      SubstitutesOnce testRootKey testRoot.toList stringVal.toList
        (expandTestRoot testRoot stringVal).toList) ∧
    (∀ value : String,
      SubstitutesOnce [':'] ['\\', ':'] value.toList (escapeColon value).toList ∧
        (escapeColon value).toList = value.toList.flatMap escapeChar ∧
        (escapeColon value).length = value.length + value.toList.count ':') ∧
    Function.Injective escapeColon := by
  refine ⟨?_, ?_, ?_⟩
  · intro testRoot stringVal
    rw [expandTestRoot, String.toList_ofList]
    exact replaceAll_substitutesOnce testRootKey_ne_nil stringVal.toList
  · intro value
    refine ⟨?_, escapeColon_toList value, ?_⟩
    · rw [escapeColon, String.toList_ofList]
      exact replaceAll_substitutesOnce _ value.toList
    · rw [← String.length_toList, ← String.length_toList, escapeColon_toList]
      exact flatMap_escapeChar_length value.toList
  · intro value value' h
    apply String.toList_inj.mp
    apply flatMap_escapeChar_injective
    have hlist := congrArg String.toList h
    rwa [escapeColon_toList, escapeColon_toList] at hlist

end MullXCTest.RunFile
