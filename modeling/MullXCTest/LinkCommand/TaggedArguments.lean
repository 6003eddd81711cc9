import MullXCTest.LinkCommand.ArgumentHandling

/-!
# Tagged arguments

An argument vector of mull-ld or mull-libtool is the encoding of a sequence of arguments
for the tool and for the linker, in which `-Xmull` stands before each argument for the
tool. `filterMullOptions` undoes the encoding.
-/

namespace MullXCTest.LinkCommand

open MarkerScan

/-- An argument with the side that it is meant for. -/
inductive TaggedArgument
  | mull (arg : String)
  | linker (arg : String) (not_marker : arg ≠ "-Xmull")
  deriving DecidableEq

namespace TaggedArgument

/-- How one argument is written on the command line. -/
def words : TaggedArgument → List String
  | mull arg => ["-Xmull", arg]
  | linker arg _ => [arg]

def encode (tagged : List TaggedArgument) : List String := tagged.flatMap words

def mull? : TaggedArgument → Option String
  | mull arg => some arg
  | linker _ _ => none

def linker? : TaggedArgument → Option String
  | mull _ => none
  | linker arg _ => some arg

/-- The arguments for the tool, in their order. -/
def mullTagged (tagged : List TaggedArgument) : List String := tagged.filterMap mull?

/-- The arguments for the linker, in their order. -/
def linkerTagged (tagged : List TaggedArgument) : List String := tagged.filterMap linker?

/-- Reads a command line back, a last `-Xmull` without a value being dropped. -/
def decode : List String → List TaggedArgument
  | [] => []
  | arg :: args =>
      if h : arg = "-Xmull" then
        match args with
        | [] => []
        | value :: args => mull value :: decode args
      else linker arg h :: decode args

@[simp] theorem encode_nil : encode [] = [] := rfl

@[simp] theorem encode_mull (arg : String) (tagged : List TaggedArgument) :
    encode (mull arg :: tagged) = "-Xmull" :: arg :: encode tagged := rfl

@[simp] theorem encode_linker (arg : String) (h : arg ≠ "-Xmull")
    (tagged : List TaggedArgument) :
    encode (linker arg h :: tagged) = arg :: encode tagged := rfl

@[simp] theorem decode_mull (arg : String) (args : List String) :
    decode ("-Xmull" :: arg :: args) = mull arg :: decode args := by
  rw [decode, dif_pos rfl]

@[simp] theorem decode_linker {arg : String} (h : arg ≠ "-Xmull") (args : List String) :
    decode (arg :: args) = linker arg h :: decode args := by
  rw [decode.eq_def]
  exact dif_neg h

@[simp] theorem mullTagged_mull (arg : String) (tagged : List TaggedArgument) :
    mullTagged (mull arg :: tagged) = arg :: mullTagged tagged := rfl

@[simp] theorem mullTagged_linker (arg : String) (h : arg ≠ "-Xmull")
    (tagged : List TaggedArgument) :
    mullTagged (linker arg h :: tagged) = mullTagged tagged := rfl

@[simp] theorem linkerTagged_mull (arg : String) (tagged : List TaggedArgument) :
    linkerTagged (mull arg :: tagged) = linkerTagged tagged := rfl

@[simp] theorem linkerTagged_linker (arg : String) (h : arg ≠ "-Xmull")
    (tagged : List TaggedArgument) :
    linkerTagged (linker arg h :: tagged) = arg :: linkerTagged tagged := rfl

theorem decode_encode (tagged : List TaggedArgument) : decode (encode tagged) = tagged := by
  induction tagged with
  | nil => rfl
  | cons argument tagged ih =>
      cases argument with
      | mull arg => rw [encode_mull, decode_mull, ih]
      | linker arg h => rw [encode_linker, decode_linker h, ih]

/-- No two sequences are written the same. -/
theorem encode_injective : Function.Injective encode :=
  Function.LeftInverse.injective decode_encode

/-- Every vector that does not end on a `-Xmull` of its own is written by some sequence. -/
theorem encode_decode {args : List String} (h : dangling isXmull args = false) :
    encode (decode args) = args := by
  induction args using scan_induction isXmull with
  | nil => rfl
  | single a ha => rw [dangling_single ha] at h; cases h
  | pair a value rest ha ih =>
      rw [dangling_marker ha] at h
      obtain rfl : a = "-Xmull" := by simpa [isXmull] using ha
      rw [decode_mull, encode_mull, ih h]
  | cons a rest ha ih =>
      rw [dangling_cons ha] at h
      have hx : a ≠ "-Xmull" := by simpa [isXmull] using ha
      rw [decode_linker hx, encode_linker, ih h]

theorem dangling_encode (tagged : List TaggedArgument) :
    dangling isXmull (encode tagged) = false := by
  induction tagged with
  | nil => rfl
  | cons argument tagged ih =>
      cases argument with
      | mull arg => rw [encode_mull, dangling_marker rfl, ih]
      | linker arg h => rw [encode_linker, dangling_cons (by simpa [isXmull] using h), ih]

theorem mullPart_encode (tagged : List TaggedArgument) :
    mullPart (encode tagged) = mullTagged tagged := by
  induction tagged with
  | nil => rfl
  | cons argument tagged ih =>
      cases argument with
      | mull arg =>
          rw [encode_mull, mullTagged_mull, ← ih, mullPart, withValue_marker rfl]
          rfl
      | linker arg h =>
          have hx : isXmull arg = false := by simpa [isXmull] using h
          rw [encode_linker, mullTagged_linker, ← ih, mullPart, withValue_cons hx]
          rfl

theorem linkerPart_encode (tagged : List TaggedArgument) :
    linkerPart (encode tagged) = linkerTagged tagged := by
  induction tagged with
  | nil => rfl
  | cons argument tagged ih =>
      cases argument with
      | mull arg =>
          rw [encode_mull, linkerTagged_mull, ← ih, linkerPart, withValue_marker rfl]
          rfl
      | linker arg h =>
          have hx : isXmull arg = false := by simpa [isXmull] using h
          rw [encode_linker, linkerTagged_linker, ← ih, linkerPart, withValue_cons hx]
          simp [linkerPart, hx]

end TaggedArgument

open TaggedArgument

/-- The loop comes to an end on the vectors that do not end on a `-Xmull` of their own. -/
theorem filterMullOptions_ok_iff (args mullArgs linkerArgs : List String) :
    (∃ split, filterMullOptions args mullArgs linkerArgs = .ok split) ↔
      dangling isXmull args = false := by
  cases h : dangling isXmull args with
  | false => simp [filterMullOptions_eq args mullArgs linkerArgs h]
  | true => simp [filterMullOptions_dangling args mullArgs linkerArgs h]

/-- **Splitting undoes tagging.** The loop gives each side its arguments behind what it
already has, and it comes to an end exactly on the vectors that one sequence writes. -/
theorem filterMullOptions_undoes_encode (mullArgs linkerArgs : List String) :
    (∀ tagged, filterMullOptions (encode tagged) mullArgs linkerArgs =
      .ok (mullArgs ++ mullTagged tagged, linkerArgs ++ linkerTagged tagged)) ∧
    ∀ args, (∃ split, filterMullOptions args mullArgs linkerArgs = .ok split) ↔
      ∃! tagged, encode tagged = args := by
  constructor
  · intro tagged
    rw [filterMullOptions_eq _ _ _ (dangling_encode tagged), mullPart_encode,
      linkerPart_encode]
  · intro args
    rw [filterMullOptions_ok_iff]
    constructor
    · intro h
      refine ⟨decode args, encode_decode h, ?_⟩
      intro tagged htagged
      apply encode_injective
      exact htagged.trans (encode_decode h).symm
    · rintro ⟨tagged, rfl, -⟩
      exact dangling_encode tagged

example : encode [.mull "-Xmull", .linker "a.o" (by decide)] = ["-Xmull", "-Xmull", "a.o"] :=
  rfl

end MullXCTest.LinkCommand
