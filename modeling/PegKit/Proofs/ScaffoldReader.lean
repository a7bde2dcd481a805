import PegKit.Proofs.LiteralReader
import PegKit.Scaffold
import Mathlib.Data.List.Basic

/-! Scaffolds read back. Each template puts its inputs between fixed texts, and a reader that knows
these finds the inputs again: in a Rust program as literals, in a Nim program as they are, between
quotes and at the end. No input can be taken for a part of the template, nor the other way round. -/

namespace PegKit

def afterLine (text : List Char) : List Char := (text.dropWhile (· != '\n')).tail

def rustOpening : String :=
  "// Replace the body of `parse` with a call into a PEG runtime.\n\n" ++
  "const GRAMMAR: &str = "

def rustBinding : String := ";\n\n" ++ "const ENTRY_RULE : & str = "

def readLiterals (opening binding tail text : List Char) :
    Option (Text.StringLiteral × Text.StringLiteral) := do
  let text ← text.dropPrefix? opening
  let (first, text) ← Text.readLiteral text
  let text ← text.dropPrefix? binding
  let (second, text) ← Text.readLiteral text
  if text = tail then some (first, second) else none

/-- The grammar and the entry rule of a Rust program, as the literals that hold them. -/
def readRustProgram (text : List Char) : Option (Text.StringLiteral × Text.StringLiteral) :=
  readLiterals rustOpening.toList rustBinding.toList rustTail.toList (afterLine text)

def nimOpening : String := "import npeg, strutils\n\nlet parser = peg \""

/-- The entry rule and the grammar of a Nim program. -/
def readNimProgram (text : List Char) : Option (List Char × List Char) := do
  let text ← text.dropPrefix? nimOpening.toList
  let entry := text.takeWhile (· != '"')
  let text ← (text.dropWhile (· != '"')).dropPrefix? "\":\n".toList
  let text ← text.dropPrefix? "  # Grammar generated from ".toList
  let text ← (afterLine text).dropPrefix? "  ".toList
  let grammar ← text.dropSuffix? nimTail.toList
  return (entry, grammar)

theorem afterLine_append {line : List Char} (h : '\n' ∉ line) (rest : List Char) :
    afterLine (line ++ ("\n".toList ++ rest)) = rest := by
  have hl : ∀ c ∈ line, (c != '\n') = true := by
    intro c hc
    rw [bne_iff_ne]
    rintro rfl
    exact h hc
  rw [afterLine, List.dropWhile_append_of_pos hl]
  rfl

/-- A file identifier stays on its line. -/
theorem not_mem_provenance (file : String) : '\n' ∉ (provenance file).toList := by
  rw [provenance, String.toList_ofList, List.mem_map]
  rintro ⟨c, -, hc⟩
  split_ifs at hc with h
  · cases hc
  · rw [hc] at h
    exact h (by decide)

theorem dropPrefix?_append (fixed rest : List Char) :
    (fixed ++ rest).dropPrefix? fixed = some rest :=
  List.dropPrefix?_append_of_beq rest (beq_self_eq_true fixed)

theorem dropSuffix?_append (rest fixed : List Char) :
    (rest ++ fixed).dropSuffix? fixed = some rest :=
  List.dropSuffix?_eq_some_iff.2 ⟨fixed, rfl, beq_self_eq_true fixed⟩

theorem infix_append_of_infix {part text : List Char} (h : part <:+: text) (before : List Char) :
    part <:+: before ++ text :=
  h.trans (List.suffix_append before text).isInfix

section rust

theorem rustProgram_eq (s : ScaffoldInput) :
    (rustProgram s).toList =
      ("// Scaffold generated from ".toList ++ (provenance s.file).toList) ++ ("\n".toList ++
        (rustOpening.toList ++ ((Text.literal s.grammar).toList ++ (rustBinding.toList ++
          ((Text.escapedLiteral s.entry).toList ++ rustTail.toList))))) := by
  unfold rustProgram rustOpening rustBinding
  simp only [String.toList_append, List.append_assoc]

theorem readLiterals_append (opening binding tail : List Char) (s t : String) :
    readLiterals opening binding tail (opening ++ ((Text.literal s).toList ++ (binding ++
      ((Text.escapedLiteral t).toList ++ tail)))) =
      some (⟨Text.literalForm s.toList, s.toList⟩, ⟨.escaped, t.toList⟩) := by
  rw [readLiterals, dropPrefix?_append]
  simp only [Option.bind_eq_bind, Option.bind_some, Text.readLiteral_literal, dropPrefix?_append,
    Text.readLiteral_escapedLiteral, if_true]

theorem readRustProgram_rustProgram (s : ScaffoldInput) :
    readRustProgram (rustProgram s).toList =
      some (⟨Text.literalForm s.grammar.toList, s.grammar.toList⟩,
        ⟨.escaped, s.entry.toList⟩) := by
  have hl : '\n' ∉ "// Scaffold generated from ".toList ++ (provenance s.file).toList := by
    rw [List.mem_append, not_or]
    exact ⟨by decide, not_mem_provenance s.file⟩
  rw [rustProgram_eq, readRustProgram, afterLine_append hl, readLiterals_append]

theorem infix_literal {s : String} (hr : '\r' ∉ s.toList) :
    s.toList <:+: (Text.literal s).toList := by
  have hl : Text.literal s = Text.rawLiteral s := by
    rw [Text.literal, if_neg]
    simpa using hr
  rw [hl, Text.rawLiteral]
  simp only [String.toList_append, List.append_assoc]
  iterate 3 apply infix_append_of_infix
  exact (List.prefix_append _ _).isInfix

theorem infix_rustProgram {s : ScaffoldInput} (hr : '\r' ∉ s.grammar.toList) :
    s.grammar.toList <:+: (rustProgram s).toList := by
  rw [rustProgram_eq]
  iterate 3 apply infix_append_of_infix
  exact (infix_literal hr).trans (List.prefix_append _ _).isInfix

end rust

section nim

theorem nimProgram_eq (s : ScaffoldInput) :
    (nimProgram s).toList =
      nimOpening.toList ++ (s.entry.toList ++ ("\":\n".toList ++
        ("  # Grammar generated from ".toList ++ ((provenance s.file).toList ++ ("\n".toList ++
          ("  ".toList ++ (s.grammar.toList ++ nimTail.toList))))))) := by
  unfold nimProgram nimOpening
  simp only [String.toList_append, List.append_assoc]

theorem readNimProgram_nimProgram {s : ScaffoldInput} (he : '"' ∉ s.entry.toList) :
    readNimProgram (nimProgram s).toList = some (s.entry.toList, s.grammar.toList) := by
  have hq : ∀ c ∈ s.entry.toList, (c != '"') = true := by
    intro c hc
    rw [bne_iff_ne]
    rintro rfl
    exact he hc
  have ht : ∀ rest : List Char,
      (s.entry.toList ++ ("\":\n".toList ++ rest)).takeWhile (· != '"') = s.entry.toList := by
    intro rest
    rw [List.takeWhile_append_of_pos hq]
    exact List.append_nil _
  have hd : ∀ rest : List Char,
      (s.entry.toList ++ ("\":\n".toList ++ rest)).dropWhile (· != '"') =
        "\":\n".toList ++ rest := by
    intro rest
    rw [List.dropWhile_append_of_pos hq]
    rfl
  rw [nimProgram_eq, readNimProgram, dropPrefix?_append]
  simp only [Option.bind_eq_bind, Option.bind_some, ht, hd, dropPrefix?_append,
    afterLine_append (not_mem_provenance s.file), dropSuffix?_append]
  rfl

theorem infix_nimProgram (s : ScaffoldInput) : s.grammar.toList <:+: (nimProgram s).toList := by
  rw [nimProgram_eq]
  iterate 7 apply infix_append_of_infix
  exact (List.prefix_append _ _).isInfix

end nim

/-- Both programs give back what they were made from: a Rust program in literals, each of which ends
where the template goes on, and a Nim program as it stands. Where no literal with escapes is needed,
the grammar stands in the program unchanged. -/
theorem render_reads_back (s : ScaffoldInput) :
    (∃ grammar entry, readRustProgram (Target.rust.render s).toList = some (grammar, entry) ∧
      grammar.value = s.grammar.toList ∧ entry.value = s.entry.toList) ∧
    ('"' ∉ s.entry.toList →
      readNimProgram (Target.nim.render s).toList = some (s.entry.toList, s.grammar.toList)) ∧
    s.grammar.toList <:+: (Target.nim.render s).toList ∧
    ('\r' ∉ s.grammar.toList → s.grammar.toList <:+: (Target.rust.render s).toList) := by
  exact ⟨⟨_, _, readRustProgram_rustProgram s, rfl, rfl⟩, readNimProgram_nimProgram,
    infix_nimProgram s, infix_rustProgram⟩

/-- A quote before number signs where the guard begins, and a line break in the file identifier. -/
theorem render_reads_back_touching :
    ('"' ∉ "a_1".toList ∧ '\r' ∉ "a_1 <- \"#\"##".toList) ∧
    readNimProgram (Target.nim.render ⟨"a_1 <- \"#\"##", "x\n\".npeg", "a_1"⟩).toList =
      some ("a_1".toList, "a_1 <- \"#\"##".toList) ∧
    "a_1 <- \"#\"##".toList <:+:
      (Target.rust.render ⟨"a_1 <- \"#\"##", "x\n\".npeg", "a_1"⟩).toList := by
  have hq : '"' ∉ "a_1".toList := by decide
  have hr : '\r' ∉ "a_1 <- \"#\"##".toList := by decide
  obtain ⟨-, hn, -, hi⟩ := render_reads_back ⟨"a_1 <- \"#\"##", "x\n\".npeg", "a_1"⟩
  exact ⟨⟨hq, hr⟩, hn hq, hi hr⟩

end PegKit
