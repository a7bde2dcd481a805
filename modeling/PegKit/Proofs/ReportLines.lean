import PegKit.CommandLine.Run
import PegKit.Proofs.Messages

/-! The lines of a report on several documents, read back. A line is the name of a file and then
four fields, with colons between. The name may hold colons of its own and the fields hold none, so
what is cut off at the last four colons are the fields, and the name is left. Nor does a field hold
a line break, so the report has one line for each diagnostic unless a name takes more than one. -/

namespace PegKit

/-- The two sides of the last colon of a text. -/
def cutLast? : List Char → Option (List Char × List Char)
  | [] => none
  | c :: rest =>
    match cutLast? rest with
    | some (before, behind) => some (c :: before, behind)
    | none => if c = ':' then some ([], rest) else none

theorem cutLast?_eq_none_iff {text : List Char} : cutLast? text = none ↔ ':' ∉ text := by
  induction text with
  | nil => simp [cutLast?]
  | cons c rest ih =>
    rw [cutLast?, List.mem_cons, not_or, ← ih, eq_comm (b := c)]
    cases cutLast? rest <;> simp

theorem cutLast?_append {behind : List Char} (before : List Char) (h : ':' ∉ behind) :
    cutLast? (before ++ ':' :: behind) = some (before, behind) := by
  induction before with
  | nil => rw [List.nil_append, cutLast?, cutLast?_eq_none_iff.2 h, if_pos rfl]
  | cons c before ih => rw [List.cons_append, cutLast?, ih]

/-- The parts of a line between its last four colons. -/
structure ReportLine where
  file : String
  severity : String
  line : String
  column : String
  message : String
deriving DecidableEq, Repr

namespace ReportLine

def cut? (text : String) : Option ReportLine := do
  let (front, message) ← cutLast? text.toList
  let (front, column) ← cutLast? front
  let (front, line) ← cutLast? front
  let (file, severity) ← cutLast? front
  return ⟨.ofList file, .ofList severity, .ofList line, .ofList column, .ofList message⟩

def of (file : String) (d : Diagnostic) : ReportLine :=
  ⟨file, d.severity.label, toString d.line, toString d.column, d.message⟩

def text (l : ReportLine) : String :=
  l.file ++ ":" ++ l.severity ++ ":" ++ l.line ++ ":" ++ l.column ++ ":" ++ l.message

/-- All parts but the file are fields. -/
structure IsSound (l : ReportLine) : Prop where
  severity : IsField l.severity.toList
  line : IsField l.line.toList
  column : IsField l.column.toList
  message : IsField l.message.toList

variable {l : ReportLine}

theorem toList_text (l : ReportLine) : l.text.toList =
    l.file.toList ++ ':' :: l.severity.toList ++ ':' :: l.line.toList ++
      ':' :: l.column.toList ++ ':' :: l.message.toList := by
  simp [text]

theorem IsSound.cut?_text (h : l.IsSound) : cut? l.text = some l := by
  simp only [cut?, toList_text, cutLast?_append _ h.message.1, cutLast?_append _ h.column.1,
    cutLast?_append _ h.line.1, cutLast?_append _ h.severity.1, Option.bind_eq_bind,
    Option.bind_some, String.ofList_toList]
  rfl

theorem IsSound.isLine_text (h : l.IsSound) (hfile : IsLine l.file.toList) :
    IsLine l.text.toList := by
  have hcolon : ∀ {a : List Char}, IsLine a → IsLine (':' :: a) := fun ha =>
    List.forall_mem_cons.2 ⟨by decide, ha⟩
  rw [toList_text]
  have hseverity := isLine_append hfile (hcolon h.severity.2)
  have hline := isLine_append hseverity (hcolon h.line.2)
  have hcolumn := isLine_append hline (hcolon h.column.2)
  exact isLine_append hcolumn (hcolon h.message.2)

theorem text_of (file : String) (d : Diagnostic) : (of file d).text = file ++ ":" ++ d.summary := by
  simp [text, of, Diagnostic.summary, String.append_assoc]

theorem isSound_of (file : String) {d : Diagnostic} (h : IsField d.message.toList) :
    (of file d).IsSound := by
  refine ⟨?_, isField_toString d.line, isField_toString d.column, h⟩
  cases hd : d.severity <;> simp only [of, hd] <;> decide

end ReportLine

namespace CommandLine

theorem splitOnP_textLines {lines : List String} (h : ∀ l ∈ lines, IsLine l.toList) :
    (textLines lines).toList.splitOnP isLineBreak = lines.map String.toList ++ [[]] := by
  induction lines with
  | nil => rfl
  | cons l lines ih =>
    obtain ⟨hl, hlines⟩ := List.forall_mem_cons.1 h
    have hplain : ∀ c ∈ l.toList, isLineBreak c = false := fun c hc =>
      isLineBreak_eq_false_iff.2 (hl c hc)
    have htext : (textLines (l :: lines)).toList =
        l.toList ++ '\n' :: (textLines lines).toList := by
      simp [textLines]
    rw [htext, List.splitOnP_append_cons_of_forall_mem hplain '\n' rfl, ih hlines]
    rfl

theorem reportText_of_several {checked : List (Document × Report)} (h : checked.length ≠ 1) :
    reportText .text checked =
      textLines (checked.flatMap fun (d, r) => r.diagnostics.map fun x =>
        d.file ++ ":" ++ x.summary) := by
  match checked with
  | [] => rfl
  | [_] => exact absurd rfl h
  | _ :: _ :: _ => rfl

/-- What is said of documents, of whatever sources and under whatever rules their tokens were read.
The line for a diagnostic, cut at its last four colons, gives back the file identifier, whatever it
holds, then the severity, the line and the column in decimal, and the message. No message holds a
colon or a line break; so what is printed for a diagnostic is one line if the file identifier holds
no line break, and the report on several such documents has just these lines. -/
theorem reportText_reads_back {docs : List (Document × List Token)}
    (hread : ∀ x ∈ docs, AreRead x.2) :
    (∀ x ∈ docs, ∀ d ∈ (PegKit.validate x.2).diagnostics,
      ReportLine.cut? (x.1.file ++ ":" ++ d.summary) =
        some ⟨x.1.file, d.severity.label, toString d.line, toString d.column, d.message⟩ ∧
      ':' ∉ d.message.toList ∧ IsLine d.message.toList ∧
      (IsLine x.1.file.toList → IsLine (x.1.file ++ ":" ++ d.summary).toList)) ∧
    (docs.length ≠ 1 → (∀ x ∈ docs, IsLine x.1.file.toList) →
      (reportText .text (docs.map fun x => (x.1, PegKit.validate x.2))).toList.splitOnP
          isLineBreak =
        (docs.flatMap fun x => (PegKit.validate x.2).diagnostics.map fun d =>
          (x.1.file ++ ":" ++ d.summary).toList) ++ [[]]) := by
  have hfield : ∀ x ∈ docs, ∀ d ∈ (PegKit.validate x.2).diagnostics, IsField d.message.toList :=
    fun x hx d hd => isField_of_mem_validate (hread x hx) hd
  have hline : ∀ x ∈ docs, ∀ d ∈ (PegKit.validate x.2).diagnostics, IsLine x.1.file.toList →
      IsLine (x.1.file ++ ":" ++ d.summary).toList := by
    intro x hx d hd hfile
    rw [← ReportLine.text_of]
    exact (ReportLine.isSound_of x.1.file (hfield x hx d hd)).isLine_text hfile
  constructor
  · intro x hx d hd
    obtain ⟨hcolon, hbreak⟩ := hfield x hx d hd
    refine ⟨?_, hcolon, hbreak, hline x hx d hd⟩
    rw [← ReportLine.text_of]
    exact (ReportLine.isSound_of x.1.file ⟨hcolon, hbreak⟩).cut?_text
  · intro hseveral hfiles
    rw [reportText_of_several (by simpa using hseveral), List.flatMap_map, splitOnP_textLines]
    · simp [List.map_flatMap, Function.comp_def]
    · intro l hl
      obtain ⟨x, hx, hl⟩ := List.mem_flatMap.1 hl
      obtain ⟨d, hd, rfl⟩ := List.mem_map.1 hl
      exact hline x hx d hd (hfiles x hx)

/-- A file identifier with colons, and tokens of two sources under two conventions; one of these has
comments between colons. -/
theorem reportText_reads_back_colons :
    let between : LexicalRules := ⟨[], [⟨":", ":"⟩], [], none⟩
    let docs : List (Document × List Token) :=
      [(⟨"c:/a:1.npeg", "a<-)"⟩, tokenize .standard "a<-)" ++ tokenize between ":x:a<-"),
        (⟨"b.npeg", ""⟩, tokenize .standard "")]
    (∀ x ∈ docs, AreRead x.2) ∧ docs.length ≠ 1 ∧ (∀ x ∈ docs, IsLine x.1.file.toList) ∧
    ReportLine.cut? "c:/a:1.npeg:warning:1:4:rule `a` is defined more than once" =
      some ⟨"c:/a:1.npeg", "warning", "1", "4", "rule `a` is defined more than once"⟩ ∧
    (reportText .text (docs.map fun x => (x.1, PegKit.validate x.2))).toList.splitOnP isLineBreak =
      ["c:/a:1.npeg:error:1:4:unmatched closing parenthesis".toList,
        "c:/a:1.npeg:warning:1:4:rule `a` is defined more than once".toList,
        "b.npeg:error:1:1:no rule definitions found".toList, []] := by
  intro between docs
  have hread : ∀ x ∈ docs, AreRead x.2 := by
    intro x hx t ht
    simp only [docs, List.mem_cons, List.not_mem_nil, or_false] at hx
    rcases hx with rfl | rfl
    · rcases List.mem_append.1 ht with ht | ht
      · exact ⟨_, _, ht⟩
      · exact ⟨_, _, ht⟩
    · exact ⟨_, _, ht⟩
  have hfiles : ∀ x ∈ docs, IsLine x.1.file.toList := by
    simp [docs, IsLine]
  have hseveral : docs.length ≠ 1 := by decide
  have hfirst :
      (PegKit.validate (tokenize .standard "a<-)" ++ tokenize between ":x:a<-")).diagnostics =
        [⟨.error, "unmatched closing parenthesis", ⟨3, 4, by decide⟩, 1, 4⟩,
          ⟨.warning, "rule `a` is defined more than once", ⟨3, 4, by decide⟩, 1, 4⟩] := by
    decide +kernel
  have hsecond : (PegKit.validate (tokenize .standard "")).diagnostics =
      [⟨.error, "no rule definitions found", ⟨0, 0, by decide⟩, 1, 1⟩] := by
    decide +kernel
  obtain ⟨hlines, hreport⟩ := reportText_reads_back hread
  have hcut := hlines _ List.mem_cons_self _ (hfirst ▸ List.mem_cons_of_mem _ List.mem_cons_self)
  have hall := hreport hseveral hfiles
  simp only [docs, List.flatMap_cons, List.flatMap_nil, hfirst, hsecond, List.map_cons,
    List.map_nil] at hall
  exact ⟨hread, hseveral, hfiles, hcut.1, hall⟩

end CommandLine

end PegKit
