import PegKit.Proofs.Reach
import PegKit.Proofs.Seams
import PegKit.Proofs.Validity
import PegKit.Proofs.Views
import PegKit.Proofs.Warnings

/-! Valid grammars one after another. Each is balanced by itself, and the second does not begin with
a definition sign, so between the two nothing is matched and nothing is named that was not before.
What the second adds are the rules that the first does not define; the others it defines once more. -/

namespace PegKit

section heads

theorem withPrevious_append (previous : Option Token) (a b : List Token) :
    withPrevious previous (a ++ b) =
      withPrevious previous a ++ withPrevious (a.getLast?.or previous) b := by
  induction a generalizing previous with
  | nil => rfl
  | cons t a ih =>
    have hlast : a.getLast?.or (some t) = (t :: a).getLast?.or previous := by
      rw [List.getLast?_cons]
      cases a.getLast? <;> rfl
    rw [List.cons_append, withPrevious, withPrevious, ih, hlast, List.cons_append]

theorem heads_append (previous : Option Token) (a b : List Token) :
    heads previous (a ++ b) = heads previous a ++ heads (a.getLast?.or previous) b := by
  rw [heads, withPrevious_append, List.filterMap_append]
  rfl

theorem nameless_append (previous : Option Token) (a b : List Token) :
    nameless previous (a ++ b) = nameless previous a ++ nameless (a.getLast?.or previous) b := by
  rw [nameless, withPrevious_append, List.filter_append, List.map_append]
  rfl

/-- Where no sign lacks a name by itself, the first token is none, and it does not matter what
stands before it. -/
theorem withPrevious_of_named {tokens : List Token} (h : nameless none tokens = [])
    (previous : Option Token) :
    nameless previous tokens = [] ∧ heads previous tokens = heads none tokens := by
  cases tokens with
  | nil => exact ⟨rfl, rfl⟩
  | cons t rest =>
    have hk : t.kind ≠ .arrow := by
      intro hk
      simp [nameless, withPrevious, lacksName, hk, definedBy?_none] at h
    have hlacks : ∀ before, lacksName (before, t) = false := by simp [lacksName, hk]
    constructor
    · simpa [nameless, withPrevious, hlacks] using h
    · rw [heads_cons, heads_cons, definedBy?_of_ne_arrow _ hk, definedBy?_of_ne_arrow _ hk]

end heads

/-- Tokens with structure that make up a valid grammar. -/
structure IsGrammar (tokens : List Token) : Prop where
  balanced : ∃ word : DyckWord, word.toList = brackets tokens
  named : nameless none tokens = []
  defines : ∃ t ∈ tokens, t.kind = .arrow

theorem isValid_iff_isGrammar (tokens : List Token) :
    (validate tokens).isValid = true ↔ IsGrammar (significant tokens) := by
  rw [isValid_iff_filter, filter_isGrouping_eq_nil_iff, filter_isOtherError_eq_nil_iff]
  exact ⟨fun h => ⟨h.1, h.2.1, h.2.2⟩, fun h => ⟨h.balanced, h.named, h.defines⟩⟩

namespace IsGrammar
variable {a b : List Token}

theorem append (ha : IsGrammar a) (hb : IsGrammar b) : IsGrammar (a ++ b) where
  balanced := by
    obtain ⟨v, hv⟩ := ha.balanced
    obtain ⟨w, hw⟩ := hb.balanced
    refine ⟨v + w, ?_⟩
    rw [brackets, List.filterMap_append]
    exact congrArg₂ (· ++ ·) hv hw
  named := by
    rw [nameless_append, ha.named, (withPrevious_of_named hb.named _).1]
    rfl
  defines := by
    obtain ⟨t, ht, hk⟩ := ha.defines
    exact ⟨t, List.mem_append_left b ht, hk⟩

theorem heads_append (hb : IsGrammar b) : heads none (a ++ b) = heads none a ++ heads none b := by
  rw [PegKit.heads_append, (withPrevious_of_named hb.named _).2]

end IsGrammar

section names

theorem foldl_addName_eq (names : List String) (tokens : List Token) :
    tokens.foldl addName names =
      names ++ (tokens.foldl addName []).filter fun name => !names.contains name := by
  induction tokens using List.reverseRecOn with
  | nil => simp
  | append_singleton tokens t ih =>
    rw [List.foldl_concat, List.foldl_concat, ih]
    by_cases hn : t.text ∈ names <;> by_cases hf : t.text ∈ tokens.foldl addName [] <;>
      simp [addName, hn, hf]

/-- The definitions of rules that are defined before: those before among themselves, and one for
each rule of the others. -/
theorem length_redefinitions (names : List String) (tokens : List Token) :
    (redefinitions names tokens).length =
      (redefinitions [] tokens).length +
        ((tokens.foldl addName []).filter names.contains).length := by
  have hbehind := length_foldl_addName names tokens
  have halone := length_foldl_addName [] tokens
  have hsplit := (tokens.foldl addName []).length_eq_length_filter_add names.contains
  rw [foldl_addName_eq, List.length_append] at hbehind
  rw [List.length_nil] at halone
  omega

end names

theorem validate_of_significant_append {tokens a b : List Token}
    (h : significant tokens = significant a ++ significant b)
    (ha : (validate a).isValid = true) (hb : (validate b).isValid = true) :
    (validate tokens).isValid = true ∧
    (validate tokens).ruleNames = (validate a).ruleNames ++
      (validate b).ruleNames.filter (fun name => !(validate a).defines name) ∧
    (validate tokens).warnings.length = (validate a).warnings.length +
      (validate b).warnings.length +
      ((validate b).ruleNames.filter (validate a).defines).length := by
  rw [isValid_iff_isGrammar] at ha hb
  have hheads : heads none (significant tokens) =
      heads none (significant a) ++ heads none (significant b) := by
    rw [h, hb.heads_append]
  refine ⟨?_, ?_, ?_⟩
  · rw [isValid_iff_isGrammar, h]
    exact ha.append hb
  · rw [ruleNames_validate, hheads, List.foldl_append, foldl_addName_eq, ← ruleNames_validate,
      ← ruleNames_validate]
    rfl
  -- warnings are redefinitions and open strings, and both are counted apart
  · have hopen : tokens.countP Token.isOpenString =
        a.countP Token.isOpenString + b.countP Token.isOpenString := by
      rw [← countP_isOpenString_significant, h, List.countP_append,
        countP_isOpenString_significant, countP_isOpenString_significant]
    have hknown : ((heads none (significant b)).foldl addName []).filter
        ((heads none (significant a)).foldl addName []).contains =
          (validate b).ruleNames.filter (validate a).defines := by
      rw [← ruleNames_validate, ← ruleNames_validate]
      rfl
    rw [length_warnings, length_warnings, length_warnings, hheads, redefinitions_append,
      List.length_append, length_redefinitions ((heads none (significant a)).foldl addName []),
      hknown, hopen]
    omega

theorem validate_map_within (l : Location) (tokens : List Token) :
    (validate (tokens.map (Token.within l))).isValid = (validate tokens).isValid ∧
    (validate (tokens.map (Token.within l))).ruleNames = (validate tokens).ruleNames ∧
    (validate (tokens.map (Token.within l))).warnings.length =
      (validate tokens).warnings.length := by
  have halike : List.Forall₂ (Token.Alike fun _ _ => ()) (tokens.map (Token.within l)) tokens := by
    rw [List.forall₂_map_left_iff, List.forall₂_same]
    exact fun t _ => ⟨rfl, rfl, fun _ => rfl, rfl⟩
  obtain ⟨hrules, hseen⟩ := validate_alike halike
  have hcount : ∀ r : Report, r.warnings.length =
      (r.diagnostics.map (Diagnostic.seen fun _ _ => ())).countP (·.1 == .warning) := by
    intro r
    rw [Report.warnings, ← List.countP_eq_length_filter, List.countP_map]
    rfl
  exact ⟨isValid_eq_of_seen hseen, hrules, by rw [hcount, hcount, hseen]⟩

/-- Two valid sources with a line feed between them are a valid one. Its rules are those of the
first, then those of the second that the first does not define, and of each rule that both define
it warns once more. -/
theorem check_append_lineFeed {s t : String} (hs : (check s).isValid = true)
    (ht : (check t).isValid = true) :
    (check (s ++ "\n" ++ t)).isValid = true ∧
    (check (s ++ "\n" ++ t)).ruleNames =
      (check s).ruleNames ++ (check t).ruleNames.filter (fun name => !(check s).defines name) ∧
    (check (s ++ "\n" ++ t)).warnings.length =
      (check s).warnings.length + (check t).warnings.length +
        ((check t).ruleNames.filter (check s).defines).length := by
  have hsplit := significant_tokenize_append LexicalRules.isLineLocal_standard s t
  obtain ⟨hvalid, hnames, hwarnings⟩ :=
    validate_map_within (.behind (s.toList ++ ['\n'])) (tokenize .standard t)
  have hfirst : validate (tokenize .standard s).dropLast = check s :=
    validate_dropLast_tokenize .standard s
  have hboth := validate_of_significant_append hsplit (hfirst ▸ hs) (hvalid.trans ht)
  rw [hfirst, hnames, hwarnings] at hboth
  exact hboth

/-- The first source ends in an open string, and both define one of the rules twice. -/
theorem check_append_lineFeed_open :
    (check "a<-b\na<-'(").isValid = true ∧ (check "\tb<-')'\na<-(b)\na<-\"").isValid = true ∧
    (check "a<-b\na<-'(\n\tb<-')'\na<-(b)\na<-\"").isValid = true ∧
    (check "a<-b\na<-'(\n\tb<-')'\na<-(b)\na<-\"").ruleNames = ["a", "b"] ∧
    (check "a<-b\na<-'(\n\tb<-')'\na<-(b)\na<-\"").warnings.length = 2 + 2 + 1 := by
  have hs : (check "a<-b\na<-'(").isValid = true := by decide +kernel
  have ht : (check "\tb<-')'\na<-(b)\na<-\"").isValid = true := by decide +kernel
  obtain ⟨hvalid, hnames, hwarnings⟩ := check_append_lineFeed hs ht
  refine ⟨hs, ht, hvalid, hnames.trans ?_, hwarnings.trans ?_⟩ <;> decide +kernel

end PegKit
