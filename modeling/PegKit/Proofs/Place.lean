import PegKit.Location
import Mathlib.Data.List.DropRight
import Mathlib.Data.String.Basic

/-! A location is kept up to date character by character. Here it is read off the whole text before
it: the bytes of that text, its line feeds, and what stands behind the last of them. -/

namespace PegKit

/-- What stands behind the last line feed of `text`: all of it if there is none. -/
def lastLine (text : List Char) : List Char := text.rtakeWhile (· != '\n')

theorem lastLine_concat (text : List Char) (c : Char) :
    lastLine (text ++ [c]) = if c = '\n' then [] else lastLine text ++ [c] := by
  by_cases h : c = '\n' <;> simp [lastLine, h]

namespace Location

theorem step_offset (l : Location) (c : Char) : (l.step c).offset = l.offset + c.utf8Size := by
  unfold step
  split <;> rfl

theorem advance_offset (l : Location) (text : List Char) :
    (l.advance text).offset = l.offset + (String.ofList text).utf8ByteSize := by
  rw [String.utf8ByteSize_ofList]
  induction text generalizing l with
  | nil => rfl
  | cons c text ih => simp [ih, step_offset, Nat.add_assoc, Nat.add_comm]

/-- The place behind `text`, by counting. -/
def behind (text : List Char) : Location :=
  ⟨(String.ofList text).utf8ByteSize, 1 + text.count '\n', 1 + (lastLine text).length⟩

theorem behind_concat (text : List Char) (c : Char) :
    behind (text ++ [c]) = (behind text).step c := by
  have hsize : (String.ofList (text ++ [c])).utf8ByteSize =
      (String.ofList text).utf8ByteSize + c.utf8Size := by
    simp only [String.utf8ByteSize_ofList, String.utf8Len_append, String.utf8Len_cons,
      String.utf8Len_nil, Nat.zero_add]
  rw [behind, hsize]
  by_cases h : c = '\n' <;> simp [behind, step, lastLine_concat, h, Nat.add_assoc]

theorem start_advance (text : List Char) : start.advance text = behind text := by
  induction text using List.reverseRecOn with
  | nil => rfl
  | append_singleton text c ih => rw [advance_append, ih, behind_concat]; rfl

end Location

end PegKit
