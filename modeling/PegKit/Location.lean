/-! Places in a source text. A location counts UTF-8 bytes from zero, and lines and characters
from one. Only a line feed starts a new line: a carriage return is one column like any other
character. A span is a byte range that never runs backwards. -/

namespace PegKit

structure Location where
  offset : Nat
  line : Nat
  column : Nat
deriving DecidableEq, Repr, Inhabited

namespace Location

def start : Location := ⟨0, 1, 1⟩

def step (l : Location) (c : Char) : Location :=
  if c = '\n' then ⟨l.offset + c.utf8Size, l.line + 1, 1⟩
  else ⟨l.offset + c.utf8Size, l.line, l.column + 1⟩

def advance (l : Location) (text : List Char) : Location :=
  text.foldl step l

@[simp] theorem advance_nil (l : Location) : l.advance [] = l := rfl

@[simp] theorem advance_cons (l : Location) (c : Char) (text : List Char) :
    l.advance (c :: text) = (l.step c).advance text := rfl

theorem advance_append (l : Location) (a b : List Char) :
    l.advance (a ++ b) = (l.advance a).advance b := by
  simp [advance, List.foldl_append]

end Location

structure Span where
  start : Nat
  stop : Nat
  ordered : start ≤ stop
deriving DecidableEq, Repr

namespace Span

instance : Inhabited Span := ⟨⟨0, 0, Nat.le_refl 0⟩⟩

/-- The range from `a` to `b`, collapsed onto `a` if `b` lies before it. -/
def between (a b : Nat) : Span := ⟨a, max a b, Nat.le_max_left a b⟩

/-- The smallest span that covers both. -/
def join (s t : Span) : Span :=
  ⟨min s.start t.start, max s.stop t.stop, by have := s.ordered; have := t.ordered; omega⟩

end Span

end PegKit
