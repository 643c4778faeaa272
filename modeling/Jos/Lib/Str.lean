import Mathlib.Data.List.Basic
import Jos.Lib.Bytes

/-!
# Pointers into strings

A string is kept as the list of its characters, without the null character behind them.  A pointer
into it may stand anywhere from its first character up to the null, and what is read through it has
to be one of these.

`p.PointsAt before cs` says that the pointer `p` has the characters `before` in front of it and the
characters `cs` from it on.
-/

namespace Bytes

/-- A string in memory, without the null character that ends it. -/
structure Str where
  chars : List Byte
  nonzero : 0 ∉ chars

/-- A pointer to the character at `pos` of a string. -/
structure StrPtr where
  str : Str
  pos : Nat

/-- The pointer to the first character. -/
def Str.start (w : Str) : StrPtr := ⟨w, 0⟩

namespace StrPtr

/-- The pointer `p + n`. -/
def add (p : StrPtr) (n : Nat) : StrPtr :=
  { p with pos := p.pos + n }

/-- The pointer `p - n`. -/
def sub (p : StrPtr) (n : Nat) : StrPtr :=
  { p with pos := p.pos - n }

/-- The character `p[i]`, if it is one of the string or the null behind it. -/
def char? (p : StrPtr) (i : Nat) : Option Byte :=
  (p.str.chars ++ [0])[p.pos + i]?

/-- The character `p[-1]`, if there is one. -/
def prev? (p : StrPtr) : Option Byte :=
  if p.pos = 0 then none else (p.str.chars ++ [0])[p.pos - 1]?

/-- The pointer has the characters `before` in front of it, and `cs` from it on. -/
structure PointsAt (p : StrPtr) (before cs : List Byte) : Prop where
  chars : p.str.chars = before ++ cs
  pos : p.pos = before.length

end StrPtr

variable {p : StrPtr} {before cs : List Byte} {c : Byte}

theorem Str.pointsAt_start (w : Str) :
  w.start.PointsAt [] w.chars
  := ⟨rfl, rfl⟩

namespace StrPtr.PointsAt

theorem drop (h : p.PointsAt before cs) :
  p.str.chars.drop p.pos = cs
  := by
  rw [h.chars, h.pos, List.drop_left]

theorem next (h : p.PointsAt before (c :: cs)) :
  (p.add 1).PointsAt (before ++ [c]) cs
  := by
  constructor
  case chars => simp [add, h.chars]
  case pos => simp [add, h.pos]

theorem ne_zero (h : p.PointsAt before cs) (hc : c ∈ cs) :
  c ≠ 0
  := by
  rintro rfl
  apply p.str.nonzero
  rw [h.chars]
  apply List.mem_append_right before hc

theorem head_ne_zero (h : p.PointsAt before (c :: cs)) :
  c ≠ 0
  := h.ne_zero List.mem_cons_self

/-- The characters and the null behind them are read. -/
theorem char?_eq (h : p.PointsAt before cs) {i : Nat} (hi : (cs ++ [0])[i]? = some c) :
  p.char? i = some c
  := by
  rw [char?, h.chars, h.pos, List.append_assoc, List.getElem?_append_right (Nat.le_add_right _ i),
    Nat.add_sub_cancel_left, hi]

end StrPtr.PointsAt

end Bytes
