import Mathlib.Data.List.Induction
import Mathlib.Tactic.Common
import Jos.Lib.Int32
import Jos.Lib.Str

/-!
# Formatted printing

`vprintfmt` goes through a format once.  What is not part of an escape is printed as it stands; in an
escape the flags are gone through one after the other, and the first character that is no flag says
what is printed.  If it says nothing the escape is printed as it stands too, for which the scanner
goes back to the `%`.

The format and the arguments are given.  A byte in front of the format or behind its null, an element
outside `error_string` and an argument of another type than the one there is are not read: such a run
is wrong.
-/

namespace Jos

namespace Printfmt

open Bytes

/-! ### The source -/

/-- The code of a character. -/
def code (c : Char) : Byte := BitVec.ofNat 8 c.toNat

/-- The characters of a string literal. -/
def chars (s : String) : List Byte := s.toList.map code

def MAXERROR : Int := 16

/-- The table `error_string`. -/
def errorStrings : List (Option Str) :=
  [none,
    some ⟨chars "unspecified error", by decide⟩,
    some ⟨chars "bad environment", by decide⟩,
    some ⟨chars "invalid parameter", by decide⟩,
    some ⟨chars "out of memory", by decide⟩,
    some ⟨chars "out of environments", by decide⟩,
    some ⟨chars "segmentation fault", by decide⟩,
    some ⟨chars "env is not recving", by decide⟩,
    some ⟨chars "unexpected end of file", by decide⟩,
    some ⟨chars "no free space on disk", by decide⟩,
    some ⟨chars "too many files are open", by decide⟩,
    some ⟨chars "file or block not found", by decide⟩,
    some ⟨chars "invalid path", by decide⟩,
    some ⟨chars "file already exists", by decide⟩,
    some ⟨chars "file is not a valid executable", by decide⟩,
    some ⟨chars "operation not supported", by decide⟩]

/-- The literals `"error %d"`, `"%s"` and `"(null)"`. -/
def ERROR_D : Str := ⟨chars "error %d", by decide⟩
def PERCENT_S : Str := ⟨chars "%s", by decide⟩
def NULL : Str := ⟨chars "(null)", by decide⟩

/-- An argument. A string is given by its characters, the null pointer by `none`. -/
inductive Arg where
  | int (v : Word)
  | long (v : Word)
  | longlong (v : BitVec 64)
  | string (s : Option Str)
  | pointer (v : Word)

/-- What can go wrong. -/
inductive Wrong where
  /-- The byte `i` of the format is read, which is not there. -/
  | format (i : Int)
  /-- The element `i` of `error_string` is read, which is not there. -/
  | errorString (i : Int)
  /-- An argument is asked for, and there is none of its type. -/
  | argument
  /-- The loops have been cut off. -/
  | endless
  deriving DecidableEq

/-- Read `fmt[i]`. -/
def charAt (fmt : StrPtr) (i : Nat) : Except Wrong Byte :=
  match fmt.char? i with
  | some c => .ok c
  | none => .error (.format (fmt.pos + i))

/-- Read `fmt[-1]`. -/
def charBefore (fmt : StrPtr) : Except Wrong Byte :=
  match fmt.prev? with
  | some c => .ok c
  | none => .error (.format (fmt.pos - 1))

/-- Read `error_string[i]`. -/
def errorString (i : Int) : Except Wrong (Option Str) :=
  if 0 ≤ i ∧ i < MAXERROR then .ok (errorStrings.getD i.toNat none) else .error (.errorString i)

/-- The text of an error, if it has one. -/
def errorText (err : Int) : Except Wrong (Option Str) :=
  if err ≥ MAXERROR then .ok none else errorString err

def vaInt : List Arg → Except Wrong (Word × List Arg)
  | .int v :: ap => .ok (v, ap)
  | _ => .error .argument

def vaLong : List Arg → Except Wrong (Word × List Arg)
  | .long v :: ap => .ok (v, ap)
  | _ => .error .argument

def vaLongLong : List Arg → Except Wrong (BitVec 64 × List Arg)
  | .longlong v :: ap => .ok (v, ap)
  | _ => .error .argument

def vaString : List Arg → Except Wrong (Option Str × List Arg)
  | .string s :: ap => .ok (s, ap)
  | _ => .error .argument

def vaPointer : List Arg → Except Wrong (Word × List Arg)
  | .pointer v :: ap => .ok (v, ap)
  | _ => .error .argument

/-- Print a number in the given base, with its padding in front. -/
def printnum (base : Nat) (hbase : 1 < base) (num : Nat) (width : Int) (padc : Byte) : List Int :=
  -- first recursively print all preceding (more significant) digits
  (if num ≥ base then
    printnum base hbase (num / base) (int32 (width - 1)) padc
  else
    -- the loop `while (--width > 0)`
    List.replicate (int32 (width - 1)).toNat (padc.toNat : Int))
  ++ [(((chars "0123456789abcdef").getD (num % base) 0).toNat : Int)]
termination_by num
decreasing_by
  apply Nat.div_lt_self (by omega) hbase

def getuint (ap : List Arg) (lflag : Int) : Except Wrong (BitVec 64 × List Arg) :=
  if lflag ≥ 2 then
    vaLongLong ap
  else if lflag ≠ 0 then do
    let (v, ap) ← vaLong ap
    .ok (v.setWidth 64, ap)
  else do
    let (v, ap) ← vaInt ap
    .ok (v.setWidth 64, ap)

def getint (ap : List Arg) (lflag : Int) : Except Wrong (BitVec 64 × List Arg) :=
  if lflag ≥ 2 then
    vaLongLong ap
  else if lflag ≠ 0 then do
    let (v, ap) ← vaLong ap
    .ok (v.signExtend 64, ap)
  else do
    let (v, ap) ← vaInt ap
    .ok (v.signExtend 64, ap)

/-- What the flags of an escape have set. -/
structure Flags where
  padc : Byte := code ' '
  width : Int := -1
  precision : Int := -1
  lflag : Int := 0
  altflag : Bool := false

/-- The label `process_precision`, with the precision just read. -/
def Flags.processPrecision (fl : Flags) (precision : Int) : Flags :=
  if fl.width < 0 then { fl with width := precision, precision := -1 }
  else { fl with precision := precision }

def isDigit (c : Byte) : Bool :=
  code '0' ≤ c ∧ c ≤ code '9'

/-- The loop of the width field, which has come to the digit `ch`. -/
def widthField : Nat → StrPtr → Byte → Int → Except Wrong (Int × StrPtr)
  | 0, _, _, _ => .error .endless
  | fuel + 1, fmt, ch, precision => do
      let precision := int32 (precision * 10 + ch.toNat - 48)
      let ch ← charAt fmt 0
      if isDigit ch then
        widthField fuel (fmt.add 1) ch precision
      else
        .ok (precision, fmt)

/-- The flags of an escape, up to the first character that is none. -/
def reswitch : Nat → StrPtr → Flags → List Arg → Except Wrong (Byte × StrPtr × Flags × List Arg)
  | 0, _, _, _ => .error .endless
  | fuel + 1, fmt, fl, ap => do
      let ch ← charAt fmt 0
      let fmt := fmt.add 1
      if ch = code '-' then
        reswitch fuel fmt { fl with padc := code '-' } ap
      else if ch = code '0' then
        reswitch fuel fmt { fl with padc := code '0' } ap
      else if isDigit ch then do
        let (precision, fmt) ← widthField fuel fmt ch 0
        reswitch fuel fmt (fl.processPrecision precision) ap
      else if ch = code '*' then do
        let (v, ap) ← vaInt ap
        reswitch fuel fmt (fl.processPrecision v.toInt) ap
      else if ch = code '.' then
        reswitch fuel fmt { fl with width := if fl.width < 0 then 0 else fl.width } ap
      else if ch = code '#' then
        reswitch fuel fmt { fl with altflag := true } ap
      else if ch = code 'l' then
        reswitch fuel fmt { fl with lflag := int32 (fl.lflag + 1) } ap
      else
        .ok (ch, fmt, fl, ap)

/-- The number of characters of a string, but `size` at most. -/
def strnlen (s : Str) (size : Nat) : Nat :=
  min s.chars.length size

/-- The second loop of the conversion `s`, over the characters of the string. -/
def putChars (altflag : Bool) : List Byte → Int → Int → List Int × Int
  | [], _, width => ([], width)
  | ch :: cs, precision, width =>
      if precision < 0 ∨ precision - 1 ≥ 0 then
        let (out, width') :=
          putChars altflag cs (if precision < 0 then precision else precision - 1) (int32 (width - 1))
        ((if altflag ∧ (ch.toInt < 32 ∨ ch.toInt > 126) then 63 else ch.toInt) :: out, width')
      else
        ([], width)

/-- The conversion `s`. -/
def putString (fl : Flags) (p : Str) : List Int :=
  let pads := fl.width > 0 ∧ fl.padc ≠ code '-'
  let width := if pads then int32 (fl.width - strnlen p (fl.precision % 2 ^ 32).toNat) else fl.width
  -- the loops `for (; width > 0; width--)`
  let before := if pads then List.replicate width.toNat (fl.padc.toNat : Int) else []
  let width := if pads ∧ width > 0 then 0 else width
  let (out, width) := putChars fl.altflag p.chars fl.precision width
  before ++ out ++ List.replicate width.toNat 32

/-- The characters that are put for a conversion, and the arguments that are left. There are none for
a character that says nothing. -/
def convert (printfmt : Str → List Arg → Except Wrong (List Int)) (ch : Byte) (fl : Flags)
    (ap : List Arg) : Except Wrong (Option (List Int × List Arg)) :=
  if ch = code 'c' then do
    let (v, ap) ← vaInt ap
    .ok (some ([v.toInt], ap))
  else if ch = code 'e' then do
    let (v, ap) ← vaInt ap
    let err := if v.toInt < 0 then int32 (-v.toInt) else v.toInt
    let p ← errorText err
    let out ← match p with
      | none => printfmt ERROR_D [.int (BitVec.ofInt 32 err)]
      | some p => printfmt PERCENT_S [.string (some p)]
    .ok (some (out, ap))
  else if ch = code 's' then do
    let (p, ap) ← vaString ap
    .ok (some (putString fl (p.getD NULL), ap))
  else if ch = code 'd' then do
    let (num, ap) ← getint ap fl.lflag
    .ok (some (if num.toInt < 0 then 45 :: printnum 10 (by decide) (-num).toNat fl.width fl.padc
      else printnum 10 (by decide) num.toNat fl.width fl.padc, ap))
  else if ch = code 'u' then do
    let (num, ap) ← getuint ap fl.lflag
    .ok (some (printnum 10 (by decide) num.toNat fl.width fl.padc, ap))
  else if ch = code 'o' then do
    let (num, ap) ← getuint ap fl.lflag
    .ok (some (printnum 8 (by decide) num.toNat fl.width fl.padc, ap))
  else if ch = code 'p' then do
    let (v, ap) ← vaPointer ap
    .ok (some (48 :: 120 :: printnum 16 (by decide) v.toNat fl.width fl.padc, ap))
  else if ch = code 'x' then do
    let (num, ap) ← getuint ap fl.lflag
    .ok (some (printnum 16 (by decide) num.toNat fl.width fl.padc, ap))
  else if ch = code '%' then
    .ok (some ([(ch.toNat : Int)], ap))
  else
    .ok none

/-- The loop `for (fmt--; fmt[-1] != '%'; fmt--)`, when `fmt` was decremented once. -/
def backUp : Nat → StrPtr → Except Wrong StrPtr
  | 0, _ => .error .endless
  | fuel + 1, fmt => do
      let ch ← charBefore fmt
      if ch ≠ code '%' then
        backUp fuel (fmt.sub 1)
      else
        .ok fmt

/-- Go through a format, and collect what is put. The loops make `fuel` turns at most. -/
def vprintfmt : Nat → StrPtr → List Arg → Except Wrong (List Int)
  | 0, _, _ => .error .endless
  | fuel + 1, fmt, ap => do
      let ch ← charAt fmt 0
      let fmt := fmt.add 1
      if ch ≠ code '%' then
        if ch = 0 then
          .ok []
        else do
          let out ← vprintfmt fuel fmt ap
          .ok ((ch.toNat : Int) :: out)
      else do
        let (ch, fmt, fl, ap) ← reswitch fuel fmt {} ap
        match ← convert (fun fmt ap => vprintfmt fuel fmt.start ap) ch fl ap with
        | some (field, ap) => do
            let out ← vprintfmt fuel fmt ap
            .ok (field ++ out)
        | none => do
            let fmt ← backUp fuel (fmt.sub 1)
            let out ← vprintfmt fuel fmt ap
            .ok (((code '%').toNat : Int) :: out)

/-! ### What a format says -/

/-- The characters that are flags. -/
def isFlag (c : Byte) : Bool :=
  isDigit c ∨ c ∈ chars "-*.#l"

/-- The characters that say what is printed. -/
def isConversion (c : Byte) : Bool :=
  c ∈ chars "cesduopx%"

/-- A part of a format. -/
inductive Item where
  /-- A character that is printed as it stands. -/
  | lit (c : Byte)
  /-- A `%`, flags, and a character that says what is printed. -/
  | conversion (flags : List Byte) (c : Byte)
  /-- A `%` that is printed as it stands, as no such character comes after the flags behind it. -/
  | stray (flags : List Byte)

/-- The parts of a format, of which a `%` and the given flags have been read. -/
def itemsFrom : Option (List Byte) → List Byte → List Item
  | none, [] => []
  | none, c :: cs =>
      if c = code '%' then itemsFrom (some []) cs else .lit c :: itemsFrom none cs
  | some flags, [] => .stray flags :: flags.map .lit
  | some flags, c :: cs =>
      if isFlag c then
        itemsFrom (some (flags ++ [c])) cs
      else if isConversion c then
        .conversion flags c :: itemsFrom none cs
      else
        .stray flags :: ((flags ++ [c]).map .lit ++ itemsFrom none cs)

/-- The parts of a format. -/
def items (fmt : List Byte) : List Item :=
  itemsFrom none fmt

/-- The types of the arguments. -/
inductive Kind where
  | int
  | long
  | longlong
  | string
  | pointer

def Arg.kind : Arg → Kind
  | .int _ => .int
  | .long _ => .long
  | .longlong _ => .longlong
  | .string _ => .string
  | .pointer _ => .pointer

/-- The type of an integer, by the number of times that `l` is given. -/
def integerKind (lflag : Int) : Kind :=
  if lflag ≥ 2 then .longlong else if lflag ≠ 0 then .long else .int

/-- The types of the arguments that a conversion prints. -/
def printedKinds (lflag : Int) (c : Byte) : List Kind :=
  if c = code 'c' ∨ c = code 'e' then [.int]
  else if c = code 's' then [.string]
  else if c = code 'p' then [.pointer]
  else if c = code '%' then []
  else [integerKind lflag]

/-- The number of `*` among the flags, each of which asks for an argument. -/
def stars (flags : List Byte) : Nat :=
  flags.count (code '*')

/-- The value of `lflag` after the flags. -/
def lflagOf (flags : List Byte) : Int :=
  int32 (flags.count (code 'l'))

/-- The types of the arguments that a part asks for. -/
def Item.kinds : Item → List Kind
  | .lit _ => []
  | .conversion flags c => List.replicate (stars flags) .int ++ printedKinds (lflagOf flags) c
  | .stray flags => List.replicate (stars flags) .int

/-- The types of the arguments that a format asks for. -/
def kinds (fmt : List Byte) : List Kind :=
  (items fmt).flatMap Item.kinds

/-- Replace the conversions by fields, one after the other, and leave everything else as it stands. -/
def weave : List Item → List (List Int) → List Int
  | [], _ => []
  | .lit c :: items, fields => (c.toNat : Int) :: weave items fields
  | .stray _ :: items, fields => ((code '%').toNat : Int) :: weave items fields
  | .conversion _ _ :: items, field :: fields => field ++ weave items fields
  | .conversion _ _ :: items, [] => weave items []

def Item.isConversion : Item → Bool
  | .conversion _ _ => true
  | _ => false

/-- The least value of an `int`. -/
def INT_MIN : Word := 0x80000000

/-- The part is a conversion `e` of the least `int`. -/
def Item.Negates (args : List Arg) : Item → Prop
  | .conversion flags c => c = code 'e' ∧ args[stars flags]? = some (.int INT_MIN)
  | _ => False

/-- No conversion `e` is given the least `int`. -/
def ErrorsFit : List Item → List Arg → Prop
  | [], _ => True
  | item :: items, args => ¬ item.Negates args ∧ ErrorsFit items (args.drop item.kinds.length)

/-- The format `fmt` with the arguments is printed: the loops end, nothing is read outside the format
and outside `error_string`, and what is no conversion is printed as it stands. -/
def Prints (fmt : Str) (args : List Arg) : Prop :=
  ∃ n, ∀ fuel, n ≤ fuel → ∃ fields, fields.length = (items fmt.chars).countP Item.isConversion
    ∧ vprintfmt fuel fmt.start args = .ok (weave (items fmt.chars) fields)

/-! ### The parts of a format -/

variable {fmt : StrPtr} {before cs flags tail : List Byte} {c : Byte} {fl : Flags}
  {ap args extra : List Arg} {fuel : Nat}

theorem itemsFrom_flags (given : List Byte) (hflags : ∀ c ∈ flags, isFlag c = true) :
  itemsFrom (some given) (flags ++ cs) = itemsFrom (some (given ++ flags)) cs
  := by
  induction flags generalizing given with
  | nil => simp
  | cons c flags ih =>
      rw [List.forall_mem_cons] at hflags
      rw [List.cons_append, itemsFrom, if_pos hflags.1, ih _ hflags.2, List.append_assoc]
      rfl

theorem items_percent (hflags : ∀ c ∈ flags, isFlag c = true) :
  items (code '%' :: (flags ++ cs)) = itemsFrom (some flags) cs
  := by
  rw [items, itemsFrom, if_pos rfl, itemsFrom_flags [] hflags, List.nil_append]

/-- A flag is not the `%`. -/
theorem ne_percent_of_isFlag (hc : isFlag c = true) :
  c ≠ code '%'
  := by
  rintro rfl
  revert hc
  decide

theorem items_literal (hc : c ≠ code '%') :
  items (c :: cs) = .lit c :: items cs
  := by
  rw [items, itemsFrom, if_neg hc]
  rfl

theorem items_literals (hflags : ∀ c ∈ flags, c ≠ code '%') :
  items (flags ++ cs) = flags.map .lit ++ items cs
  := by
  induction flags with
  | nil => rfl
  | cons c flags ih =>
      rw [List.forall_mem_cons] at hflags
      rw [List.cons_append, items_literal hflags.1, ih hflags.2]
      rfl

theorem items_conversion (hflags : ∀ c ∈ flags, isFlag c = true) (hc : isFlag c = false)
    (hconv : isConversion c = true) :
  items (code '%' :: (flags ++ c :: cs)) = .conversion flags c :: items cs
  := by
  rw [items_percent hflags, itemsFrom, hc, if_neg Bool.false_ne_true, if_pos hconv]
  rfl

/-- Where the escape says nothing the `%` stands for itself. -/
theorem items_stray (hflags : ∀ c ∈ flags, isFlag c = true)
    (hcs : ∀ c ∈ cs.head?, isFlag c = false ∧ isConversion c = false) :
  items (code '%' :: (flags ++ cs)) = .stray flags :: items (flags ++ cs)
  := by
  have hne : ∀ c ∈ flags, c ≠ code '%' := by
    intro c hc
    apply ne_percent_of_isFlag (hflags c hc)
  rw [items_percent hflags, items_literals hne]
  rcases cs with _ | ⟨c, cs⟩
  · simp [itemsFrom, items]
  · rcases hcs c rfl with ⟨hflag, hconv⟩
    have hc : c ≠ code '%' := by
      rintro rfl
      revert hconv
      decide
    rw [items_literal hc]
    simp [itemsFrom, hflag, hconv, items]

/-! ### Reading a format -/

theorem charAt_eq (h : fmt.PointsAt before cs) (hc : (cs ++ [0]).head? = some c) :
  charAt fmt 0 = .ok c
  := by
  rw [List.head?_eq_getElem?] at hc
  rw [charAt, h.char?_eq hc]

theorem charBefore_eq (h : fmt.PointsAt (before ++ [c]) cs) :
  charBefore fmt = .ok c
  := by
  have hlen : (before ++ [c]).length - 1 = before.length := by simp
  have hpos : (before ++ [c]).length ≠ 0 := by simp
  rw [charBefore, StrPtr.prev?, h.chars, h.pos, if_neg hpos, hlen, List.append_assoc,
    List.append_assoc, List.getElem?_append_right (Nat.le_refl _), Nat.sub_self]
  rfl

/-- The pointer back at an earlier place. -/
theorem pointsAt_sub (h : fmt.PointsAt (before ++ flags) cs) :
  (fmt.sub flags.length).PointsAt before (flags ++ cs)
  := by
  constructor
  case chars => rw [StrPtr.sub, h.chars, List.append_assoc]
  case pos => rw [StrPtr.sub, h.pos, List.length_append, Nat.add_sub_cancel]

theorem pointsAt_add (h : fmt.PointsAt before (flags ++ cs)) :
  (fmt.add flags.length).PointsAt (before ++ flags) cs
  := by
  constructor
  case chars => rw [StrPtr.add, h.chars, List.append_assoc]
  case pos => rw [StrPtr.add, h.pos, List.length_append]

theorem add_add (fmt : StrPtr) (m n : Nat) :
  (fmt.add m).add n = fmt.add (m + n)
  := by
  simp [StrPtr.add, Nat.add_assoc]

/-- The width field takes the digits that there are. -/
theorem widthField_eq (h : fmt.PointsAt before (flags ++ tail)) (hflags : ∀ c ∈ flags, isDigit c = true)
    (hc : (tail ++ [0]).head? = some c) (hend : isDigit c = false) (hfuel : flags.length < fuel)
    (ch : Byte) (precision : Int) :
  ∃ v, widthField fuel fmt ch precision = .ok (v, fmt.add flags.length)
  := by
  induction flags generalizing fuel fmt before ch precision with
  | nil =>
      rcases fuel with _ | fuel
      · cases hfuel
      · use int32 (precision * 10 + ch.toNat - 48)
        rw [widthField, charAt_eq h hc]
        change (if isDigit c = true then _ else _) = _
        rw [hend, if_neg Bool.false_ne_true]
        rfl
  | cons d flags ih =>
      rw [List.forall_mem_cons] at hflags
      rcases fuel with _ | fuel
      · cases hfuel
      · rcases ih h.next hflags.2 (Nat.lt_of_succ_lt_succ hfuel) d
          (int32 (precision * 10 + ch.toNat - 48)) with ⟨v, hrest⟩
        use v
        rw [widthField, charAt_eq h rfl]
        change (if isDigit d = true then _ else _) = _
        rw [hflags.1, if_pos rfl, hrest, add_add, List.length_cons, Nat.add_comm]

/-! ### The flags -/

/-- The scanner has read the flags of an escape and the character `c` behind them, and has taken the
arguments that the `*` among them ask for. -/
def Scanned (r : Except Wrong (Byte × StrPtr × Flags × List Arg)) (c : Byte) (fmt : StrPtr)
    (l : Int) (args : List Arg) : Prop :=
  ∃ fl, r = .ok (c, fmt, fl, args) ∧ fl.lflag = int32 l

theorem stars_cons_of_ne (hc : c ≠ code '*') :
  stars (c :: flags) = stars flags
  := List.count_cons_of_ne hc

theorem isFlag_of_isDigit (hc : isDigit c = true) :
  isFlag c = true
  := by
  simp [isFlag, hc]

/-- The flags that are neither digits nor ask for an argument or a size. -/
theorem flag_cases (hc : isFlag c = true) (hdigit : isDigit c = false) :
  c = code '-' ∨ c = code '*' ∨ c = code '.' ∨ c = code '#' ∨ c = code 'l'
  := by
  simpa [isFlag, hdigit, chars] using hc

/-- The first digits among the flags. -/
theorem digits_split (hflags : ∀ c ∈ flags, isFlag c = true) (hc : (tail ++ [0]).head? = some c)
    (hend : isFlag c = false) :
  ∃ digits others d, flags = digits ++ others ∧ (∀ c ∈ digits, isDigit c = true)
    ∧ ((others ++ tail) ++ [0]).head? = some d ∧ isDigit d = false
  := by
  induction flags with
  | nil =>
      refine ⟨[], [], c, rfl, List.forall_mem_nil _, hc, ?_⟩
      apply Bool.eq_false_iff.mpr
      intro hdigit
      rw [isFlag_of_isDigit hdigit] at hend
      cases hend
  | cons f flags ih =>
      rw [List.forall_mem_cons] at hflags
      rcases hdigit : isDigit f
      · exact ⟨[], f :: flags, f, rfl, List.forall_mem_nil _, rfl, hdigit⟩
      · rcases ih hflags.2 with ⟨digits, others, d, rfl, hdigits, hd, hnot⟩
        exact ⟨f :: digits, others, d, rfl, List.forall_mem_cons.mpr ⟨hdigit, hdigits⟩, hd, hnot⟩

theorem count_digits {digits : List Byte} (hdigits : ∀ c ∈ digits, isDigit c = true)
    (hc : isDigit c = false) :
  (digits ++ flags).count c = flags.count c
  := by
  rw [List.count_append, List.count_eq_zero_of_not_mem, Nat.zero_add]
  intro hmem
  rw [hdigits c hmem] at hc
  cases hc

theorem reswitch_eq {kinds : List Kind} (l : Int) (h : fmt.PointsAt before (flags ++ tail))
    (hflags : ∀ c ∈ flags, isFlag c = true) (hc : (tail ++ [0]).head? = some c)
    (hend : isFlag c = false) (hfuel : flags.length < fuel) (hl : fl.lflag = int32 l)
    (hargs : args.map Arg.kind = List.replicate (stars flags) .int ++ kinds) :
  Scanned (reswitch fuel fmt fl args) c (fmt.add (flags.length + 1)) (l + flags.count (code 'l'))
    (args.drop (stars flags))
  := by
  induction fuel generalizing fmt before flags fl args l with
  | zero => cases hfuel
  | succ fuel ih =>
      rcases flags with _ | ⟨d, flags⟩
      · -- the character behind the flags
        have hne : ∀ x, isFlag x = true → c ≠ x := by
          rintro x hx rfl
          rw [hend] at hx
          cases hx
        have hdigit : isDigit c = false := by
          apply Bool.eq_false_iff.mpr
          intro hdigit
          apply hne c (isFlag_of_isDigit hdigit) rfl
        refine ⟨fl, ?_, ?_⟩
        · rw [reswitch, charAt_eq h hc]
          change (if c = code '-' then _ else _) = _
          rw [if_neg (hne _ (by decide)), if_neg (hne _ (by decide)), hdigit,
            if_neg Bool.false_ne_true, if_neg (hne _ (by decide)), if_neg (hne _ (by decide)),
            if_neg (hne _ (by decide)), if_neg (hne _ (by decide))]
          rfl
        · simpa using hl
      rw [List.forall_mem_cons] at hflags
      have hfuel' : flags.length < fuel := Nat.lt_of_succ_lt_succ hfuel
      have hplace : fmt.add ((d :: flags).length + 1) = (fmt.add 1).add (flags.length + 1) := by
        rw [add_add, List.length_cons, Nat.add_comm 1]
      rw [hplace]
      have hplain : ∀ fl', fl'.lflag = fl.lflag → d ≠ code '*' → d ≠ code 'l' →
          Scanned (reswitch fuel (fmt.add 1) fl' args) c ((fmt.add 1).add (flags.length + 1))
            (l + (d :: flags).count (code 'l')) (args.drop (stars (d :: flags))) := by
        intro fl' hfl' hstar hlong
        rw [stars_cons_of_ne hstar] at hargs
        rw [stars_cons_of_ne hstar, List.count_cons_of_ne hlong]
        apply ih l h.next hflags.2 hfuel' (hfl'.trans hl) hargs
      rw [reswitch, charAt_eq h rfl]
      change Scanned (if d = code '-' then _ else _) _ _ _ _
      by_cases hminus : d = code '-'
      · rw [if_pos hminus]
        subst hminus
        apply hplain
        · rfl
        · decide
        · decide
      rw [if_neg hminus]
      by_cases hzero : d = code '0'
      · rw [if_pos hzero]
        subst hzero
        apply hplain
        · rfl
        · decide
        · decide
      rw [if_neg hzero]
      rcases hdigit : isDigit d
      · rw [if_neg Bool.false_ne_true]
        rcases flag_cases hflags.1 hdigit with rfl | rfl | rfl | rfl | rfl
        · cases hminus rfl
        · -- `*` takes an argument
          rw [stars, List.count_cons_self, List.replicate_succ, List.cons_append] at hargs
          rcases args with _ | ⟨arg, args⟩
          · cases hargs
          rcases arg with v | v | v | v | v
          case int =>
            rw [List.map_cons, List.cons.injEq] at hargs
            have hproc : (fl.processPrecision v.toInt).lflag = int32 l := by
              rw [Flags.processPrecision]
              split
              case isTrue => apply hl
              case isFalse => apply hl
            rw [if_pos rfl, stars, List.count_cons_self, List.drop_succ_cons,
              List.count_cons_of_ne (by decide)]
            apply ih l h.next hflags.2 hfuel' hproc hargs.2
          all_goals cases hargs
        · rw [if_neg (by decide), if_pos rfl]
          apply hplain
          · rfl
          · decide
          · decide
        · rw [if_neg (by decide), if_neg (by decide), if_pos rfl]
          apply hplain
          · rfl
          · decide
          · decide
        · -- `l` is counted
          have hcount : l + ((code 'l' :: flags).count (code 'l') : Nat)
              = l + 1 + (flags.count (code 'l') : Nat) := by
            rw [List.count_cons_self]
            push_cast
            omega
          have hlong : int32 (fl.lflag + 1) = int32 (l + 1) := by
            rw [hl, int32_add]
          rw [stars_cons_of_ne (by decide)] at hargs ⊢
          rw [if_neg (by decide), if_neg (by decide), if_neg (by decide), if_pos rfl, hcount]
          apply ih (l + 1) h.next hflags.2 hfuel' hlong hargs
      · -- a width or a precision
        rw [if_pos rfl]
        rcases digits_split hflags.2 hc hend with ⟨digits, others, e, rfl, hdigits, he, hnot⟩
        have hne : ∀ x, isDigit x = false → d ≠ x := by
          rintro x hx rfl
          rw [hdigit] at hx
          cases hx
        have hstars : stars (d :: (digits ++ others)) = stars others := by
          rw [stars_cons_of_ne (hne _ (by decide)), stars, count_digits hdigits (by decide)]
          rfl
        have hlongs : (d :: (digits ++ others)).count (code 'l') = others.count (code 'l') := by
          rw [List.count_cons_of_ne (hne _ (by decide)), count_digits hdigits (by decide)]
        rw [List.length_append] at hfuel'
        rw [List.cons_append, List.append_assoc] at h
        have hnext := h.next
        have hdigits' : digits.length < fuel := by omega
        have hothers' : others.length < fuel := by omega
        rcases widthField_eq hnext hdigits he hnot hdigits' d 0 with ⟨v, hwidth⟩
        have hproc : (fl.processPrecision v).lflag = int32 l := by
          rw [Flags.processPrecision]
          split
          case isTrue => apply hl
          case isFalse => apply hl
        rw [hstars] at hargs ⊢
        rw [hlongs]
        have hothers : ∀ c ∈ others, isFlag c = true := by
          intro c hc
          apply hflags.2 c (List.mem_append_right digits hc)
        rw [hwidth, List.length_append, Nat.add_assoc, ← add_add]
        apply ih l (pointsAt_add hnext) hothers hothers' hproc hargs

/-- The pointer goes back to the `%` of the escape. -/
theorem backUp_eq (h : fmt.PointsAt (before ++ code '%' :: flags) cs)
    (hflags : ∀ c ∈ flags, c ≠ code '%') (hfuel : flags.length < fuel) :
  ∃ fmt', backUp fuel fmt = .ok fmt' ∧ fmt'.PointsAt (before ++ [code '%']) (flags ++ cs)
  := by
  induction flags using List.reverseRecOn generalizing fmt cs fuel with
  | nil =>
      rcases fuel with _ | fuel
      · cases hfuel
      · refine ⟨fmt, ?_, h⟩
        rw [backUp, charBefore_eq h]
        rfl
  | append_singleton flags c ih =>
      rw [List.forall_mem_append, List.forall_mem_singleton] at hflags
      rw [List.length_append, List.length_singleton] at hfuel
      rw [← List.cons_append, ← List.append_assoc] at h
      rcases fuel with _ | fuel
      · cases hfuel
      · rcases ih (pointsAt_sub h) hflags.1 (Nat.lt_of_succ_lt_succ hfuel) with ⟨fmt', hback, hp⟩
        rw [List.append_assoc]
        refine ⟨fmt', ?_, hp⟩
        rw [backUp, charBefore_eq h]
        change (if c ≠ code '%' then _ else _) = _
        rw [if_pos hflags.2]
        apply hback

/-! ### The conversions -/

/-- Apart from the least value, a number is not negative when it has been negated. -/
theorem negated_nonneg {v : Word} (hv : v ≠ INT_MIN) :
  0 ≤ if v.toInt < 0 then int32 (-v.toInt) else v.toInt
  := by
  split
  case isTrue hneg =>
    have hlo := BitVec.le_toInt v
    have hne : v.toInt ≠ -2 ^ 31 := by
      intro heq
      apply hv
      apply BitVec.eq_of_toInt_eq heq
    rw [int32_eq]
    · omega
    · omega
    · omega
  case isFalse hneg => omega

/-- The least value stays as it is. -/
theorem negated_least :
  (if INT_MIN.toInt < 0 then int32 (-INT_MIN.toInt) else INT_MIN.toInt) = -2 ^ 31
  := by
  decide

/-- The type of an integer that is printed decides which variant it is. -/
theorem integerKind_cases {arg : Arg} {lflag : Int} (h : arg.kind = integerKind lflag) :
  (lflag ≥ 2 ∧ ∃ v, arg = .longlong v) ∨ (¬ lflag ≥ 2 ∧ lflag ≠ 0 ∧ ∃ v, arg = .long v)
    ∨ (¬ lflag ≥ 2 ∧ ¬ lflag ≠ 0 ∧ ∃ v, arg = .int v)
  := by
  rw [integerKind] at h
  split at h
  case isTrue h2 =>
    cases arg with
    | longlong v => exact Or.inl ⟨h2, v, rfl⟩
    | _ => cases h
  case isFalse h2 =>
    right
    split at h
    case isTrue h0 =>
      cases arg with
      | long v => exact Or.inl ⟨h2, h0, v, rfl⟩
      | _ => cases h
    case isFalse h0 =>
      cases arg with
      | int v => exact Or.inr ⟨h2, h0, v, rfl⟩
      | _ => cases h

theorem getuint_eq {lflag : Int} {kinds : List Kind}
    (h : args.map Arg.kind = integerKind lflag :: kinds) :
  ∃ num, getuint args lflag = .ok (num, args.tail)
  := by
  rcases List.map_eq_cons_iff.mp h with ⟨arg, ap, rfl, harg, -⟩
  rw [getuint]
  obtain ⟨h2, v, rfl⟩ | ⟨h2, h0, v, rfl⟩ | ⟨h2, h0, v, rfl⟩ := integerKind_cases harg
  · rw [if_pos h2]
    exact ⟨v, rfl⟩
  · rw [if_neg h2, if_pos h0]
    exact ⟨_, rfl⟩
  · rw [if_neg h2, if_neg h0]
    exact ⟨_, rfl⟩

theorem getint_eq {lflag : Int} {kinds : List Kind}
    (h : args.map Arg.kind = integerKind lflag :: kinds) :
  ∃ num, getint args lflag = .ok (num, args.tail)
  := by
  rcases List.map_eq_cons_iff.mp h with ⟨arg, ap, rfl, harg, -⟩
  rw [getint]
  obtain ⟨h2, v, rfl⟩ | ⟨h2, h0, v, rfl⟩ | ⟨h2, h0, v, rfl⟩ := integerKind_cases harg
  · rw [if_pos h2]
    exact ⟨v, rfl⟩
  · rw [if_neg h2, if_pos h0]
    exact ⟨_, rfl⟩
  · rw [if_neg h2, if_neg h0]
    exact ⟨_, rfl⟩

/-- The messages of the conversion `e` are printed. -/
def PrintsErrors (printfmt : Str → List Arg → Except Wrong (List Int)) : Prop :=
  (∀ v, ∃ out, printfmt ERROR_D [.int v] = .ok out)
    ∧ ∀ p, ∃ out, printfmt PERCENT_S [.string p] = .ok out

theorem vprintfmt_errors (fuel : Nat) :
  PrintsErrors (fun fmt ap => vprintfmt (fuel + 9) fmt.start ap)
  := ⟨fun _ => ⟨_, rfl⟩, fun _ => ⟨_, rfl⟩⟩

/-- What a conversion comes to: a field, or for the least `int` an element that is not there. -/
def Converts (c : Byte) (args : List Arg) (n : Nat)
    (r : Except Wrong (Option (List Int × List Arg))) : Prop :=
  ((c = code 'e' ∧ args[0]? = some (.int INT_MIN)) ∧ r = .error (.errorString (-2 ^ 31))) ∨
  (¬ (c = code 'e' ∧ args[0]? = some (.int INT_MIN)) ∧ ∃ field, r = .ok (some (field, args.drop n)))

theorem convert_error {printfmt : Str → List Arg → Except Wrong (List Int)}
    (hprint : PrintsErrors printfmt) (v : Word) (ap : List Arg) :
  Converts (code 'e') (.int v :: ap) 1 (convert printfmt (code 'e') fl (.int v :: ap))
  := by
  have hrun : convert printfmt (code 'e') fl (.int v :: ap) = (do
      let err := if v.toInt < 0 then int32 (-v.toInt) else v.toInt
      let p ← errorText err
      let out ← match p with
        | none => printfmt ERROR_D [.int (BitVec.ofInt 32 err)]
        | some p => printfmt PERCENT_S [.string (some p)]
      .ok (some (out, ap))) := rfl
  rw [hrun]
  by_cases hv : v = INT_MIN
  · left
    subst hv
    refine ⟨⟨rfl, rfl⟩, ?_⟩
    rw [negated_least]
    rfl
  · right
    refine ⟨?_, ?_⟩
    · rintro ⟨-, hmin⟩
      apply hv
      simpa using hmin
    have hnonneg := negated_nonneg hv
    generalize (if v.toInt < 0 then int32 (-v.toInt) else v.toInt) = err at hnonneg
    have hp : ∃ p, errorText err = .ok p := by
      rw [errorText]
      by_cases hmax : err ≥ MAXERROR
      · exact ⟨none, if_pos hmax⟩
      · rw [if_neg hmax, errorString, if_pos ⟨hnonneg, by omega⟩]
        exact ⟨_, rfl⟩
    rcases hp with ⟨p, hp⟩
    change ∃ field, (errorText err >>= _) = _
    rw [hp]
    rcases p with _ | p
    · rcases hprint.1 (BitVec.ofInt 32 err) with ⟨out, hout⟩
      use out
      change (printfmt ERROR_D _ >>= _) = _
      rw [hout]
      rfl
    · rcases hprint.2 (some p) with ⟨out, hout⟩
      use out
      change (printfmt PERCENT_S _ >>= _) = _
      rw [hout]
      rfl

theorem conversion_cases (hconv : isConversion c = true) :
  c = code 'c' ∨ c = code 'e' ∨ c = code 's' ∨ c = code 'd' ∨ c = code 'u' ∨ c = code 'o'
    ∨ c = code 'p' ∨ c = code 'x' ∨ c = code '%'
  := by
  simpa [isConversion, chars] using hconv

/-- A conversion other than `e` gives a field. -/
theorem converts_field {n : Nat} {field : List Int} (hc : c ≠ code 'e')
    {r : Except Wrong (Option (List Int × List Arg))} (hr : r = .ok (some (field, args.drop n))) :
  Converts c args n r
  := by
  right
  exact ⟨fun h => hc h.1, field, hr⟩

theorem convert_eq {printfmt : Str → List Arg → Except Wrong (List Int)} {kinds : List Kind}
    (hprint : PrintsErrors printfmt) (hconv : isConversion c = true)
    (hargs : args.map Arg.kind = printedKinds fl.lflag c ++ kinds) :
  Converts c args (printedKinds fl.lflag c).length (convert printfmt c fl args)
  := by
  rcases conversion_cases hconv with rfl | rfl | rfl | rfl | rfl | rfl | rfl | rfl | rfl
  · -- `c`
    rcases List.map_eq_cons_iff.mp hargs with ⟨arg, ap, rfl, harg, -⟩
    cases arg with
    | int v => apply converts_field (by decide) rfl
    | _ => cases harg
  · -- `e`
    rcases List.map_eq_cons_iff.mp hargs with ⟨arg, ap, rfl, harg, -⟩
    cases arg with
    | int v => apply convert_error hprint
    | _ => cases harg
  · -- `s`
    rcases List.map_eq_cons_iff.mp hargs with ⟨arg, ap, rfl, harg, -⟩
    cases arg with
    | string p => apply converts_field (by decide) rfl
    | _ => cases harg
  · -- `d`
    rcases getint_eq hargs with ⟨num, hnum⟩
    have hrun : convert printfmt (code 'd') fl args = (getint args fl.lflag >>= _) := rfl
    rw [hrun, hnum]
    apply converts_field (by decide)
    rw [← List.drop_one]
    rfl
  · -- `u`
    rcases getuint_eq hargs with ⟨num, hnum⟩
    have hrun : convert printfmt (code 'u') fl args = (getuint args fl.lflag >>= _) := rfl
    rw [hrun, hnum]
    apply converts_field (by decide)
    rw [← List.drop_one]
    rfl
  · -- `o`
    rcases getuint_eq hargs with ⟨num, hnum⟩
    have hrun : convert printfmt (code 'o') fl args = (getuint args fl.lflag >>= _) := rfl
    rw [hrun, hnum]
    apply converts_field (by decide)
    rw [← List.drop_one]
    rfl
  · -- `p`
    rcases List.map_eq_cons_iff.mp hargs with ⟨arg, ap, rfl, harg, -⟩
    cases arg with
    | pointer v => apply converts_field (by decide) rfl
    | _ => cases harg
  · -- `x`
    rcases getuint_eq hargs with ⟨num, hnum⟩
    have hrun : convert printfmt (code 'x') fl args = (getuint args fl.lflag >>= _) := rfl
    rw [hrun, hnum]
    apply converts_field (by decide)
    rw [← List.drop_one]
    rfl
  · -- `%`
    apply converts_field (by decide) rfl

theorem convert_none {printfmt : Str → List Arg → Except Wrong (List Int)}
    (hconv : isConversion c = false) :
  convert printfmt c fl args = .ok none
  := by
  have hne : ∀ x, isConversion x = true → c ≠ x := by
    rintro x hx rfl
    rw [hconv] at hx
    cases hx
  rw [convert, if_neg (hne _ (by decide)), if_neg (hne _ (by decide)), if_neg (hne _ (by decide)),
    if_neg (hne _ (by decide)), if_neg (hne _ (by decide)), if_neg (hne _ (by decide)),
    if_neg (hne _ (by decide)), if_neg (hne _ (by decide)), if_neg (hne _ (by decide))]

/-! ### Printing a format -/

/-- What printing the parts comes to. -/
def Outcome (items : List Item) (args : List Arg) (r : Except Wrong (List Int)) : Prop :=
  (ErrorsFit items args ∧ ∃ fields, fields.length = items.countP Item.isConversion
    ∧ r = .ok (weave items fields)) ∨
  (¬ ErrorsFit items args ∧ r = .error (.errorString (-2 ^ 31)))

theorem Outcome.lit {items : List Item} {r : Except Wrong (List Int)} (h : Outcome items args r)
    (c : Byte) :
  Outcome (.lit c :: items) args (do
    let out ← r
    .ok ((c.toNat : Int) :: out))
  := by
  rcases h with ⟨hfit, fields, hlen, rfl⟩ | ⟨hnot, rfl⟩
  · left
    refine ⟨⟨not_false, hfit⟩, fields, ?_, rfl⟩
    simpa [Item.isConversion] using hlen
  · right
    exact ⟨fun h => hnot h.2, rfl⟩

theorem Outcome.stray {items : List Item} {r : Except Wrong (List Int)}
    (h : Outcome items (args.drop (stars flags)) r) :
  Outcome (.stray flags :: items) args (do
    let out ← r
    .ok (((code '%').toNat : Int) :: out))
  := by
  have hlen : (Item.kinds (.stray flags)).length = stars flags := List.length_replicate
  rcases h with ⟨hfit, fields, hcount, rfl⟩ | ⟨hnot, rfl⟩
  · left
    refine ⟨⟨not_false, ?_⟩, fields, ?_, rfl⟩
    · rw [hlen]
      apply hfit
    · simpa [Item.isConversion] using hcount
  · right
    refine ⟨?_, rfl⟩
    intro hfit
    apply hnot
    rw [← hlen]
    apply hfit.2

theorem Outcome.conversion {items : List Item} {r : Except Wrong (List Int)} {field : List Int}
    (h : Outcome items (args.drop (Item.kinds (.conversion flags c)).length) r)
    (hmin : ¬ (c = code 'e' ∧ args[stars flags]? = some (.int INT_MIN))) :
  Outcome (.conversion flags c :: items) args (do
    let out ← r
    .ok (field ++ out))
  := by
  rcases h with ⟨hfit, fields, hcount, rfl⟩ | ⟨hnot, rfl⟩
  · left
    refine ⟨⟨hmin, hfit⟩, field :: fields, ?_, rfl⟩
    rw [List.length_cons, List.countP_cons_of_pos rfl, hcount]
  · right
    exact ⟨fun h => hnot h.2, rfl⟩

/-- The flags at the front. -/
theorem flags_split (cs : List Byte) :
  ∃ flags rest, cs = flags ++ rest ∧ (∀ c ∈ flags, isFlag c = true)
    ∧ ∀ c ∈ rest.head?, isFlag c = false
  := by
  induction cs with
  | nil => exact ⟨[], [], rfl, List.forall_mem_nil _, by simp⟩
  | cons c cs ih =>
      rcases hc : isFlag c
      · refine ⟨[], c :: cs, rfl, List.forall_mem_nil _, ?_⟩
        rintro d ⟨⟩
        apply hc
      · rcases ih with ⟨flags, rest, rfl, hflags, hrest⟩
        exact ⟨c :: flags, rest, rfl, List.forall_mem_cons.mpr ⟨hc, hflags⟩, hrest⟩

theorem lflag_start :
  ({} : Flags).lflag = int32 0
  := rfl

/-- A format is printed from any place in it on, or else a conversion `e` is given the least `int`. -/
theorem vprintfmt_eq {kinds : List Kind} (h : fmt.PointsAt before cs)
    (hargs : args.map Arg.kind = (items cs).flatMap Item.kinds ++ kinds)
    (hfuel : cs.length + 9 ≤ fuel) :
  Outcome (items cs) args (vprintfmt fuel fmt args)
  := by
  induction fuel generalizing fmt before cs args with
  | zero => cases hfuel
  | succ fuel ih =>
      rcases cs with _ | ⟨c, cs⟩
      · left
        refine ⟨trivial, [], rfl, ?_⟩
        rw [vprintfmt, charAt_eq h rfl]
        rfl
      have hfuel' : cs.length + 9 ≤ fuel := by
        rw [List.length_cons] at hfuel
        omega
      rw [vprintfmt, charAt_eq h rfl]
      by_cases hc : c = code '%'
      · subst hc
        change Outcome _ _ (reswitch fuel (fmt.add 1) {} args >>= _)
        rcases flags_split cs with ⟨flags, rest, rfl, hflags, hrest⟩
        rw [List.length_append] at hfuel'
        have hscan : ∃ e, (rest ++ [0]).head? = some e ∧ isFlag e = false := by
          rcases rest with _ | ⟨e, rest⟩
          · exact ⟨0, rfl, by decide⟩
          · exact ⟨e, rfl, hrest e rfl⟩
        rcases hscan with ⟨e, he, hend⟩
        have hflags' : flags.length < fuel := by omega
        have hpercent : ∀ c ∈ flags, c ≠ code '%' := by
          intro c hc
          apply ne_percent_of_isFlag (hflags c hc)
        have hbehind := pointsAt_add h.next
        rcases hconv : isConversion e
        · -- the escape says nothing
          have hstray : ∀ c ∈ rest.head?, isFlag c = false ∧ isConversion c = false := by
            intro c hc
            rcases rest with _ | ⟨d, rest⟩
            · cases hc
            · cases hc
              cases he
              exact ⟨hend, hconv⟩
          rw [items_stray hflags hstray] at hargs ⊢
          rw [List.flatMap_cons, Item.kinds, List.append_assoc] at hargs
          rcases reswitch_eq 0 h.next hflags he hend hflags' lflag_start hargs with ⟨fl, hswitch, -⟩
          have hback : ((fmt.add 1).add (flags.length + 1)).sub 1 = (fmt.add 1).add flags.length := by
            rw [add_add, add_add]
            rfl
          rw [List.append_assoc] at hbehind
          rcases backUp_eq hbehind hpercent hflags' with ⟨fmt', hfmt', hp⟩
          have hdrop := congrArg (List.drop (stars flags)) hargs
          rw [← List.map_drop, List.drop_left' List.length_replicate] at hdrop
          have hlen : (flags ++ rest).length + 9 ≤ fuel := by
            rw [List.length_append]
            omega
          have hrest' := ih hp hdrop hlen
          rw [hswitch]
          change Outcome _ _ (convert _ e fl _ >>= _)
          rw [convert_none hconv]
          change Outcome _ _ (backUp fuel (((fmt.add 1).add (flags.length + 1)).sub 1) >>= _)
          rw [hback, hfmt']
          apply hrest'.stray
        · -- a conversion
          rcases rest with _ | ⟨_, rest⟩
          · cases he
            cases hconv
          cases he
          rw [items_conversion hflags hend hconv] at hargs ⊢
          rw [List.flatMap_cons, Item.kinds, List.append_assoc, List.append_assoc] at hargs
          rcases reswitch_eq 0 h.next hflags rfl hend hflags' lflag_start hargs with ⟨fl, hswitch, hl⟩
          rw [Int.zero_add] at hl
          have hdrop := congrArg (List.drop (stars flags)) hargs
          rw [← List.map_drop, List.drop_left' List.length_replicate, lflagOf, ← hl] at hdrop
          have hkinds : (Item.kinds (.conversion flags e)).length
              = stars flags + (printedKinds fl.lflag e).length := by
            rw [Item.kinds, List.length_append, List.length_replicate, lflagOf, hl]
          have hprint : PrintsErrors (fun fmt ap => vprintfmt fuel fmt.start ap) := by
            rcases Nat.exists_eq_add_of_le' (show 9 ≤ fuel by omega) with ⟨k, rfl⟩
            apply vprintfmt_errors
          rw [List.length_cons] at hfuel'
          rw [hswitch]
          change Outcome _ _ (convert _ e fl _ >>= _)
          have hhead : (args.drop (stars flags))[0]? = args[stars flags]? := by simp
          rcases convert_eq hprint hconv hdrop with ⟨hmin, hrun⟩ | ⟨hmin, field, hrun⟩
          · rw [hrun]
            right
            rw [hhead] at hmin
            exact ⟨fun hfit => hfit.1 hmin, rfl⟩
          · rw [hrun]
            rw [hhead] at hmin
            have hlast := congrArg (List.drop (printedKinds fl.lflag e).length) hdrop
            rw [← List.map_drop, List.drop_left, List.drop_drop, ← hkinds] at hlast
            have hnext : ((fmt.add 1).add (flags.length + 1)).PointsAt
                (before ++ [code '%'] ++ flags ++ [e]) rest := hbehind.next
            have hrest' := ih hnext hlast (by omega)
            rw [List.drop_drop, ← hkinds]
            apply hrest'.conversion hmin
      · rw [items_literal hc] at hargs ⊢
        have hrest := ih h.next hargs hfuel'
        change Outcome _ _ (if c ≠ code '%' then _ else _)
        rw [if_pos hc, if_neg h.head_ne_zero]
        apply hrest.lit

/-- A format is printed exactly when no conversion `e` is given the least `int`. -/
theorem prints_iff (fmt : Str) (args : List Arg) (more : List Kind)
    (hargs : args.map Arg.kind = kinds fmt.chars ++ more) :
  Prints fmt args ↔ ErrorsFit (items fmt.chars) args
  := by
  constructor
  · rintro ⟨n, hprints⟩
    rcases hprints (n + (fmt.chars.length + 9)) (Nat.le_add_right _ _) with ⟨fields, -, hrun⟩
    rcases vprintfmt_eq fmt.pointsAt_start hargs (Nat.le_add_left _ n) with ⟨hfit, -⟩ | ⟨-, herror⟩
    · apply hfit
    · rw [hrun] at herror
      cases herror
  · intro hfit
    use fmt.chars.length + 9
    intro fuel hfuel
    rcases vprintfmt_eq fmt.pointsAt_start hargs hfuel with ⟨-, hfields⟩ | ⟨hnot, -⟩
    · apply hfields
    · cases hnot hfit

/-- The format `%e%`. -/
def errorPercent : Str := ⟨chars "%e%", by decide⟩

/-- The format `%e%` with the error `3`: what stands behind the message is a `%` by itself. -/
theorem prints_errorPercent :
  Prints errorPercent [.int 3]
  := by
  apply (prints_iff errorPercent [.int 3] [] rfl).mpr
  refine ⟨?_, not_false, trivial⟩
  rintro ⟨-, hmin⟩
  cases hmin

/-- The error `INT_MIN` is negative after it has been negated, and is looked up in the table. -/
theorem not_prints :
  ¬ ∀ (fmt : Str) (args : List Arg) (more : List Kind),
    args.map Arg.kind = kinds fmt.chars ++ more → Prints fmt args
  := by
  intro hall
  rcases hall errorPercent [.int INT_MIN] [] rfl with ⟨n, hprints⟩
  rcases hprints (n + 12) (Nat.le_add_right _ _) with ⟨fields, -, hrun⟩
  have herror : vprintfmt (n + 12) errorPercent.start [.int INT_MIN]
      = .error (.errorString (-2 ^ 31)) := rfl
  rw [hrun] at herror
  cases herror

end Printfmt

end Jos
