import Jos.Lib.Numeral
import Jos.User.Printfmt

/-!
# Printed numbers

The conversions `d`, `u`, `o` and `x` of `vprintfmt`.  A numeral is printed by a recursion that takes
the width along, and whatever the width leaves goes in front of the first digit.

This is right where the width leaves nothing.  Where it leaves something, the padding is in front also
when it shall be behind, and then it consists of dashes; and the sign of a negative number, which is
put before the padding is counted, makes the field too long.
-/

namespace Jos

namespace Printfmt

open Bytes

/-! ### What a number is printed as -/

/-- The number that an argument is when its sign counts. -/
def Arg.signed : Arg → Int
  | .int v => v.toInt
  | .long v => v.toInt
  | .longlong v => v.toInt
  | _ => 0

/-- The number that an argument is when its sign does not count. -/
def Arg.unsigned : Arg → Nat
  | .int v => v.toNat
  | .long v => v.toNat
  | .longlong v => v.toNat
  | _ => 0

/-- How many values the type of an argument has. -/
def Arg.modulus : Arg → Nat
  | .longlong _ => 2 ^ 64
  | _ => 2 ^ 32

/-- The base of a conversion. -/
def base (c : Byte) : Nat :=
  if c = code 'o' then 8 else if c = code 'x' then 16 else 10

/-- The number that is printed. -/
def value (c : Byte) (arg : Arg) : Int :=
  if c = code 'd' then arg.signed else arg.unsigned

/-- The sign in front of a number. -/
def sign (v : Int) : List Int :=
  if v < 0 then [45] else []

/-- The character of a digit. -/
def digit (d : Nat) : Int :=
  ((chars "0123456789abcdef").getD d 0).toNat

/-- A sign and digits with `n` characters of padding: behind them for `-`, zeros between them for `0`,
and else spaces in front. -/
def place (padc : Byte) (n : Nat) (sign digits : List Int) : List Int :=
  if padc = code '-' then sign ++ digits ++ List.replicate n 32
  else if padc = code '0' then sign ++ List.replicate n 48 ++ digits
  else List.replicate n 32 ++ sign ++ digits

/-- The field is a numeral of the argument with its sign and its padding. -/
structure Formatted (c : Byte) (fl : Flags) (arg : Arg) (out : List Int) (ds : List Nat) : Prop where
  numeral : Numeral (base c) (value c arg).natAbs ds
  /-- What is decoded is the argument, modulo the size of its type. -/
  decodes : (if value c arg < 0 then -((Nat.ofDigits (base c) ds.reverse : Nat) : Int)
    else ((Nat.ofDigits (base c) ds.reverse : Nat) : Int)) % arg.modulus = arg.unsigned
  field : out = place fl.padc (fl.width.toNat - ((sign (value c arg)).length + ds.length))
    (sign (value c arg)) (ds.map digit)
  length : out.length = max fl.width.toNat ((sign (value c arg)).length + ds.length)

/-! ### The recursion -/

variable {c padc : Byte} {fl : Flags} {arg : Arg} {ap args : List Arg} {num n : Nat} {width : Int}
  {fuel : Nat} {fmt fmt' : StrPtr}

/-- A number is printed as its numeral, with the padding in front that the width leaves. -/
theorem printnum_eq {base : Nat} (hbase : 1 < base) (num : Nat) (width : Int) :
  printnum base hbase num width padc
    = List.replicate (int32 (width - (numeral base num).length)).toNat (padc.toNat : Int)
      ++ (numeral base num).map digit
  := by
  induction num using Nat.strongRecOn generalizing width with
  | ind num ih =>
      rw [printnum]
      by_cases hge : num ≥ base
      · have hwidth : int32 (int32 (width - 1) - (numeral base (num / base)).length)
            = int32 (width - (numeral base num).length) := by
          rw [numeral_divide hbase hge, List.length_append, List.length_singleton, Int.sub_eq_add_neg,
            int32_add]
          congr 1
          push_cast
          omega
        rw [if_pos hge, ih (num / base) (Nat.div_lt_self (by omega) hbase), hwidth,
          numeral_divide hbase hge, List.map_append, ← List.append_assoc]
        rfl
      · rw [if_neg hge, numeral_digit (Nat.lt_of_not_ge hge), Nat.mod_eq_of_lt (Nat.lt_of_not_ge hge)]
        rfl

/-- The width leaves what is not taken by the digits. -/
theorem printnum_field {base : Nat} (hbase : 1 < base) (hnum : num < 2 ^ 64) (hlo : 0 ≤ width)
    (hhi : width < 2 ^ 31) :
  printnum base hbase num width padc
    = List.replicate (width.toNat - (numeral base num).length) (padc.toNat : Int)
      ++ (numeral base num).map digit
  := by
  have hlen : (numeral base num).length ≤ 64 := by
    apply numeral_length_le hbase (by decide)
    apply Nat.lt_of_lt_of_le hnum
    apply Nat.pow_le_pow_left hbase
  have hcount : (int32 (width - (numeral base num).length)).toNat
      = width.toNat - (numeral base num).length := by
    rw [int32_eq]
    · omega
    · omega
    · omega
  rw [printnum_eq, hcount]

/-! ### The arguments -/

theorem getint_value (ap : List Arg) {lflag : Int} (hkind : arg.kind = integerKind lflag) :
  ∃ num, getint (arg :: ap) lflag = .ok (num, ap) ∧ num.toInt = arg.signed
  := by
  rw [getint]
  obtain ⟨h2, v, rfl⟩ | ⟨h2, h0, v, rfl⟩ | ⟨h2, h0, v, rfl⟩ := integerKind_cases hkind
  · rw [if_pos h2]
    exact ⟨v, rfl, rfl⟩
  · rw [if_neg h2, if_pos h0]
    exact ⟨_, rfl, BitVec.toInt_signExtend_of_le (by decide)⟩
  · rw [if_neg h2, if_neg h0]
    exact ⟨_, rfl, BitVec.toInt_signExtend_of_le (by decide)⟩

theorem getuint_value (ap : List Arg) {lflag : Int} (hkind : arg.kind = integerKind lflag) :
  ∃ num, getuint (arg :: ap) lflag = .ok (num, ap) ∧ num.toNat = arg.unsigned
  := by
  rw [getuint]
  obtain ⟨h2, v, rfl⟩ | ⟨h2, h0, v, rfl⟩ | ⟨h2, h0, v, rfl⟩ := integerKind_cases hkind
  · rw [if_pos h2]
    exact ⟨v, rfl, rfl⟩
  · rw [if_neg h2, if_pos h0]
    exact ⟨_, rfl, BitVec.toNat_setWidth_of_le (by decide)⟩
  · rw [if_neg h2, if_neg h0]
    exact ⟨_, rfl, BitVec.toNat_setWidth_of_le (by decide)⟩

/-- The number that an argument is, modulo the size of its type. -/
theorem bmod_toNat_mod {w : Nat} (v : BitVec w) :
  v.toInt % ((2 ^ w : Nat) : Int) = v.toNat
  := by
  have hlt : (v.toNat : Int) < (2 ^ w : Nat) := by exact_mod_cast v.isLt
  rw [BitVec.toInt_eq_toNat_bmod, Int.bmod_emod, Int.emod_eq_of_lt (Int.natCast_nonneg _) hlt]

theorem signed_mod (arg : Arg) :
  arg.signed % arg.modulus = arg.unsigned
  := by
  cases arg with
  | int v => apply bmod_toNat_mod
  | long v => apply bmod_toNat_mod
  | longlong v => apply bmod_toNat_mod
  | string s => rfl
  | pointer v => rfl

theorem unsigned_lt (arg : Arg) :
  arg.unsigned < arg.modulus
  := by
  cases arg with
  | int v => apply v.isLt
  | long v => apply v.isLt
  | longlong v => apply v.isLt
  | string s => simp [Arg.unsigned, Arg.modulus]
  | pointer v => simp [Arg.unsigned, Arg.modulus]

theorem value_mod (c : Byte) (arg : Arg) :
  value c arg % arg.modulus = arg.unsigned
  := by
  rw [value]
  split
  case isTrue => apply signed_mod
  case isFalse =>
    apply Int.emod_eq_of_lt (Int.natCast_nonneg _)
    exact_mod_cast unsigned_lt arg

theorem base_gt (c : Byte) :
  1 < base c
  := by
  rw [base]
  split
  case isTrue => decide
  case isFalse =>
    split
    case isTrue => decide
    case isFalse => decide

/-- A negative number is negated as an unsigned one. -/
theorem neg_toNat {num : BitVec 64} (hneg : num.toInt < 0) :
  (-num).toNat = num.toInt.natAbs
  := by
  have hlt := num.isLt
  rw [BitVec.toInt_eq_toNat_cond] at hneg ⊢
  rw [BitVec.toNat_neg]
  split at hneg
  case isTrue h =>
    omega
  case isFalse h =>
    rw [if_neg h]
    omega

theorem toNat_nonneg {num : BitVec 64} (hnonneg : ¬ num.toInt < 0) :
  num.toNat = num.toInt.natAbs
  := by
  have hlt := num.isLt
  rw [BitVec.toInt_eq_toNat_cond] at hnonneg ⊢
  split at hnonneg
  case isTrue h => rw [if_pos h, Int.natAbs_natCast]
  case isFalse h => omega

/-- The conversions of integers. -/
def isInteger (c : Byte) : Bool :=
  c == code 'd' || c == code 'u' || c == code 'o' || c == code 'x'

theorem integer_cases (hc : isInteger c = true) :
  c = code 'd' ∨ c = code 'u' ∨ c = code 'o' ∨ c = code 'x'
  := by
  simpa [isInteger, or_assoc] using hc

theorem natAbs_lt (num : BitVec 64) :
  num.toInt.natAbs < 2 ^ 64
  := by
  by_cases hneg : num.toInt < 0
  · rw [← neg_toNat hneg]
    apply (-num).isLt
  · rw [← toNat_nonneg hneg]
    apply num.isLt

theorem sign_unsigned (n : Nat) :
  sign n = []
  := if_neg (Int.not_lt.mpr (Int.natCast_nonneg n))

/-- What an integer conversion puts. -/
theorem convert_integer (printfmt : Str → List Arg → Except Wrong (List Int)) (ap : List Arg)
    (hc : isInteger c = true) (hkind : arg.kind = integerKind fl.lflag) :
  convert printfmt c fl (arg :: ap) = .ok (some (sign (value c arg)
      ++ printnum (base c) (base_gt c) (value c arg).natAbs fl.width fl.padc, ap))
    ∧ (value c arg).natAbs < 2 ^ 64
  := by
  by_cases hd : c = code 'd'
  · subst hd
    rcases getint_value ap hkind with ⟨num, hnum, hvalue⟩
    have hrun : convert printfmt (code 'd') fl (arg :: ap) = (getint (arg :: ap) fl.lflag >>= _) := rfl
    have hvalue' : value (code 'd') arg = num.toInt := by
      rw [hvalue]
      rfl
    rw [hrun, hnum, hvalue']
    constructor
    · change Except.ok (some ((if num.toInt < 0 then _ else _), ap)) = _
      rw [sign]
      by_cases hneg : num.toInt < 0
      · rw [if_pos hneg, if_pos hneg, ← neg_toNat hneg]
        rfl
      · rw [if_neg hneg, if_neg hneg, ← toNat_nonneg hneg]
        rfl
    · apply natAbs_lt
  · rcases getuint_value ap hkind with ⟨num, hnum, hvalue⟩
    have hvalue' : value c arg = (num.toNat : Int) := by
      rw [value, if_neg hd, hvalue]
    have hother : c = code 'u' ∨ c = code 'o' ∨ c = code 'x' := (integer_cases hc).resolve_left hd
    rw [hvalue', sign_unsigned, Int.natAbs_natCast]
    constructor
    · rcases hother with rfl | rfl | rfl
      · have hrun : convert printfmt (code 'u') fl (arg :: ap)
            = (getuint (arg :: ap) fl.lflag >>= _) := rfl
        rw [hrun, hnum]
        rfl
      · have hrun : convert printfmt (code 'o') fl (arg :: ap)
            = (getuint (arg :: ap) fl.lflag >>= _) := rfl
        rw [hrun, hnum]
        rfl
      · have hrun : convert printfmt (code 'x') fl (arg :: ap)
            = (getuint (arg :: ap) fl.lflag >>= _) := rfl
        rw [hrun, hnum]
        rfl
    · apply num.isLt

/-! ### The flags -/

/-- What the flags can be. -/
structure Flags.InRange (fl : Flags) : Prop where
  width : -2 ^ 31 ≤ fl.width ∧ fl.width < 2 ^ 31
  padc : fl.padc = code ' ' ∨ fl.padc = code '0' ∨ fl.padc = code '-'

theorem Flags.InRange.processPrecision (h : fl.InRange) {precision : Int}
    (hp : -2 ^ 31 ≤ precision ∧ precision < 2 ^ 31) :
  (fl.processPrecision precision).InRange
  := by
  rw [Flags.processPrecision]
  split
  case isTrue => exact ⟨hp, h.padc⟩
  case isFalse => exact ⟨h.width, h.padc⟩

theorem widthField_range {ch : Byte} {precision v : Int}
    (hrun : widthField fuel fmt ch precision = .ok (v, fmt')) :
  -2 ^ 31 ≤ v ∧ v < 2 ^ 31
  := by
  induction fuel generalizing fmt ch precision with
  | zero => cases hrun
  | succ fuel ih =>
      rw [widthField] at hrun
      rcases hchar : charAt fmt 0 with _ | d
      · rw [hchar] at hrun
        cases hrun
      · rw [hchar] at hrun
        change (if isDigit d = true then _ else _) = _ at hrun
        split at hrun
        case isTrue => apply ih hrun
        case isFalse =>
          cases hrun
          apply int32_range

theorem reswitch_range {fl' : Flags} (h : fl.InRange)
    (hrun : reswitch fuel fmt fl args = .ok (c, fmt', fl', ap)) :
  fl'.InRange
  := by
  induction fuel generalizing fmt fl args with
  | zero => cases hrun
  | succ fuel ih =>
      rw [reswitch] at hrun
      rcases hchar : charAt fmt 0 with _ | d
      · rw [hchar] at hrun
        cases hrun
      rw [hchar] at hrun
      change (if d = code '-' then _ else _) = _ at hrun
      split at hrun
      case isTrue =>
        apply ih _ hrun
        exact ⟨h.width, .inr (.inr rfl)⟩
      split at hrun
      case isTrue =>
        apply ih _ hrun
        exact ⟨h.width, .inr (.inl rfl)⟩
      split at hrun
      case isTrue =>
        rcases hfield : widthField fuel (fmt.add 1) d 0 with _ | ⟨v, fmt''⟩
        · rw [hfield] at hrun
          cases hrun
        · rw [hfield] at hrun
          apply ih (h.processPrecision (widthField_range hfield)) hrun
      split at hrun
      case isTrue =>
        rcases hint : vaInt args with _ | ⟨v, ap'⟩
        · rw [hint] at hrun
          cases hrun
        · rw [hint] at hrun
          have hv : -2 ^ 31 ≤ v.toInt ∧ v.toInt < 2 ^ 31 := ⟨BitVec.le_toInt v, BitVec.toInt_lt⟩
          apply ih (h.processPrecision hv) hrun
      split at hrun
      case isTrue =>
        apply ih _ hrun
        constructor
        case width =>
          have hwidth := h.width
          change _ ≤ (if _ then _ else _) ∧ (if _ then _ else _) < _
          split <;> omega
        case padc => apply h.padc
      split at hrun
      case isTrue =>
        apply ih _ hrun
        exact ⟨h.width, h.padc⟩
      split at hrun
      case isTrue =>
        apply ih _ hrun
        exact ⟨h.width, h.padc⟩
      case isFalse =>
        cases hrun
        apply h

/-! ### The field -/

/-- The padding and the digits of a field. -/
theorem place_length (padc : Byte) (n : Nat) (sign digits : List Int) :
  (place padc n sign digits).length = n + (sign.length + digits.length)
  := by
  rw [place]
  split
  case isTrue =>
    simp only [List.length_append, List.length_replicate]
    omega
  case isFalse =>
    split
    case isTrue =>
      simp only [List.length_append, List.length_replicate]
      omega
    case isFalse =>
      simp only [List.length_append, List.length_replicate]
      omega

/-- Without padding it does not matter where the padding is. -/
theorem place_zero (padc : Byte) (sign digits : List Int) :
  place padc 0 sign digits = sign ++ digits
  := by
  rw [place]
  split
  case isTrue => simp
  case isFalse =>
    split
    case isTrue => simp
    case isFalse => simp

/-- No digit is a dash. -/
theorem digit_ne_dash {d : Nat} (hd : d < 16) :
  digit d ≠ 45
  := by
  revert d
  decide

theorem base_le (c : Byte) :
  base c ≤ 16
  := by
  rw [base]
  split
  case isTrue => decide
  case isFalse =>
    split
    case isTrue => decide
    case isFalse => decide

/-- The digits that the conversion puts. -/
def digitsOf (c : Byte) (arg : Arg) : List Nat :=
  numeral (base c) (value c arg).natAbs

/-- The field that is put. -/
def emitted (c : Byte) (fl : Flags) (arg : Arg) : List Int :=
  sign (value c arg) ++ (List.replicate (fl.width.toNat - (digitsOf c arg).length) (fl.padc.toNat : Int)
    ++ (digitsOf c arg).map digit)

/-- The digits are the right ones, so that only the padding can be wrong. -/
theorem formatted_digits {field : List Int}
    (hfield : field = place fl.padc (fl.width.toNat - ((sign (value c arg)).length
      + (digitsOf c arg).length)) (sign (value c arg)) ((digitsOf c arg).map digit)) :
  Formatted c fl arg field (digitsOf c arg)
  := by
  have hnumeral := numeral_isNumeral (base_gt c) (value c arg).natAbs
  constructor
  case numeral => apply hnumeral
  case decodes =>
    rw [digitsOf, hnumeral.value, ← value_mod c arg]
    congr 1
    split
    case isTrue => omega
    case isFalse => omega
  case field => apply hfield
  case length =>
    rw [hfield, place_length, List.length_map]
    omega

/-- The field is what it shall be where there is no padding, or where the padding is in front and there
is no sign. -/
theorem emitted_iff (hrange : fl.InRange) (hwidth : 0 ≤ fl.width) :
  (∃ ds, Formatted c fl arg (emitted c fl arg) ds) ↔
    fl.width ≤ (digitsOf c arg).length ∨ (fl.padc ≠ code '-' ∧ 0 ≤ value c arg)
  := by
  constructor
  · rintro ⟨ds, hformatted⟩
    have hds : ds = digitsOf c arg := hformatted.numeral.unique (base_gt c)
    subst hds
    by_contra hnot
    rw [not_or, not_and_or, not_not, not_le] at hnot
    rcases hnot with ⟨hwide, hwrong⟩
    by_cases hneg : value c arg < 0
    · -- the sign comes on top of the width
      have hlength := hformatted.length
      rw [emitted, sign, if_pos hneg] at hlength
      simp only [List.length_append, List.length_replicate, List.length_map, List.length_singleton]
        at hlength
      omega
    · -- the field begins with a dash
      have hminus : fl.padc = code '-' := hwrong.resolve_right (not_not.mpr (not_lt.mp hneg))
      have hfield := hformatted.field
      have hsign : sign (value c arg) = [] := if_neg hneg
      have hnumeral := hformatted.numeral
      rcases hdigits : digitsOf c arg with _ | ⟨d, ds⟩
      · cases hnumeral.ne_nil hdigits
      rw [hdigits] at hwide hnumeral
      have hd := lt_of_lt_of_le (hnumeral.lt d List.mem_cons_self) (base_le c)
      rcases Nat.exists_eq_succ_of_ne_zero (show fl.width.toNat - (d :: ds).length ≠ 0 by omega)
        with ⟨k, hk⟩
      rw [emitted, hsign, hminus, place, if_pos rfl, hdigits, hk, List.replicate_succ] at hfield
      apply digit_ne_dash hd
      symm
      apply (List.cons.inj hfield).1
  · rintro (hnarrow | ⟨hpad, hnonneg⟩)
    · use digitsOf c arg
      apply formatted_digits
      have hnone : fl.width.toNat - (digitsOf c arg).length = 0 := by omega
      have hnone' : fl.width.toNat - ((sign (value c arg)).length + (digitsOf c arg).length) = 0 := by
        omega
      rw [emitted, hnone, hnone', place_zero]
      rfl
    · use digitsOf c arg
      apply formatted_digits
      have hsign : sign (value c arg) = [] := if_neg (not_lt.mpr hnonneg)
      rw [emitted, hsign, place, if_neg hpad, List.length_nil, Nat.zero_add]
      rcases hrange.padc with hspace | hzero | hminus
      · rw [hspace, if_neg (by decide), List.append_nil, List.nil_append]
        rfl
      · rw [hzero, if_pos rfl]
        rfl
      · cases hpad hminus

/-- When the scanner has come to an integer conversion with a width, the field that is put is right
exactly where there is no padding, or where the padding is in front and the number is not negative. -/
theorem formatted_iff (hpercent : charAt fmt 0 = .ok (code '%'))
    (hscan : reswitch fuel (fmt.add 1) {} args = .ok (c, fmt', fl, arg :: ap))
    (hc : isInteger c = true) (hkind : arg.kind = integerKind fl.lflag) (hwidth : 0 ≤ fl.width) :
  ∃ field,
    vprintfmt (fuel + 1) fmt args = (do
      let out ← vprintfmt fuel fmt' ap
      .ok (field ++ out))
    ∧ ((∃ ds, Formatted c fl arg field ds) ↔
      fl.width ≤ (digitsOf c arg).length ∨ (fl.padc ≠ code '-' ∧ 0 ≤ value c arg))
  := by
  have hstart : ({} : Flags).InRange := ⟨by decide, .inl rfl⟩
  have hrange := reswitch_range hstart hscan
  use emitted c fl arg
  constructor
  · rcases convert_integer (fun fmt ap => vprintfmt fuel fmt.start ap) ap hc hkind
      with ⟨hconvert, hlt⟩
    rw [printnum_field (base_gt c) hlt hwidth hrange.width.2] at hconvert
    rw [vprintfmt, hpercent]
    change (reswitch fuel (fmt.add 1) {} args >>= _) = _
    rw [hscan]
    change (convert _ c fl (arg :: ap) >>= _) = _
    rw [hconvert]
    rfl
  · apply emitted_iff hrange hwidth

/-- The format `%5d`. -/
def fiveWide : Str := ⟨chars "%5d", by decide⟩

/-- The flags of `%5d`. -/
def fiveWideFlags : Flags := { width := 5 }

theorem numeral_five :
  numeral 10 5 = [5]
  := numeral_digit (by decide)

/-- In `%5d` the number `5` has four spaces in front of it. -/
theorem formatted_five :
  ∃ field,
    vprintfmt 4 fiveWide.start [.int 5] = (do
      let out ← vprintfmt 3 (fiveWide.start.add 3) []
      .ok (field ++ out))
    ∧ ∃ ds, Formatted (code 'd') fiveWideFlags (.int 5) field ds
  := by
  have hscan : reswitch 3 (fiveWide.start.add 1) {} [.int 5]
      = .ok (code 'd', fiveWide.start.add 3, fiveWideFlags, [.int 5]) := rfl
  rcases formatted_iff rfl hscan (by decide) rfl (by decide) with ⟨field, hrun, hiff⟩
  refine ⟨field, hrun, hiff.mpr (.inr ⟨by decide, by decide⟩)⟩

/-- In `%5d` the number `-5` has four spaces and its sign, one character too many. -/
theorem not_formatted :
  ¬ ∀ (fuel : Nat) (fmt fmt' : StrPtr) (args ap : List Arg) (c : Byte) (fl : Flags) (arg : Arg)
    (field : List Int), charAt fmt 0 = .ok (code '%') →
    reswitch fuel (fmt.add 1) {} args = .ok (c, fmt', fl, arg :: ap) → isInteger c = true →
    arg.kind = integerKind fl.lflag → 0 ≤ fl.width →
    (∀ printfmt, convert printfmt c fl (arg :: ap) = .ok (some (field, ap))) →
    ∃ ds, Formatted c fl arg field ds
  := by
  intro hall
  have hscan : reswitch 3 (fiveWide.start.add 1) {} [.int (-5)]
      = .ok (code 'd', fiveWide.start.add 3, fiveWideFlags, [.int (-5)]) := rfl
  have hdigits : digitsOf (code 'd') (.int (-5)) = [5] := numeral_five
  have hkind : (Arg.int (-5)).kind = integerKind fiveWideFlags.lflag := rfl
  have hrun : ∀ printfmt, convert printfmt (code 'd') fiveWideFlags [.int (-5)]
      = .ok (some (emitted (code 'd') fiveWideFlags (.int (-5)), [])) := by
    intro printfmt
    have hc : isInteger (code 'd') = true := by decide
    rcases convert_integer printfmt [] hc hkind with ⟨hconvert, hlt⟩
    rw [printnum_field (base_gt _) hlt (by decide) (by decide)] at hconvert
    apply hconvert
  rcases hall 3 fiveWide.start (fiveWide.start.add 3) [.int (-5)] [] (code 'd') fiveWideFlags
    (.int (-5)) _ rfl hscan (by decide) rfl (by decide) hrun with ⟨ds, hformatted⟩
  have hds : ds = [5] := (hformatted.numeral.unique (base_gt _)).trans numeral_five
  subst hds
  have hlength := hformatted.length
  rw [emitted, hdigits] at hlength
  revert hlength
  decide

end Printfmt

end Jos
