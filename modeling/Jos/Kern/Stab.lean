import Jos.Lib.Bytes
import Jos.Lib.Gives
import Jos.Lib.LastIn

/-!
# Searching a table of stabs

`stab_binsearch` of `kern/kdebug.c` looks for the stab of one type that contains an address.  The
stabs of the type increase by address, but stabs of other types stand between them: from the middle
of what is left the search goes back to the next stab of the type.  An address that is hit
exactly is made one larger, so that the search goes on to the stab behind it.

`Step` says once what a round of the search does.  Whatever the table contains, `Measure` goes
down from round to round, so that the search ends.
-/

namespace Jos

open Bytes Prog

/-- `struct Stab`. -/
structure Stab where
  n_strx : Word
  n_type : Byte
  n_desc : BitVec 16
  n_value : Word

namespace Stab

/-- Procedure name. -/
def N_FUN : Byte := 0x24
/-- Text segment line number. -/
def N_SLINE : Byte := 0x44
/-- Main source file name. -/
def N_SO : Byte := 0x64
/-- Included source file name. -/
def N_SOL : Byte := 0x84
/-- Parameter variable. -/
def N_PSYM : Byte := 0xa0

end Stab

/-- The reads of the fields of `stabs[i]`. -/
structure Stabs (σ : Type) where
  n_strx : Int → Prog σ Word
  n_type : Int → Prog σ Byte
  n_desc : Int → Prog σ (BitVec 16)
  n_value : Int → Prog σ Word

variable {σ : Type}

/-! ### The source -/

/-- Go down from `m` over at most `n` stabs that are not of the type. -/
def scanDown (stabs : Stabs σ) (type : Byte) : Nat → Int → Prog σ Int
  | 0, m => pure m
  | n + 1, m => do
      let t ← stabs.n_type m
      if t = type then
        pure m
      else
        scanDown stabs type n (m - 1)

/-- The variables of `stab_binsearch`, with `*region_left` and `*region_right`. -/
structure Region where
  l : Int
  r : Int
  region_left : Int
  region_right : Int
  any_matches : Bool
  addr : Word

/-- The middle of what is left. -/
def Region.true_m (g : Region) : Int :=
  (g.l + g.r).tdiv 2

/-- A round of the search. -/
def searchStep (stabs : Stabs σ) (type : Byte) (g : Region) : Prog σ Region := do
  -- search for earliest stab with right type
  let m ← scanDown stabs type (g.true_m - g.l + 1).toNat g.true_m
  if m < g.l then
    pure { g with l := g.true_m + 1 }
  else
    let v ← stabs.n_value m
    if v < g.addr then
      pure { g with any_matches := true, region_left := m, l := g.true_m + 1 }
    else if v > g.addr then
      pure { g with any_matches := true, region_right := m - 1, r := m - 1 }
    else
      pure { g with any_matches := true, region_left := m, l := m, addr := g.addr + 1 }

/-- The loop of the search. The given number of rounds is not used up. -/
def searchLoop (stabs : Stabs σ) (type : Byte) : Nat → Region → Prog σ Region
  | 0, _ => Prog.leave
  | k + 1, g =>
      if g.l ≤ g.r then do
        let g ← searchStep stabs type g
        searchLoop stabs type k g
      else
        pure g

/-- Search the stabs from `left` to `right` for the one of the type that contains `addr`. The
results are the new `*region_left` and `*region_right`. -/
def stabBinsearch (stabs : Stabs σ) (left right : Int) (type : Byte) (addr : Word) :
    Prog σ (Int × Int) := do
  let g ← searchLoop stabs type (2 * (right - left + 1).toNat + 2)
    { l := left, r := right, region_left := left, region_right := right, any_matches := false,
      addr := addr }
  if g.any_matches = false then
    pure (g.region_left, g.region_left - 1)
  else
    let l ← scanDown stabs type (g.region_right - g.region_left).toNat g.region_right
    pure (l, g.region_right)

/-! ### Tables -/

/-- The states with `I` show the stabs of the table from `a` to `b`. -/
structure Stabs.Shows (stabs : Stabs σ) (I : σ → Prop) (tab : Int → Stab) (a b : Int) : Prop where
  strx : ∀ i, a ≤ i → i ≤ b → (stabs.n_strx i).Gives I (fun v => v = (tab i).n_strx)
  type : ∀ i, a ≤ i → i ≤ b → (stabs.n_type i).Gives I (fun v => v = (tab i).n_type)
  desc : ∀ i, a ≤ i → i ≤ b → (stabs.n_desc i).Gives I (fun v => v = (tab i).n_desc)
  value : ∀ i, a ≤ i → i ≤ b → (stabs.n_value i).Gives I (fun v => v = (tab i).n_value)

/-- The stab is of the type. -/
def Typed (tab : Int → Stab) (type : Byte) (i : Int) : Prop :=
  (tab i).n_type = type

instance (tab : Int → Stab) (type : Byte) (i : Int) : Decidable (Typed tab type i) :=
  inferInstanceAs (Decidable (_ = _))

variable {stabs : Stabs σ} {I : σ → Prop} {tab : Int → Stab} {a b : Int} {type : Byte}
  {addr : Word} {g g' : Region}

theorem Stabs.Shows.within {a' b' : Int} (h : stabs.Shows I tab a b) (ha : a ≤ a') (hb : b' ≤ b) :
  stabs.Shows I tab a' b'
  := by
  constructor
  case strx => exact fun i hi hi' => h.strx i (Int.le_trans ha hi) (Int.le_trans hi' hb)
  case type => exact fun i hi hi' => h.type i (Int.le_trans ha hi) (Int.le_trans hi' hb)
  case desc => exact fun i hi hi' => h.desc i (Int.le_trans ha hi) (Int.le_trans hi' hb)
  case value => exact fun i hi hi' => h.value i (Int.le_trans ha hi) (Int.le_trans hi' hb)

/-- The scan stops at the last stab of the type, or behind the stabs it may look at. -/
theorem scanDown_gives (h : stabs.Shows I tab a b) (n : Nat) {m : Int} (hm : m ≤ b)
    (ha : a ≤ m - n + 1) :
  (scanDown stabs type n m).Gives I (fun k =>
    LastIn (Typed tab type) (m - n + 1) m k ∨ (k = m - n ∧ NoneIn (Typed tab type) (m - n + 1) m))
  := by
  induction n generalizing m with
  | zero =>
      apply gives_pure
      right
      constructor
      · omega
      · apply noneIn_of_lt
        omega
  | succ n ih =>
      apply (h.type m (by omega) hm).bind
      rintro _ rfl
      apply gives_ite
      · intro htype
        apply gives_pure
        left
        constructor
        case lo => omega
        case hi => apply Int.le_refl
        case holds => apply htype
        case after => apply noneIn_of_lt (Int.lt_succ m)
      · intro htype
        have hm' : NoneIn (Typed tab type) m m := by
          intro i hi hi'
          rw [show i = m by omega]
          apply htype
        apply (ih (m := m - 1) (by omega) (by omega)).mono
        rw [show m - 1 - (n : Int) = m - (n + 1 : Nat) by omega]
        rintro k (hlast | ⟨hk, hnone⟩)
        · left
          apply hlast.extend
          · rw [Int.sub_add_cancel]
            apply hm'
          · have hhi := hlast.hi
            omega
        · right
          use hk
          apply hnone.append
          rw [Int.sub_add_cancel]
          apply hm'

/-! ### Rounds -/

/-- What a round of the search does. -/
inductive Step (tab : Int → Stab) (type : Byte) (g : Region) : Region → Prop where
  /-- No stab of the type is found. -/
  | skip (hnone : NoneIn (Typed tab type) g.l g.true_m) :
      Step tab type g { g with l := g.true_m + 1 }
  | below (m : Int) (hm : LastIn (Typed tab type) g.l g.true_m m) (hv : (tab m).n_value < g.addr) :
      Step tab type g { g with any_matches := true, region_left := m, l := g.true_m + 1 }
  | above (m : Int) (hm : LastIn (Typed tab type) g.l g.true_m m) (hv : g.addr < (tab m).n_value) :
      Step tab type g { g with any_matches := true, region_right := m - 1, r := m - 1 }
  /-- The address is hit exactly. -/
  | hit (m : Int) (hm : LastIn (Typed tab type) g.l g.true_m m) (hv : (tab m).n_value = g.addr) :
      Step tab type g { g with any_matches := true, region_left := m, l := m, addr := g.addr + 1 }

theorem Region.true_m_mem (h : g.l ≤ g.r) :
  g.l ≤ g.true_m ∧ g.true_m ≤ g.r
  := by
  rw [Region.true_m]
  rcases Int.lt_or_le (g.l + g.r) 0 with hneg | hnonneg
  · have hsum : g.l + g.r = -(-(g.l + g.r)) := by omega
    rw [hsum, Int.neg_tdiv, Int.tdiv_eq_ediv_of_nonneg (by omega)]
    omega
  · rw [Int.tdiv_eq_ediv_of_nonneg hnonneg]
    omega

/-- A round reads stabs of what is left only. -/
theorem searchStep_gives (h : stabs.Shows I tab g.l g.r) (hle : g.l ≤ g.r) :
  (searchStep stabs type g).Gives I (Step tab type g)
  := by
  rcases Region.true_m_mem hle with ⟨hlo, hhi⟩
  have hfirst : g.true_m - (g.true_m - g.l + 1).toNat + 1 = g.l := by omega
  apply (scanDown_gives h (g.true_m - g.l + 1).toNat hhi (by omega)).bind
  rw [hfirst]
  rintro m (hm | ⟨hm, hnone⟩)
  · have hlast := hm.lo
    have hfound := hm.hi
    apply gives_ite
    · intro hlt
      omega
    · intro _
      apply (h.value m hlast (by omega)).bind
      rintro _ rfl
      apply gives_ite
      · intro hv
        apply gives_pure
        apply Step.below m hm hv
      · intro hbelow
        apply gives_ite
        · intro hv
          apply gives_pure
          apply Step.above m hm hv
        · intro habove
          apply gives_pure
          apply Step.hit m hm
          apply BitVec.le_antisymm (BitVec.not_lt.mp habove) (BitVec.not_lt.mp hbelow)
  · apply gives_ite
    · intro _
      apply gives_pure
      apply Step.skip hnone
    · intro hge
      omega

/-! ### The search ends -/

/-- How many stabs are left. -/
def Region.left (g : Region) : Nat :=
  (g.r - g.l + 1).toNat

open Classical in
/-- The address was just made larger than that of the first stab that is left: then there is no
further hit there. -/
noncomputable def Region.fresh (tab : Int → Stab) (type : Byte) (g : Region) : Nat :=
  if Typed tab type g.l ∧ (tab g.l).n_value + 1 = g.addr then 0 else 1

theorem Region.fresh_le (tab : Int → Stab) (type : Byte) (g : Region) :
  g.fresh tab type ≤ 1
  := by
  rw [Region.fresh]
  split
  case isTrue => omega
  case isFalse => apply Nat.le_refl

theorem Region.fresh_after {m : Int} (g : Region) (htype : Typed tab type m)
    (hv : (tab m).n_value = g.addr) :
  Region.fresh tab type
    { g with any_matches := true, region_left := m, l := m, addr := g.addr + 1 } = 0
  := by
  apply if_pos
  use htype
  rw [hv]

theorem Region.fresh_before (hv : (tab g.l).n_value = g.addr) :
  g.fresh tab type = 1
  := by
  apply if_neg
  rintro ⟨-, hnext⟩
  rw [hv] at hnext
  have hnat := congrArg BitVec.toNat hnext
  have hone : (1 : Word).toNat = 1 := rfl
  have hlt := g.addr.isLt
  rw [BitVec.toNat_add, hone] at hnat
  omega

/-- After a hit less is left, or there will be no further hit at the same stab. A round without a
hit leaves less. -/
theorem Step.left (h : Step tab type g g') (hle : g.l ≤ g.r) :
  g'.left < g.left ∨ (g'.left = g.left ∧ g'.fresh tab type = 0 ∧ g.fresh tab type = 1)
  := by
  rcases Region.true_m_mem hle with ⟨hlo, hhi⟩
  cases h with
  | skip hnone =>
      left
      simp only [Region.left]
      omega
  | below m hm hv =>
      left
      simp only [Region.left]
      omega
  | above m hm hv =>
      have hlo' := hm.lo
      have hhi' := hm.hi
      left
      simp only [Region.left]
      omega
  | hit m hm hv =>
      have hlo' := hm.lo
      have hhi' := hm.hi
      rcases Int.lt_or_le g.l m with hlt | hge
      · left
        simp only [Region.left]
        omega
      · have heq : m = g.l := by omega
        right
        use (by simp only [Region.left]; omega), Region.fresh_after g hm.holds hv
        apply Region.fresh_before
        rw [← heq]
        apply hv

/-- The rounds that are left at most. -/
noncomputable def Region.measure (tab : Int → Stab) (type : Byte) (g : Region) : Nat :=
  2 * g.left + g.fresh tab type

theorem Step.measure_lt (h : Step tab type g g') (hle : g.l ≤ g.r) :
  g'.measure tab type < g.measure tab type
  := by
  have hfresh := g'.fresh_le tab type
  rw [Region.measure, Region.measure]
  rcases h.left hle with hlt | ⟨heq, hzero, hone⟩
  · omega
  · omega

/-- What every round keeps holds when the search ends, and it does end. -/
theorem searchLoop_gives {P : Region → Prop} (hshows : stabs.Shows I tab a b)
    (hin : ∀ g, P g → a ≤ g.l ∧ g.r ≤ b)
    (hstep : ∀ g g', P g → g.l ≤ g.r → Step tab type g g' → P g') {k : Nat} (hP : P g)
    (hk : g.measure tab type < k) :
  (searchLoop stabs type k g).Gives I (fun g' => P g' ∧ g'.r < g'.l)
  := by
  induction k generalizing g with
  | zero => omega
  | succ k ih =>
      apply gives_ite
      · intro hle
        rcases hin g hP with ⟨ha, hb⟩
        apply (searchStep_gives (hshows.within ha hb) hle).bind
        intro g' hs
        have hlt := hs.measure_lt hle
        apply ih (hstep g g' hP hle hs) (by omega)
      · intro hgt
        apply gives_pure
        use hP
        omega

/-! ### Sorted tables -/

/-- From `a` to `b` the stabs of the type increase by address, with gaps larger than `1`. -/
def Sorted (tab : Int → Stab) (type : Byte) (a b : Int) : Prop :=
  ∀ i j, a ≤ i → i < j → j ≤ b → Typed tab type i → Typed tab type j →
    (tab i).n_value.toNat + 1 < (tab j).n_value.toNat

/-- An address that is hit can be made larger. -/
def NoWrap (tab : Int → Stab) (type : Byte) (a b : Int) (addr : Word) : Prop :=
  ∀ i, a ≤ i → i ≤ b → Typed tab type i → (tab i).n_value = addr → addr.toNat + 1 < 2 ^ 32

/-- The stab is of the type, and its address is not larger than `addr`. -/
def AtMost (tab : Int → Stab) (type : Byte) (addr : Word) (i : Int) : Prop :=
  Typed tab type i ∧ (tab i).n_value.toNat ≤ addr.toNat

/-- What is known during the search for `addr` from `a` to `b`. -/
structure Bracketed (tab : Int → Stab) (type : Byte) (a b : Int) (addr : Word) (g : Region) :
    Prop where
  lo : a ≤ g.l
  hi : g.r ≤ b
  le : g.l ≤ g.r + 1
  right : g.region_right = g.r
  next : g.r = b ∨ Typed tab type (g.r + 1)
  above : ∀ i, g.r < i → i ≤ b → Typed tab type i → addr.toNat < (tab i).n_value.toNat
  below : ∀ i, a ≤ i → i < g.l → Typed tab type i → (tab i).n_value.toNat ≤ addr.toNat
  sought : g.addr = addr ∨ (g.addr.toNat = addr.toNat + 1
    ∧ ∃ e, a ≤ e ∧ e ≤ b ∧ Typed tab type e ∧ (tab e).n_value = addr)
  left : (g.region_left = a ∧ NoneIn (Typed tab type) a (g.l - 1))
    ∨ (a ≤ g.region_left ∧ g.region_left ≤ g.r ∧ AtMost tab type addr g.region_left
      ∧ NoneIn (Typed tab type) (g.region_left + 1) (g.l - 1))
  none : g.any_matches = false →
    g.region_left = a ∧ g.r = b ∧ NoneIn (Typed tab type) a (g.l - 1)
  some : g.any_matches = true → ∃ i, a ≤ i ∧ i ≤ b ∧ Typed tab type i

/-- Before a stab whose address is at most the one that is searched there are no larger ones. -/
theorem Sorted.atMost {i m : Int} (hsorted : Sorted tab type a b) (hm : AtMost tab type addr m)
    (hmb : m ≤ b) (ha : a ≤ i) (him : i ≤ m) (htype : Typed tab type i) :
  (tab i).n_value.toNat ≤ addr.toNat
  := by
  have hle := hm.2
  rcases Int.lt_or_eq_of_le him with hlt | heq
  · have hgap := hsorted i m ha hlt hmb htype hm.1
    omega
  · rw [heq]
    apply hle

/-- Behind a stab whose address is larger than the one that is searched all are. -/
theorem Sorted.beyond {i m : Int} (hsorted : Sorted tab type a b) (hm : Typed tab type m)
    (hlt : addr.toNat < (tab m).n_value.toNat) (hma : a ≤ m) (hi : i ≤ b) (him : m ≤ i)
    (htype : Typed tab type i) :
  addr.toNat < (tab i).n_value.toNat
  := by
  rcases Int.lt_or_eq_of_le him with hlt' | heq
  · have hgap := hsorted m i hma hlt' hi hm htype
    omega
  · rw [← heq]
    apply hlt

namespace Bracketed

/-- No stab of the type is found: nothing is to the left of the middle. -/
theorem skip (hb : Bracketed tab type a b addr g) (hle : g.l ≤ g.r)
    (hnone : NoneIn (Typed tab type) g.l g.true_m) :
  Bracketed tab type a b addr { g with l := g.true_m + 1 }
  := by
  rcases Region.true_m_mem hle with ⟨hlo, hhi⟩
  have hcancel : g.true_m + 1 - 1 = g.true_m := Int.add_sub_cancel _ _
  have hjoin : ∀ {c}, NoneIn (Typed tab type) c (g.l - 1) → NoneIn (Typed tab type) c g.true_m := by
    intro c hc
    apply hc.append
    rw [Int.sub_add_cancel]
    apply hnone
  have hab := hb.lo
  constructor
  case lo => exact Int.le_trans hab (Int.le_trans hlo (Int.le_of_lt (Int.lt_succ _)))
  case hi => apply hb.hi
  case le => exact Int.add_le_add_right hhi 1
  case right => apply hb.right
  case next => apply hb.next
  case above => apply hb.above
  case below =>
    intro i hi hlt htype
    rcases Int.lt_or_le i g.l with hlt' | hge
    · apply hb.below i hi hlt' htype
    · apply (hnone i hge (Int.le_of_lt_add_one hlt) htype).elim
  case sought => apply hb.sought
  case left =>
    rw [hcancel]
    rcases hb.left with ⟨heq, hc⟩ | ⟨ha, hr, hmost, hc⟩
    · left
      exact ⟨heq, hjoin hc⟩
    · right
      exact ⟨ha, hr, hmost, hjoin hc⟩
  case none =>
    intro hany
    rw [hcancel]
    rcases hb.none hany with ⟨heq, hr, hc⟩
    exact ⟨heq, hr, hjoin hc⟩
  case some => apply hb.some

theorem found {m : Int} (hb : Bracketed tab type a b addr g) (hle : g.l ≤ g.r)
    (hm : LastIn (Typed tab type) g.l g.true_m m) :
  a ≤ m ∧ g.l ≤ m ∧ m ≤ g.true_m ∧ m ≤ g.r ∧ m ≤ b
  := by
  have hmid := (Region.true_m_mem hle).2
  have hlo := hb.lo
  have hhi := hb.hi
  have hml := hm.lo
  have hmr := hm.hi
  omega

section

variable (hsorted : Sorted tab type a b) (hb : Bracketed tab type a b addr g)
include hsorted hb

/-- Comparing with the address that was made larger is comparing with the address. -/
theorem compare {i : Int} (ha : a ≤ i) (hi : i ≤ b) (htype : Typed tab type i) :
  ((tab i).n_value < g.addr → (tab i).n_value.toNat ≤ addr.toNat)
    ∧ (g.addr < (tab i).n_value → addr.toNat < (tab i).n_value.toNat)
    ∧ ((tab i).n_value = g.addr → g.addr = addr)
  := by
  rcases hb.sought with heq | ⟨hnext, e, hae, heb, hetype, hevalue⟩
  · rw [heq, BitVec.lt_def, BitVec.lt_def]
    constructor
    · apply Nat.le_of_lt
    constructor
    · exact id
    · exact fun _ => rfl
  · rw [BitVec.lt_def, BitVec.lt_def, hnext]
    constructor
    · apply Nat.le_of_lt_succ
    constructor
    · apply Nat.lt_of_succ_lt
    · intro hvalue
      have hnat : (tab i).n_value.toNat = (tab e).n_value.toNat + 1 := by
        rw [hvalue, hnext, hevalue]
      rcases Int.lt_trichotomy i e with hlt | heq | hgt
      · have hgap := hsorted i e ha hlt heb htype hetype
        omega
      · rw [heq] at hnat
        omega
      · have hgap := hsorted e i hae hgt hi hetype htype
        omega

variable {m : Int} (hle : g.l ≤ g.r) (hm : LastIn (Typed tab type) g.l g.true_m m)
include hle hm

theorem lower (hv : (tab m).n_value < g.addr) :
  Bracketed tab type a b addr { g with any_matches := true, region_left := m, l := g.true_m + 1 }
  := by
  rcases Region.true_m_mem hle with ⟨hlo, hhi⟩
  rcases hb.found hle hm with ⟨ham, hlm, hmt, hmr, hmb⟩
  have hmost : AtMost tab type addr m :=
    ⟨hm.holds, (compare hsorted hb ham hmb hm.holds).1 hv⟩
  constructor
  case lo => exact Int.le_trans ham (Int.le_trans hmt (Int.le_of_lt (Int.lt_succ _)))
  case hi => apply hb.hi
  case le => exact Int.add_le_add_right hhi 1
  case right => apply hb.right
  case next => apply hb.next
  case above => apply hb.above
  case below =>
    intro i hi hlt htype
    rcases Int.lt_or_le m i with hlt' | hge
    · apply (hm.after i hlt' (Int.le_of_lt_add_one hlt) htype).elim
    · apply hsorted.atMost hmost hmb hi hge htype
  case sought => apply hb.sought
  case left =>
    right
    use ham, hmr, hmost
    rw [show g.true_m + 1 - 1 = g.true_m from Int.add_sub_cancel _ _]
    apply hm.after
  case none =>
    intro hany
    cases hany
  case some => exact fun _ => ⟨m, ham, hmb, hm.holds⟩

theorem upper (hv : g.addr < (tab m).n_value) :
  Bracketed tab type a b addr { g with any_matches := true, region_right := m - 1, r := m - 1 }
  := by
  rcases hb.found hle hm with ⟨ham, hlm, hmt, hmr, hmb⟩
  have hlarge := (compare hsorted hb ham hmb hm.holds).2.1 hv
  constructor
  case lo => apply hb.lo
  case hi => exact Int.le_trans (Int.le_of_lt (Int.sub_one_lt_of_le (Int.le_refl m))) hmb
  case le => exact Int.le_trans hlm (Int.le_of_eq (Int.sub_add_cancel m 1).symm)
  case right => rfl
  case next =>
    right
    rw [show m - 1 + 1 = m from Int.sub_add_cancel m 1]
    apply hm.holds
  case above =>
    intro i hi hib htype
    apply hsorted.beyond hm.holds hlarge ham hib (Int.le_of_sub_one_lt hi) htype
  case below => apply hb.below
  case sought => apply hb.sought
  case left =>
    rcases hb.left with hno | ⟨ha, hr, hmost, hc⟩
    · left
      apply hno
    · right
      refine ⟨ha, ?_, hmost, hc⟩
      have hlt : g.region_left < m := by
        rcases Int.lt_or_le g.region_left m with hlt | hge
        · apply hlt
        · have hbeyond := hsorted.beyond hm.holds hlarge ham (Int.le_trans hr hb.hi) hge hmost.1
          have hmost' := hmost.2
          omega
      apply Int.le_sub_one_of_lt hlt
  case none =>
    intro hany
    cases hany
  case some => exact fun _ => ⟨m, ham, hmb, hm.holds⟩

theorem exact (hmax : addr.toNat + 1 < 2 ^ 32) (hv : (tab m).n_value = g.addr) :
  Bracketed tab type a b addr
    { g with any_matches := true, region_left := m, l := m, addr := g.addr + 1 }
  := by
  rcases hb.found hle hm with ⟨ham, hlm, hmt, hmr, hmb⟩
  have haddr := (compare hsorted hb ham hmb hm.holds).2.2 hv
  have hvalue : (tab m).n_value = addr := hv.trans haddr
  have hmost : AtMost tab type addr m := ⟨hm.holds, Nat.le_of_eq (congrArg BitVec.toNat hvalue)⟩
  constructor
  case lo => apply ham
  case hi => apply hb.hi
  case le => exact Int.le_trans hmr (Int.le_of_lt (Int.lt_succ _))
  case right => apply hb.right
  case next => apply hb.next
  case above => apply hb.above
  case below =>
    intro i hi hlt htype
    apply hsorted.atMost hmost hmb hi (Int.le_of_lt hlt) htype
  case sought =>
    right
    refine ⟨?_, m, ham, hmb, hm.holds, hvalue⟩
    have hone : (1 : Word).toNat = 1 := rfl
    rw [haddr, BitVec.toNat_add, hone, Nat.mod_eq_of_lt hmax]
  case left =>
    right
    use ham, hmr, hmost
    apply noneIn_of_lt
    change m - 1 < m + 1
    omega
  case none =>
    intro hany
    cases hany
  case some => exact fun _ => ⟨m, ham, hmb, hm.holds⟩

end

end Bracketed

/-- Every round keeps the bracket. -/
theorem Step.bracketed (h : Step tab type g g') (hle : g.l ≤ g.r) (hsorted : Sorted tab type a b)
    (hmax : NoWrap tab type a b addr) (hb : Bracketed tab type a b addr g) :
  Bracketed tab type a b addr g'
  := by
  cases h with
  | skip hnone => apply hb.skip hle hnone
  | below m hm hv => apply hb.lower hsorted hle hm hv
  | above m hm hv => apply hb.upper hsorted hle hm hv
  | hit m hm hv =>
      rcases hb.found hle hm with ⟨ham, -, -, -, hmb⟩
      have heq := hv.trans ((hb.compare hsorted ham hmb hm.holds).2.2 hv)
      apply hb.exact hsorted hle hm (hmax m ham hmb hm.holds heq) hv

theorem bracketed_start (tab : Int → Stab) (type : Byte) (addr : Word) (hab : a ≤ b + 1) :
  Bracketed tab type a b addr
    { l := a, r := b, region_left := a, region_right := b, any_matches := false, addr := addr }
  := by
  have hbefore : NoneIn (Typed tab type) a (a - 1) := by
    apply noneIn_of_lt (Int.sub_one_lt_of_le (Int.le_refl a))
  constructor
  case lo => apply Int.le_refl
  case hi => apply Int.le_refl
  case le => apply hab
  case right => rfl
  case next => left; rfl
  case above =>
    intro i hlt hle
    apply (Int.not_lt.mpr hle hlt).elim
  case below =>
    intro i hle hlt
    apply (Int.not_lt.mpr hle hlt).elim
  case sought => left; rfl
  case left => left; exact ⟨rfl, hbefore⟩
  case none => exact fun _ => ⟨rfl, rfl, hbefore⟩
  case some =>
    intro hany
    cases hany

/-! ### What is found -/

/-- What the search for `addr` from `a` to `b` leaves in `*region_left` and `*region_right`. -/
inductive Brackets (tab : Int → Stab) (type : Byte) (a b : Int) (addr : Word) :
    Int × Int → Prop where
  /-- The stab that contains the address, and the place before the next one. -/
  | found (left right : Int) (hlast : LastIn (AtMost tab type addr) a b left) (hle : left ≤ right)
      (hright : right ≤ b) (hnone : NoneIn (Typed tab type) (left + 1) right)
      (hnext : right = b ∨ Typed tab type (right + 1)) : Brackets tab type a b addr (left, right)
  /-- There is no stab of the type. -/
  | absent (hnone : NoneIn (Typed tab type) a b) : Brackets tab type a b addr (a, a - 1)
  /-- All stabs of the type are behind the address: the place before the first one. -/
  | behind (left right : Int) (ha : a ≤ right + 1) (hb : right + 1 ≤ b)
      (htype : Typed tab type (right + 1)) (hnone : NoneIn (AtMost tab type addr) a b)
      (hle : left ≤ right) (hleft : left = a ∨ left = right) : Brackets tab type a b addr (left, right)

theorem measure_start (h : g.l = a) (h' : g.r = b) :
  g.measure tab type < 2 * (b - a + 1).toNat + 2
  := by
  have hfresh := g.fresh_le tab type
  rw [Region.measure, Region.left, h, h']
  omega

/-- What `stab_binsearch` makes of the bracket when the search has ended. -/
theorem Bracketed.finish (hshows : stabs.Shows I tab a b) (hb : Bracketed tab type a b addr g)
    (hend : g.r < g.l) :
  (if g.any_matches = false then pure (g.region_left, g.region_left - 1)
    else do
      let l ← scanDown stabs type (g.region_right - g.region_left).toNat g.region_right
      pure (l, g.region_right) : Prog σ (Int × Int)).Gives I (Brackets tab type a b addr)
  := by
  have hl : g.l - 1 = g.r := by
    have hle := hb.le
    omega
  apply gives_ite
  · intro hany
    rcases hb.none hany with ⟨hleft, hr, hnone⟩
    rw [hl, hr] at hnone
    apply gives_pure
    rw [hleft]
    apply Brackets.absent hnone
  · intro hany
    rcases hb.some (eq_true_of_ne_false hany) with ⟨i, hai, hib, htype⟩
    have hlo := hb.lo
    have hhi := hb.hi
    rw [hb.right]
    have hbehind : ∀ {c}, NoneIn (Typed tab type) c g.r → NoneIn (AtMost tab type addr) c b := by
      intro c hc j hcj hjb hmost
      rcases Int.lt_or_le g.r j with hlt | hge
      · have habove := hb.above j hlt hjb hmost.1
        have hle := hmost.2
        omega
      · apply hc j hcj hge hmost.1
    rcases hb.left with ⟨hleft, hnone⟩ | ⟨hleft, hr, hmost, hnone⟩
    · rw [hl] at hnone
      have hlt : g.r < i := by
        rcases Int.lt_or_le g.r i with hlt | hge
        · apply hlt
        · apply (hnone i hai hge htype).elim
      have hnext : Typed tab type (g.r + 1) := by
        rcases hb.next with heq | hnext
        · omega
        · apply hnext
      apply (scanDown_gives hshows (g.r - g.region_left).toNat hhi (by omega)).bind
      rintro k (hk | ⟨hk, -⟩)
      · have hk' := hk.lo
        apply (hnone k (by omega) hk.hi hk.holds).elim
      · apply gives_pure
        apply Brackets.behind k g.r (by omega) (by omega) hnext (hbehind hnone)
        · omega
        · omega
    · rw [hl] at hnone
      have hcount : g.r - (g.r - g.region_left).toNat = g.region_left := by omega
      apply (scanDown_gives hshows (g.r - g.region_left).toNat hhi (by omega)).bind
      rw [hcount]
      rintro k (hk | ⟨rfl, -⟩)
      · apply (hnone k hk.lo hk.hi hk.holds).elim
      · apply gives_pure
        apply Brackets.found _ g.r _ hr hhi hnone hb.next
        exact ⟨hleft, Int.le_trans hr hhi, hmost, hbehind hnone⟩

/-- In an empty range nothing is read. -/
theorem stabBinsearch_empty (h : b < a) :
  stabBinsearch stabs a b type addr = pure (a, a - 1)
  := by
  have hloop : ∀ k g, g.r < g.l → searchLoop stabs type (k + 1) g = pure g :=
    fun k g hlt => if_neg (Int.not_le.mpr hlt)
  rw [stabBinsearch, hloop _ _ h, pure_bind]
  rfl

/-- In a sorted table the search ends with a bracket. -/
theorem stabBinsearch_gives (hshows : stabs.Shows I tab a b) (hsorted : Sorted tab type a b)
    (hmax : NoWrap tab type a b addr) :
  (stabBinsearch stabs a b type addr).Gives I (Brackets tab type a b addr)
  := by
  rcases Int.lt_or_le b a with hempty | hab
  · rw [stabBinsearch_empty hempty]
    apply gives_pure
    apply Brackets.absent (noneIn_of_lt hempty)
  · apply (searchLoop_gives (P := Bracketed tab type a b addr) hshows (fun g hg => ⟨hg.lo, hg.hi⟩)
      (fun g g' hg hle hs => hs.bracketed hle hsorted hmax hg)
      (bracketed_start tab type addr (Int.le_add_one hab)) (measure_start rfl rfl)).bind
    rintro g ⟨hg, hend⟩
    apply hg.finish hshows hend

/-! ### The largest address -/

/-- The stab is at the address, and that is the largest one of all, which cannot be made larger. -/
def AtTop (tab : Int → Stab) (i : Int) (addr : Word) : Prop :=
  addr = 0xFFFFFFFF ∧ (tab i).n_value = addr

instance (tab : Int → Stab) (i : Int) (addr : Word) : Decidable (AtTop tab i addr) :=
  inferInstanceAs (Decidable (_ ∧ _))

theorem AtTop.toNat (h : AtTop tab a addr) :
  addr.toNat = 2 ^ 32 - 1 ∧ (tab a).n_value.toNat = 2 ^ 32 - 1
  := by
  rw [h.2, h.1]
  constructor
  · rfl
  · rfl

/-- The address can be made larger unless it is the largest one and hits a stab, the last one of the
type. -/
theorem noWrap_of_not_atTop {m : Int} (hsorted : Sorted tab type a b)
    (hm : LastIn (AtMost tab type addr) a b m) (h : ¬ AtTop tab m addr) :
  NoWrap tab type a b addr
  := by
  intro i ha hb htype hvalue
  have hlt := addr.isLt
  by_contra hover
  have hmost : AtMost tab type addr i := ⟨htype, Nat.le_of_eq (congrArg BitVec.toNat hvalue)⟩
  have htop : addr = 0xFFFFFFFF := by
    apply BitVec.eq_of_toNat_eq
    change addr.toNat = 2 ^ 32 - 1
    omega
  rcases Int.lt_trichotomy i m with hlt' | heq | hgt
  · have hgap := hsorted i m ha hlt' hm.hi htype hm.holds.1
    have hmax := (tab m).n_value.isLt
    rw [hvalue] at hgap
    omega
  · apply h
    use htop
    rw [← heq]
    apply hvalue
  · apply hm.after i (by omega) hb hmost

/-- What is known during the search for the largest address, which is that of the stab `m`. -/
inductive Wrapping (a b m : Int) (addr : Word) (g : Region) : Prop where
  | before (ha : a ≤ g.l) (hm : g.l ≤ m) (hr : g.r = b) (haddr : g.addr = addr)
  /-- The address was made larger, and is zero. -/
  | wrapped (hany : g.any_matches = true) (hleft : g.region_left = m) (hl : g.l = m) (hr : g.r = b)
      (haddr : g.addr = 0)
  /-- The stab that was hit is taken to be behind the address. -/
  | past (hany : g.any_matches = true) (hleft : g.region_left = m) (hright : g.region_right = m - 1)
      (hl : g.l = m) (hr : g.r = m - 1)

theorem Step.wrapping {m : Int} (h : Step tab type g g') (hle : g.l ≤ g.r)
    (hsorted : Sorted tab type a b) (hm : LastIn (AtMost tab type addr) a b m)
    (htop : AtTop tab m addr) (hw : Wrapping a b m addr g) :
  Wrapping a b m addr g'
  := by
  rcases Region.true_m_mem hle with ⟨hlo, hhi⟩
  rcases htop.toNat with ⟨haddr, hvalue⟩
  have hmb := hm.hi
  have hmost : ∀ {k}, Typed tab type k → AtMost tab type addr k := by
    intro k hk
    use hk
    have hlt := (tab k).n_value.isLt
    omega
  -- What is found up to a middle that is not before `m` is `m` itself.
  have hlast : ∀ {k}, g.r = b → g.l ≤ m → m ≤ g.true_m →
      LastIn (Typed tab type) g.l g.true_m k → k = m := by
    intro k hr hlm hmt hk
    have hkt := hk.hi
    rcases Int.lt_trichotomy k m with hlt | heq | hgt
    · apply (hk.after m (by omega) hmt hm.holds.1).elim
    · apply heq
    · apply (hm.after k (by omega) (by omega) (hmost hk.holds)).elim
  cases hw with
  | before ha hlm hr heq =>
      cases h with
      | skip hnone =>
          refine Wrapping.before ?_ ?_ hr heq
          · exact Int.le_trans ha (Int.le_trans hlo (Int.le_of_lt (Int.lt_succ _)))
          · rcases Int.lt_or_le g.true_m m with hlt | hge
            · apply hlt
            · apply (hnone m hlm hge hm.holds.1).elim
      | below k hk hv =>
          refine Wrapping.before ?_ ?_ hr heq
          · exact Int.le_trans ha (Int.le_trans hlo (Int.le_of_lt (Int.lt_succ _)))
          · rcases Int.lt_or_le g.true_m m with hlt | hge
            · apply hlt
            · rw [hlast hr hlm hge hk, heq, BitVec.lt_def] at hv
              omega
      | above k hk hv =>
          have hlt := (tab k).n_value.isLt
          rw [heq, BitVec.lt_def] at hv
          omega
      | hit k hk hv =>
          have hkm : k = m := by
            have hkl := hk.lo
            have hkt := hk.hi
            have hnat : (tab k).n_value.toNat = addr.toNat := by rw [hv, heq]
            rcases Int.lt_trichotomy k m with hlt | heq' | hgt
            · have hgap := hsorted k m (by omega) hlt hmb hk.holds hm.holds.1
              omega
            · apply heq'
            · apply (hm.after k (by omega) (by omega) (hmost hk.holds)).elim
          refine Wrapping.wrapped rfl hkm hkm hr ?_
          change g.addr + 1 = 0
          rw [heq, htop.1]
          rfl
  | wrapped hany hleft hl hr heq =>
      have hlm : g.l ≤ m := Int.le_of_eq hl
      have hmt : m ≤ g.true_m := Int.le_trans (Int.le_of_eq hl.symm) hlo
      have hzero : (0 : Word).toNat = 0 := rfl
      cases h with
      | skip hnone => apply (hnone m hlm hmt hm.holds.1).elim
      | below k hk hv =>
          rw [heq, BitVec.lt_def] at hv
          omega
      | above k hk hv =>
          rcases hlast hr hlm hmt hk with rfl
          exact Wrapping.past rfl hleft rfl hl rfl
      | hit k hk hv =>
          rw [hlast hr hlm hmt hk, heq] at hv
          rw [hv] at hvalue
          omega
  | past hany hleft hright hl hr => omega

/-- Where the largest address hits a stab, the search ends in front of that stab. -/
theorem stabBinsearch_wraps {m : Int} (hshows : stabs.Shows I tab a b)
    (hsorted : Sorted tab type a b) (hm : LastIn (AtMost tab type addr) a b m)
    (htop : AtTop tab m addr) :
  (stabBinsearch stabs a b type addr).Gives I (fun p => p = (m - 1, m - 1))
  := by
  have ham := hm.lo
  have hmb := hm.hi
  have hin : ∀ g, Wrapping a b m addr g → a ≤ g.l ∧ g.r ≤ b := by
    intro g hg
    cases hg with
    | before ha hlm hr haddr => exact ⟨ha, Int.le_of_eq hr⟩
    | wrapped hany hleft hl hr haddr => omega
    | past hany hleft hright hl hr => omega
  apply (searchLoop_gives hshows hin (fun g g' hg hle hs => hs.wrapping hle hsorted hm htop hg)
    (Wrapping.before (Int.le_refl a) ham rfl rfl) (measure_start rfl rfl)).bind
  rintro g ⟨hg, hend⟩
  cases hg with
  | before ha hlm hr haddr => omega
  | wrapped hany hleft hl hr haddr => omega
  | past hany hleft hright hl hr =>
      apply gives_ite
      · intro hno
        rw [hany] at hno
        cases hno
      · intro _
        rw [hleft, hright, show (m - 1 - m).toNat = 0 by omega]
        apply gives_pure
        rfl

/-- What the search among the stab `i` alone leaves. -/
def single (tab : Int → Stab) (type : Byte) (addr : Word) (i : Int) : Int × Int :=
  if Typed tab type i then
    if (tab i).n_value.toNat ≤ addr.toNat ∧ ¬ AtTop tab i addr then (i, i) else (i - 1, i - 1)
  else
    (i, i - 1)

theorem stabBinsearch_single {i : Int} (hshows : stabs.Shows I tab i i) :
  (stabBinsearch stabs i i type addr).Gives I (fun p => p = single tab type addr i)
  := by
  have hsorted : Sorted tab type i i := by
    intro j k hj hjk hk
    omega
  have honly : ∀ {j}, i ≤ j → j ≤ i → j = i := fun h h' => Int.le_antisymm h' h
  have hlast : AtMost tab type addr i → LastIn (AtMost tab type addr) i i i :=
    fun hmost => ⟨Int.le_refl i, Int.le_refl i, hmost, noneIn_of_lt (Int.lt_succ i)⟩
  rw [single]
  by_cases htop : AtTop tab i addr
  · by_cases htype : Typed tab type i
    · rw [if_pos htype, if_neg (fun h => h.2 htop)]
      apply stabBinsearch_wraps hshows hsorted (hlast _) htop
      exact ⟨htype, Nat.le_of_eq (congrArg BitVec.toNat htop.2)⟩
    · have hwrap : NoWrap tab type i i addr := by
        intro j hj hj' htype'
        rcases honly hj hj' with rfl
        apply (htype htype').elim
      rw [if_neg htype]
      apply (stabBinsearch_gives hshows hsorted hwrap).mono
      rintro p hp
      cases hp with
      | found left right hl =>
          rcases honly hl.lo hl.hi with rfl
          apply (htype hl.holds.1).elim
      | absent => rfl
      | behind left right ha hb htype' =>
          rw [honly ha hb] at htype'
          apply (htype htype').elim
  · have hwrap : NoWrap tab type i i addr := by
      intro j hj hj' _ hvalue
      rcases honly hj hj' with rfl
      have hlt := addr.isLt
      by_contra hover
      apply htop
      refine ⟨BitVec.eq_of_toNat_eq ?_, hvalue⟩
      change addr.toNat = 2 ^ 32 - 1
      omega
    apply (stabBinsearch_gives hshows hsorted hwrap).mono
    rintro p hp
    cases hp with
    | found left right hl hle hright =>
        rcases honly hl.lo hl.hi with rfl
        rcases honly hle hright with rfl
        rw [if_pos hl.holds.1, if_pos ⟨hl.holds.2, htop⟩]
    | absent hnone =>
        rw [if_neg (hnone i (Int.le_refl i) (Int.le_refl i))]
    | behind left right ha hb htype hnone hle hleft =>
        have heq := honly ha hb
        have hlt : ¬ (tab i).n_value.toNat ≤ addr.toNat := by
          intro hmost
          apply hnone i (Int.le_refl i) (Int.le_refl i)
          rw [heq] at htype
          exact ⟨htype, hmost⟩
        rw [heq] at htype
        rw [if_pos htype, if_neg (fun h => hlt h.1)]
        rw [show left = i - 1 by omega, show right = i - 1 by omega]

/-! ### The contract of `stab_binsearch` -/

/-- Give the field of a stab from `a` to `b`; other stabs are not there to be read. -/
def readIn {α : Type} (field : Stab → α) (tab : Int → Stab) (a b i : Int) : Prog Unit α :=
  if a ≤ i ∧ i ≤ b then pure (field (tab i)) else Prog.fault i.toNat

/-- The stabs of a table from `a` to `b`. -/
def stabsIn (tab : Int → Stab) (a b : Int) : Stabs Unit where
  n_strx := readIn Stab.n_strx tab a b
  n_type := readIn Stab.n_type tab a b
  n_desc := readIn Stab.n_desc tab a b
  n_value := readIn Stab.n_value tab a b

theorem readIn_gives {α : Type} (field : Stab → α) {i : Int} (ha : a ≤ i) (hb : i ≤ b) :
  (readIn field tab a b i).Gives (fun _ => True) (fun v => v = field (tab i))
  := by
  rw [readIn, if_pos ⟨ha, hb⟩]
  apply gives_pure
  rfl

theorem stabsIn_shows (tab : Int → Stab) (a b : Int) :
  (stabsIn tab a b).Shows (fun _ => True) tab a b
  := by
  constructor
  case strx => exact fun _ => readIn_gives _
  case type => exact fun _ => readIn_gives _
  case desc => exact fun _ => readIn_gives _
  case value => exact fun _ => readIn_gives _

/-- What the comment of `stab_binsearch` promises: the stab that contains `addr` and the place
before the next stab of the type, or a left end that is larger than the right one. -/
structure Contract (tab : Int → Stab) (type : Byte) (a b : Int) (addr : Word) (left right : Int) :
    Prop where
  contained : (∃ i, a ≤ i ∧ i ≤ b ∧ AtMost tab type addr i) →
    LastIn (AtMost tab type addr) a b left
      ∧ NoneIn (Typed tab type) (left + 1) right
      ∧ ((right < b ∧ Typed tab type (right + 1)) ∨ right = b)
  lost : (¬ ∃ i, a ≤ i ∧ i ≤ b ∧ AtMost tab type addr i) → right < left

/-- The search ends, reads no stab that is not from `a` to `b`, and does what it promises. -/
def Meets (tab : Int → Stab) (type : Byte) (a b : Int) (addr : Word) : Prop :=
  ∃ left right, stabBinsearch (stabsIn tab a b) a b type addr () = .ok ((left, right), ())
    ∧ Contract tab type a b addr left right

theorem contract_iff {left right : Int} (h : Brackets tab type a b addr (left, right)) :
  Contract tab type a b addr left right
    ↔ (∃ i, a ≤ i ∧ i ≤ b ∧ AtMost tab type addr i) ∨ NoneIn (Typed tab type) a b
  := by
  constructor
  · intro hc
    by_cases hex : ∃ i, a ≤ i ∧ i ≤ b ∧ AtMost tab type addr i
    · left
      apply hex
    · right
      have hlt := hc.lost hex
      cases h with
      | found left right hlast hle hright hnone hnext =>
          apply (hex ⟨left, hlast.lo, hlast.hi, hlast.holds⟩).elim
      | absent hnone => apply hnone
      | behind left right ha hb htype hnone hle _ => omega
  · intro hcond
    cases h with
    | found left right hlast hle hright hnone hnext =>
        constructor
        case contained =>
          intro _
          use hlast, hnone
          rcases hnext with heq | htype
          · right
            apply heq
          · rcases Int.lt_or_eq_of_le hright with hlt | heq
            · left
              exact ⟨hlt, htype⟩
            · right
              apply heq
        case lost =>
          intro hex
          apply (hex ⟨left, hlast.lo, hlast.hi, hlast.holds⟩).elim
    | absent hnone =>
        constructor
        case contained =>
          rintro ⟨i, ha, hb, hmost⟩
          apply (hnone i ha hb hmost.1).elim
        case lost =>
          intro _
          apply Int.sub_one_lt_of_le (Int.le_refl a)
    | behind left right ha hb htype hnone hle _ =>
        rcases hcond with ⟨j, hja, hjb, hmost⟩ | hno
        · apply (hnone j hja hjb hmost).elim
        · apply (hno (right + 1) ha hb htype).elim

/-- `stab_binsearch` does what it promises unless there are stabs of the type, all of them behind the
address. -/
theorem meets_iff (hsorted : Sorted tab type a b) (hmax : addr.toNat < 2 ^ 32 - 1) :
  Meets tab type a b addr
    ↔ (∃ i, a ≤ i ∧ i ≤ b ∧ AtMost tab type addr i) ∨ NoneIn (Typed tab type) a b
  := by
  have hgives : (stabBinsearch (stabsIn tab a b) a b type addr).Gives (fun _ => True)
      (Brackets tab type a b addr) := by
    apply stabBinsearch_gives (stabsIn_shows tab a b) hsorted
    intro _ _ _ _ _
    omega
  rcases hgives () trivial with ⟨⟨left, right⟩, _, heq, -, hbrackets⟩
  constructor
  · rintro ⟨left', right', heq', hcontract⟩
    rw [heq] at heq'
    rcases heq' with ⟨rfl, rfl⟩
    apply (contract_iff hbrackets).mp hcontract
  · intro hcond
    use left, right, heq
    apply (contract_iff hbrackets).mpr hcond

/-- Two source files at the indices `1` and `3`. -/
def twoFiles (i : Int) : Stab where
  n_strx := 0
  n_type := if i = 1 ∨ i = 3 then Stab.N_SO else Stab.N_SLINE
  n_desc := 0
  n_value := if i = 1 then 0x100 else if i = 3 then 0x200 else 0

theorem twoFiles_typed {i : Int} (h : Typed twoFiles Stab.N_SO i) :
  i = 1 ∨ i = 3
  := by
  by_contra hno
  change (if i = 1 ∨ i = 3 then Stab.N_SO else Stab.N_SLINE) = Stab.N_SO at h
  rw [if_neg hno] at h
  revert h
  decide

theorem twoFiles_sorted :
  Sorted twoFiles Stab.N_SO 0 4
  := by
  intro i j _ hij _ htype htype'
  rcases twoFiles_typed htype with rfl | rfl
  · rcases twoFiles_typed htype' with rfl | rfl
    · omega
    · decide
  · rcases twoFiles_typed htype' with rfl | rfl
    · omega
    · omega

/-- The address `0x180` is in the first of the two files. -/
theorem meets_twoFiles :
  Meets twoFiles Stab.N_SO 0 4 0x180
  := by
  apply (meets_iff twoFiles_sorted (by decide)).mpr
  left
  exact ⟨1, by decide, by decide, rfl, by decide⟩

/-- The address `0x80` is in none of the two files, but the search leaves a range. -/
theorem not_meets :
  ¬ ∀ (tab : Int → Stab) (type : Byte) (a b : Int) (addr : Word), Sorted tab type a b →
    addr.toNat < 2 ^ 32 - 1 → Meets tab type a b addr
  := by
  intro hall
  rcases hall twoFiles Stab.N_SO 0 4 0x80 twoFiles_sorted (by decide)
    with ⟨left, right, heq, hcontract⟩
  have hrun : stabBinsearch (stabsIn twoFiles 0 4) 0 4 Stab.N_SO 0x80 () = .ok ((0, 0), ()) := by
    rfl
  rw [hrun] at heq
  rcases heq with ⟨rfl, rfl⟩
  have hlt : (0 : Int) < 0 := by
    apply hcontract.lost
    rintro ⟨i, -, -, htype, hle⟩
    rcases twoFiles_typed htype with rfl | rfl
    · revert hle
      decide
    · revert hle
      decide
  omega

end Jos
