import Jos.Lib.CString

/-!
# Memories that are read in part

A `View` says what is read at an address, if the address may be read at all: the memory as one
party sees it.  Strings and argument vectors are defined over views, so that what a program
reads before it copies them and what another program reads of the copy are stated in the same
words.
-/

namespace Bytes

/-- What is read at an address of 32 bits, if anything may be read there. -/
abbrev View := Word → Option Byte

namespace View

variable {v v' : View} {a s : Word} {bs : List Byte}

/-- The address `i` bytes behind `a`. -/
def off (a : Word) (i : Nat) : Word :=
  a + BitVec.ofNat 32 i

/-- The word at `a`. -/
def word (v : View) (a : Word) : Option Word := do
  let b0 ← v a
  let b1 ← v (off a 1)
  let b2 ← v (off a 2)
  let b3 ← v (off a 3)
  pure (b3 ++ b2 ++ b1 ++ b0)

/-- A string at `s`: the bytes `bs`, none of them zero, and a zero byte. -/
structure Str (v : View) (s : Word) (bs : List Byte) : Prop where
  bytes : ∀ i (h : i < bs.length), v (off s i) = some bs[i]
  zero : v (off s bs.length) = some 0
  notMem : 0 ∉ bs

/-- An argument vector at `a`: pointers to strings, none of them null, and a null pointer. The
list holds the pointers with their strings. -/
def Args (v : View) : Word → List (Word × List Byte) → Prop
  | a, [] => v.word a = some 0
  | a, (p, bs) :: args => v.word a = some p ∧ p ≠ 0 ∧ v.Str p bs ∧ v.Args (a + 4) args

/-- What may be read in `v` is read in `v'` too. -/
def Within (v v' : View) : Prop :=
  ∀ a b, v a = some b → v' a = some b

/-- The part of a view whose addresses have the property `P`. -/
def on (v : View) (P : Word → Prop) [DecidablePred P] : View :=
  fun a => if P a then v a else none

/-! ### Addresses -/

theorem off_zero (a : Word) :
  off a 0 = a
  := BitVec.add_zero a

theorem off_off (a : Word) (i j : Nat) :
  off (off a i) j = off a (i + j)
  := by
  rw [off, off, off, BitVec.add_assoc, BitVec.ofNat_add]

theorem off_toNat (a : Word) (i : Nat) :
  (off a i).toNat = (a.toNat + i) % 2 ^ 32
  := by
  rw [off, BitVec.toNat_add, BitVec.toNat_ofNat, Nat.add_mod_mod]

/-- An address comes again after going round once. -/
theorem off_mod (a : Word) (i : Nat) :
  off a (i % 2 ^ 32) = off a i
  := by
  apply BitVec.eq_of_toNat_eq
  rw [off_toNat, off_toNat, Nat.add_mod_mod]

/-! ### Views that see more -/

theorem within_on {P : Word → Prop} [DecidablePred P] :
  (v.on P).Within v
  := by
  intro a b h
  rw [on] at h
  split at h
  case isTrue => exact h
  case isFalse => cases h

/-! ### Words, strings and argument vectors -/

theorem word_eq_some {x : Word} :
  v.word a = some x ↔ ∃ b0 b1 b2 b3, v a = some b0 ∧ v (off a 1) = some b1 ∧ v (off a 2) = some b2
    ∧ v (off a 3) = some b3 ∧ x = b3 ++ b2 ++ b1 ++ b0
  := by
  simp only [word, Option.bind_eq_bind, Option.bind_eq_some_iff, Option.pure_def, Option.some.injEq]
  constructor
  · rintro ⟨b0, h0, b1, h1, b2, h2, b3, h3, rfl⟩
    use b0, b1, b2, b3
  · rintro ⟨b0, b1, b2, b3, h0, h1, h2, h3, rfl⟩
    use b0, h0, b1, h1, b2, h2, b3, h3

/-- A word of a memory, seen through a view. -/
theorem word_of_bytes {m : Memory} {b : Nat} (h : ∀ i < 4, v (off a i) = some (m (b + i))) :
  v.word a = some (read32 m b)
  := by
  rw [word_eq_some]
  have h0 := h 0 (by omega)
  rw [off_zero] at h0
  use m b, m (b + 1), m (b + 2), m (b + 3), h0, h 1 (by omega), h 2 (by omega), h 3 (by omega)
  rfl

theorem Within.word {x : Word} (h : v.Within v') (hx : v.word a = some x) :
  v'.word a = some x
  := by
  rw [word_eq_some] at hx ⊢
  obtain ⟨b0, b1, b2, b3, h0, h1, h2, h3, rfl⟩ := hx
  use b0, b1, b2, b3, h _ _ h0, h _ _ h1, h _ _ h2, h _ _ h3

theorem Within.str (h : v.Within v') (hs : v.Str s bs) :
  v'.Str s bs
  := by
  constructor
  case bytes => exact fun i hi => h _ _ (hs.bytes i hi)
  case zero => exact h _ _ hs.zero
  case notMem => exact hs.notMem

theorem Str.ne_zero (h : v.Str s bs) {i : Nat} (hi : i < bs.length) :
  bs[i] ≠ 0
  := fun h0 => h.notMem (h0 ▸ List.getElem_mem hi)

/-- A string does not go round: the zero byte would come up among its bytes. -/
theorem Str.length_lt (h : v.Str s bs) :
  bs.length < 2 ^ 32
  := by
  by_contra hge
  have hi : bs.length - 2 ^ 32 < bs.length := by omega
  have hsame : off s (bs.length - 2 ^ 32) = off s bs.length := by
    have hmod : (bs.length - 2 ^ 32) % 2 ^ 32 = bs.length % 2 ^ 32 := by omega
    rw [← off_mod s bs.length, ← hmod, off_mod]
  have hbyte := h.bytes _ hi
  rw [hsame, h.zero] at hbyte
  exact h.ne_zero hi (Option.some.inj hbyte).symm

section Args

variable {args : List (Word × List Byte)}

theorem Within.argv (h : v.Within v') (ha : v.Args a args) :
  v'.Args a args
  := by
  induction args generalizing a with
  | nil => exact h.word ha
  | cons arg args ih =>
      obtain ⟨hp, hne, hs, hrest⟩ := ha
      exact ⟨h.word hp, hne, h.str hs, ih hrest⟩

/-- The pointers of an argument vector. -/
theorem Args.pointer (h : v.Args a args) {i : Nat} (hi : i < args.length) :
  v.word (off a (4 * i)) = some args[i].1 ∧ args[i].1 ≠ 0
  := by
  induction args generalizing a i with
  | nil => cases hi
  | cons arg args ih =>
      obtain ⟨hp, hne, -, hrest⟩ := h
      cases i with
      | zero =>
          rw [Nat.mul_zero, off_zero]
          exact ⟨hp, hne⟩
      | succ i =>
          have hoff : off a (4 * (i + 1)) = off (a + 4) (4 * i) := by
            rw [show 4 * (i + 1) = 4 + 4 * i by omega, ← off_off]
            rfl
          rw [hoff]
          exact ih hrest (Nat.lt_of_succ_lt_succ hi)

/-- The null pointer behind the pointers of an argument vector. -/
theorem Args.null (h : v.Args a args) :
  v.word (off a (4 * args.length)) = some 0
  := by
  induction args generalizing a with
  | nil =>
      rw [List.length_nil, Nat.mul_zero, off_zero]
      exact h
  | cons arg args ih =>
      have hoff : off a (4 * (args.length + 1)) = off (a + 4) (4 * args.length) := by
        rw [show 4 * (args.length + 1) = 4 + 4 * args.length by omega, ← off_off]
        rfl
      rw [List.length_cons, hoff]
      exact ih h.2.2.2

/-- An argument vector does not go round: the null pointer would come up among the others. -/
theorem Args.length_lt (h : v.Args a args) :
  args.length < 2 ^ 30
  := by
  by_contra hge
  have hi : args.length - 2 ^ 30 < args.length := by omega
  have hsame : off a (4 * (args.length - 2 ^ 30)) = off a (4 * args.length) := by
    have hmod : (4 * (args.length - 2 ^ 30)) % 2 ^ 32 = 4 * args.length % 2 ^ 32 := by omega
    rw [← off_mod a (4 * args.length), ← hmod, off_mod]
  obtain ⟨hp, hne⟩ := h.pointer hi
  rw [hsame, h.null] at hp
  exact hne (Option.some.inj hp).symm

end Args

end View

end Bytes
