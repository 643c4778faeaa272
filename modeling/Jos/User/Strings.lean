import Jos.Lib.CString

/-!
# Strings of user programs

The functions of `lib/string.c` that search, measure and copy strings.  A string is copied byte by byte
with its zero byte, so that what a copy is refused is the first byte that does not fit.
-/

namespace Jos

open Bytes Io

/-! ### The source -/

/-- How often a pointer is incremented before it is the same again. -/
def ADDRESSES : Nat := 2 ^ 32

/-- Whether `strchr` finds `c` in `s`. It does not find the zero byte at the end. -/
def strchr (s : List Byte) (c : Byte) : Bool :=
  s.contains c

/-- The length of the string at `s`. -/
def strlen (s : Nat) : Io Nat := do
  let e ← skipUp s ADDRESSES (fun s => do
    let ch ← get8 s
    pure (ch ≠ 0))
  pure (e - s)

/-- Copy the string at `src` to `dst`, byte after byte up to the zero byte. -/
def strcpy (dst src : Nat) : Io Unit := do
  let _ ← skipUp 0 ADDRESSES (fun i => do
    let ch ← get8 (src + i)
    set8 (dst + i) ch
    pure (ch ≠ 0))
  pure ()

/-- Copy the string at `src` behind the string at `dst`. -/
def strcat (dst src : Nat) : Io Unit := do
  let len ← strlen dst
  strcpy (dst + len) src

/-! ### What they do -/

section Strings

variable {ok : Memory → Nat → Bool} {m : Memory} {s dst src : Nat} {bs : List Byte} {E : Prop}

theorem ends_strlen {Q : Nat → Memory → Prop} (h : StringAt m s bs) (hlt : bs.length < ADDRESSES)
    (hok : ∀ a, s ≤ a → a ≤ s + bs.length → ok m a = true) (hQ : Q bs.length m) :
  (strlen s).Ends ok m Q E
  := by
  rw [strlen, ends_bind]
  apply ends_skipUp (fun _ m' => m' = m) (Nat.le_add_right s bs.length) (by omega)
  · rintro i m' hi hi' rfl
    rw [ends_bind, ends_get8]
    refine ⟨hok i hi (by omega), ?_⟩
    rw [ends_pure]
    refine ⟨decide_eq_true ?_, rfl⟩
    intro hzero
    apply h.notMem
    rw [← hzero]
    exact h.bytes.mem hi hi'
  · rintro m' rfl
    rw [ends_bind, ends_get8]
    refine ⟨hok _ (by omega) (by omega), ?_⟩
    rw [ends_pure, ends_pure]
    refine ⟨decide_eq_false (fun hne => hne h.zero), ?_⟩
    rw [Nat.add_sub_cancel_left]
    exact hQ
  · rfl

/-- From `m` to `m'` the first `i` bytes at `src` were copied to `dst`. -/
structure Copied (m : Memory) (dst src i : Nat) (m' : Memory) : Prop where
  bytes : ∀ j < i, m' (dst + j) = m (src + j)
  outside : ∀ x, x < dst ∨ dst + i ≤ x → m' x = m x

/-- One more byte is copied. -/
theorem Copied.succ {m' : Memory} {i : Nat} (h : Copied m dst src i m')
    (hsrc : m' (src + i) = m (src + i)) :
  Copied m dst src (i + 1) (write8 m' (dst + i) (m' (src + i)))
  := by
  constructor
  case bytes =>
    intro j hj
    rw [write8]
    split
    case isTrue heq =>
      obtain rfl : j = i := by omega
      exact hsrc
    case isFalse => exact h.bytes j (by omega)
  case outside =>
    intro x hx
    rw [write8, if_neg (by omega)]
    exact h.outside x (by omega)

section Copy

variable (h : StringAt m src bs) (hlt : bs.length < ADDRESSES)
  (hsrc : ∀ m a, src ≤ a → a ≤ src + bs.length → ok m a = true)
include h hlt hsrc

/-- A string is copied to where it fits. -/
theorem ends_strcpy {Q : Unit → Memory → Prop}
    (hdst : ∀ m a, dst ≤ a → a ≤ dst + bs.length → ok m a = true)
    (hapart : src + bs.length < dst ∨ dst + bs.length < src)
    (hQ : ∀ m', StringAt m' dst bs → (∀ x, x < dst ∨ dst + bs.length < x → m' x = m x) → Q () m') :
  (strcpy dst src).Ends ok m Q E
  := by
  rw [strcpy, ends_bind]
  apply ends_skipUp (fun i m' => Copied m dst src i m') (Nat.zero_le bs.length) (by omega)
  · intro i m' _ hi hcopied
    have hsame : m' (src + i) = m (src + i) := hcopied.outside _ (by omega)
    rw [ends_bind, ends_get8]
    refine ⟨hsrc m' _ (by omega) (by omega), ?_⟩
    rw [ends_bind, ends_set8]
    refine ⟨hdst m' _ (by omega) (by omega), ?_⟩
    rw [ends_pure]
    refine ⟨decide_eq_true ?_, hcopied.succ hsame⟩
    rw [hsame]
    exact h.ne_zero hi
  · intro m' hcopied
    have hsame : m' (src + bs.length) = m (src + bs.length) := hcopied.outside _ (by omega)
    rw [ends_bind, ends_get8]
    refine ⟨hsrc m' _ (by omega) (by omega), ?_⟩
    rw [ends_bind, ends_set8]
    refine ⟨hdst m' _ (by omega) (by omega), ?_⟩
    rw [ends_pure, ends_pure]
    constructor
    · apply decide_eq_false
      rw [hsame, h.zero]
      exact fun hne => hne rfl
    · have hall := hcopied.succ hsame
      apply hQ
      · apply h.shift
        intro i hi
        exact hall.bytes i (by omega)
      · intro x hx
        exact hall.outside x (by omega)
  · constructor
    case bytes =>
      intro j hj
      cases hj
    case outside =>
      intro x _
      rfl

/-- A copy that reaches a byte which is refused is refused. -/
theorem faults_strcpy {k : Nat} (hk : k ≤ bs.length)
    (hdst : ∀ m a, dst ≤ a → a < dst + k → ok m a = true) (hend : ∀ m, ok m (dst + k) = false)
    (hapart : src + bs.length < dst ∨ dst + k ≤ src) :
  (strcpy dst src).Faults ok m
  := by
  rw [strcpy]
  apply Faults.bind
  apply faults_skipUp (fun i m' => Copied m dst src i m') (Nat.zero_le k) (by omega)
  · intro i m' _ hi hcopied
    have hsame : m' (src + i) = m (src + i) := hcopied.outside _ (by omega)
    rw [ends_bind, ends_get8]
    refine ⟨hsrc m' _ (by omega) (by omega), ?_⟩
    rw [ends_bind, ends_set8]
    refine ⟨hdst m' _ (by omega) (by omega), ?_⟩
    rw [ends_pure]
    refine ⟨decide_eq_true ?_, hcopied.succ hsame⟩
    rw [hsame]
    exact h.ne_zero (by omega)
  · intro m' _
    apply Ends.faults (Q := fun _ _ => True)
    · rw [ends_get8]
      exact ⟨hsrc m' _ (by omega) (by omega), trivial⟩
    · intro b m'' _
      apply Faults.bind
      exact faults_set8 (hend m'')
  · constructor
    case bytes =>
      intro j hj
      cases hj
    case outside =>
      intro x _
      rfl

end Copy

section Append

variable {ds : List Byte} (hd : StringAt m dst ds) (hdlt : ds.length < ADDRESSES)
  (h : StringAt m src bs) (hlt : bs.length < ADDRESSES)
  (hsrc : ∀ m a, src ≤ a → a ≤ src + bs.length → ok m a = true)
include hd hdlt h hlt hsrc

/-- A string is appended where there is room for it. -/
theorem ends_strcat {Q : Unit → Memory → Prop}
    (hdst : ∀ m a, dst ≤ a → a ≤ dst + (ds.length + bs.length) → ok m a = true)
    (hapart : src + bs.length < dst ∨ dst + (ds.length + bs.length) < src)
    (hQ : ∀ m', StringAt m' dst (ds ++ bs) →
      (∀ x, x < dst + ds.length ∨ dst + (ds.length + bs.length) < x → m' x = m x) → Q () m') :
  (strcat dst src).Ends ok m Q E
  := by
  rw [strcat, ends_bind]
  apply ends_strlen hd hdlt
  · intro a ha ha'
    exact hdst m a ha (by omega)
  apply ends_strcpy h hlt hsrc
  · intro m' a ha ha'
    exact hdst m' a (by omega) (by omega)
  · omega
  · intro m' hstr hsame
    apply hQ
    · apply StringAt.append _ hd.notMem hstr
      apply hd.bytes.congr
      intro x _ hx
      exact hsame x (Or.inl hx)
    · intro x hx
      exact hsame x (by omega)

/-- Appending a string that reaches a byte which is refused is refused. -/
theorem faults_strcat {k : Nat} (hk : k ≤ bs.length)
    (hdst : ∀ m a, dst ≤ a → a < dst + ds.length + k → ok m a = true)
    (hzero : ok m (dst + ds.length) = true)
    (hend : ∀ m, ok m (dst + ds.length + k) = false)
    (hapart : src + bs.length < dst ∨ dst + ds.length + k ≤ src) :
  (strcat dst src).Faults ok m
  := by
  rw [strcat]
  apply Ends.faults (Q := fun len m' => len = ds.length ∧ m' = m)
  · apply ends_strlen hd hdlt
    · intro a ha ha'
      obtain rfl | hlt' := Nat.eq_or_lt_of_le ha'
      · exact hzero
      · exact hdst m a ha (by omega)
    · exact ⟨rfl, rfl⟩
  · rintro _ m' ⟨rfl, rfl⟩
    apply faults_strcpy h hlt hsrc hk
    · intro m a ha ha'
      exact hdst m a (by omega) ha'
    · exact hend
    · omega

end Append

end Strings

end Jos
