import Jos.Lib.Io

/-!
# Strings in memory

A string is a sequence of bytes that are not zero, followed by a zero byte.  `BytesAt m a bs`
says that the memory `m` holds the bytes `bs` from `a` on, and `StringAt m a bs` that it holds
the string `bs` there.

`skipUp` is the loop that goes up through memory as long as its body asks for it, the way
strings are scanned.
-/

namespace Bytes

variable {m m' : Memory} {a : Nat} {bs cs : List Byte}

/-! ### Bytes in memory -/

/-- The memory `m` holds the bytes `bs` from `a` on. -/
def BytesAt (m : Memory) : Nat → List Byte → Prop
  | _, [] => True
  | a, b :: bs => m a = b ∧ BytesAt m (a + 1) bs

/-- The bytes are still there where memory is unchanged. -/
theorem BytesAt.congr (h : BytesAt m a bs) (hm : ∀ x, a ≤ x → x < a + bs.length → m' x = m x) :
  BytesAt m' a bs
  := by
  induction bs generalizing a with
  | nil => trivial
  | cons b bs ih =>
      rw [List.length_cons] at hm
      constructor
      · rw [hm a (by omega) (by omega)]
        exact h.1
      · apply ih h.2
        intro x hx hx'
        exact hm x (by omega) (by omega)

/-- Bytes that are the same as those from `a` on. -/
theorem BytesAt.shift (h : BytesAt m a bs) {b : Nat} (hm : ∀ i < bs.length, m' (b + i) = m (a + i)) :
  BytesAt m' b bs
  := by
  induction bs generalizing a b with
  | nil => trivial
  | cons c bs ih =>
      rw [List.length_cons] at hm
      constructor
      · have h0 := hm 0 (by omega)
        rw [Nat.add_zero, Nat.add_zero] at h0
        rw [h0]
        exact h.1
      · apply ih h.2
        intro i hi
        have hi' := hm (i + 1) (by omega)
        rw [Nat.add_comm i, ← Nat.add_assoc, ← Nat.add_assoc] at hi'
        exact hi'

/-- What is in memory among the bytes is one of them. -/
theorem BytesAt.mem (h : BytesAt m a bs) {x : Nat} (hx : a ≤ x) (hx' : x < a + bs.length) :
  m x ∈ bs
  := by
  induction bs generalizing a with
  | nil =>
      rw [List.length_nil] at hx'
      omega
  | cons b bs ih =>
      obtain rfl | hlt := Nat.eq_or_lt_of_le hx
      · rw [h.1]
        exact List.mem_cons_self
      · apply List.mem_cons_of_mem
        rw [List.length_cons] at hx'
        exact ih h.2 hlt (by omega)

/-- Bytes in memory, one by one. -/
theorem bytesAt_iff :
  BytesAt m a bs ↔ ∀ i (h : i < bs.length), m (a + i) = bs[i]
  := by
  induction bs generalizing a with
  | nil =>
      constructor
      · intro _ i hi
        cases hi
      · intro _
        trivial
  | cons b bs ih =>
      constructor
      · rintro ⟨hb, h⟩ i hi
        cases i with
        | zero => exact hb
        | succ i =>
            have hi' := ih.mp h i (Nat.lt_of_succ_lt_succ hi)
            rw [Nat.add_assoc, Nat.add_comm 1] at hi'
            exact hi'
      · intro h
        constructor
        · exact h 0 (Nat.zero_lt_succ _)
        · rw [ih]
          intro i hi
          rw [Nat.add_assoc, Nat.add_comm 1]
          exact h (i + 1) (Nat.succ_lt_succ hi)

theorem bytesAt_append :
  BytesAt m a (bs ++ cs) ↔ BytesAt m a bs ∧ BytesAt m (a + bs.length) cs
  := by
  induction bs generalizing a with
  | nil =>
      rw [List.nil_append, List.length_nil, Nat.add_zero]
      constructor
      · intro h
        exact ⟨trivial, h⟩
      · intro h
        exact h.2
  | cons b bs ih =>
      rw [List.cons_append, List.length_cons, Nat.add_comm bs.length, ← Nat.add_assoc]
      constructor
      · rintro ⟨hb, h⟩
        exact ⟨⟨hb, (ih.mp h).1⟩, (ih.mp h).2⟩
      · rintro ⟨⟨hb, h⟩, h'⟩
        exact ⟨hb, ih.mpr ⟨h, h'⟩⟩

/-- Bytes that were written are there. -/
theorem bytesAt_writeBytes (m : Memory) (a : Nat) (bs : List Byte) :
  BytesAt (writeBytes m a bs) a bs
  := by
  induction bs generalizing m a with
  | nil => trivial
  | cons b bs ih =>
      rw [writeBytes_cons]
      constructor
      · rw [writeBytes_of_disjoint _ (by omega), write8, if_pos rfl]
      · apply ih

/-- Every list splits behind its first elements with a property. -/
theorem exists_span {α : Type} (p : α → Bool) {d : α} (hd : p d = false) (l : List α) :
  ∃ l₁ l₂, l = l₁ ++ l₂ ∧ (∀ a ∈ l₁, p a = true) ∧ p (l₂.headD d) = false
  := by
  induction l with
  | nil =>
      refine ⟨[], [], rfl, ?_, hd⟩
      intro a ha
      cases ha
  | cons a l ih =>
      cases hp : p a with
      | false =>
          refine ⟨[], a :: l, rfl, ?_, hp⟩
          intro b hb
          cases hb
      | true =>
          obtain ⟨l₁, l₂, rfl, hl, hend⟩ := ih
          refine ⟨a :: l₁, l₂, rfl, ?_, hend⟩
          intro b hb
          obtain rfl | hb := List.mem_cons.mp hb
          · exact hp
          · exact hl b hb

/-! ### Strings -/

/-- The memory `m` holds the string `bs` at `a`. -/
structure StringAt (m : Memory) (a : Nat) (bs : List Byte) : Prop where
  bytes : BytesAt m a bs
  zero : m (a + bs.length) = 0
  notMem : 0 ∉ bs

namespace StringAt

/-- A string is still there where memory is unchanged. -/
theorem congr (h : StringAt m a bs) (hm : ∀ x, a ≤ x → x ≤ a + bs.length → m' x = m x) :
  StringAt m' a bs
  := by
  constructor
  case bytes =>
    apply h.bytes.congr
    intro x hx hx'
    exact hm x hx (by omega)
  case zero =>
    rw [hm _ (by omega) (by omega)]
    exact h.zero
  case notMem => exact h.notMem

/-- A copy of a string, with its zero byte, is a string. -/
theorem shift (h : StringAt m a bs) {b : Nat} (hm : ∀ i ≤ bs.length, m' (b + i) = m (a + i)) :
  StringAt m' b bs
  := by
  constructor
  case bytes => exact h.bytes.shift (fun i hi => hm i (Nat.le_of_lt hi))
  case zero =>
    rw [hm _ (Nat.le_refl _)]
    exact h.zero
  case notMem => exact h.notMem

/-- What follows the first bytes of a string is a string. -/
theorem drop (h : StringAt m a (bs ++ cs)) :
  StringAt m (a + bs.length) cs
  := by
  constructor
  case bytes => exact (bytesAt_append.mp h.bytes).2
  case zero =>
    rw [Nat.add_assoc, ← List.length_append]
    exact h.zero
  case notMem =>
    intro hmem
    exact h.notMem (List.mem_append_right bs hmem)

/-- Bytes in front of a string make it longer. -/
theorem append (hbs : BytesAt m a bs) (hnot : 0 ∉ bs) (h : StringAt m (a + bs.length) cs) :
  StringAt m a (bs ++ cs)
  := by
  constructor
  case bytes => exact bytesAt_append.mpr ⟨hbs, h.bytes⟩
  case zero =>
    rw [List.length_append, ← Nat.add_assoc]
    exact h.zero
  case notMem =>
    intro hmem
    obtain hmem | hmem := List.mem_append.mp hmem
    · exact hnot hmem
    · exact h.notMem hmem

/-- The first byte of a string, or its zero byte. -/
theorem head (h : StringAt m a bs) :
  m a = bs.headD 0
  := by
  cases bs with
  | nil => exact h.zero
  | cons b bs => exact h.bytes.1

/-- A byte of a string is not zero. -/
theorem ne_zero (h : StringAt m a bs) {i : Nat} (hi : i < bs.length) :
  m (a + i) ≠ 0
  := by
  intro hzero
  apply h.notMem
  rw [← hzero]
  exact h.bytes.mem (Nat.le_add_right a i) (by omega)

end StringAt

end Bytes

open Bytes

namespace Io

variable {ok : Memory → Nat → Bool} {m : Memory} {E : Prop}

/-! ### Scanning -/

/-- Go up from `lo`, at most `n` addresses, as long as `body` asks for it. -/
def skipUp (lo : Nat) : Nat → (Nat → Io Bool) → Io Nat
  | 0, _ => pure lo
  | n + 1, body => do
      if ← body lo then
        skipUp (lo + 1) n body
      else
        pure lo

/-- A scan that goes on up to `stop`, and not beyond, ends there with what its body keeps. -/
theorem ends_skipUp {body : Nat → Io Bool} (I : Nat → Memory → Prop) {Q : Nat → Memory → Prop}
    {lo n stop : Nat} (hlo : lo ≤ stop) (hn : stop < lo + n)
    (step : ∀ i m, lo ≤ i → i < stop → I i m →
      (body i).Ends ok m (fun b m' => b = true ∧ I (i + 1) m') E)
    (last : ∀ m, I stop m → (body stop).Ends ok m (fun b m' => b = false ∧ Q stop m') E)
    (h : I lo m) :
  (skipUp lo n body).Ends ok m Q E
  := by
  induction n generalizing lo m with
  | zero => omega
  | succ n ih =>
      rw [skipUp, ends_bind]
      obtain rfl | hlt := Nat.eq_or_lt_of_le hlo
      · apply (last m h).mono _ id
        rintro _ m' ⟨rfl, hQ⟩
        rw [if_neg (by decide), ends_pure]
        exact hQ
      · apply (step lo m (Nat.le_refl lo) hlt h).mono _ id
        rintro _ m' ⟨rfl, h'⟩
        rw [if_pos rfl]
        apply ih (by omega) (by omega) _ h'
        intro i m hi hi'
        exact step i m (by omega) hi'

/-! ### Refused accesses -/

/-- The run of `p` from `m` comes to an access that is refused. -/
def Faults (ok : Memory → Nat → Bool) {α : Type} (p : Io α) (m : Memory) : Prop :=
  ∃ a, p.run ok m = .fault a

section Faults

variable {α β : Type} {p : Io α} {f : α → Io β}

theorem Faults.bind (h : p.Faults ok m) (f : α → Io β) :
  (p >>= f).Faults ok m
  := by
  obtain ⟨a, ha⟩ := h
  use a
  rw [run_bind, ha]

/-- A run is refused an access behind a first part that returns. -/
theorem Ends.faults {Q : α → Memory → Prop} (h : p.Ends ok m Q False)
    (hf : ∀ a m', Q a m' → (f a).Faults ok m') :
  (p >>= f).Faults ok m
  := by
  obtain ⟨b, m', hrun, hQ⟩ := h.returns id
  obtain ⟨a, ha⟩ := hf b m' hQ
  use a
  rw [run_bind, hrun]
  exact ha

theorem faults_set8 {x : Nat} {b : Byte} (h : ok m x = false) :
  (set8 x b).Faults ok m
  := by
  use x
  rw [set8, run, h]
  rfl

theorem faults_set32 {x : Nat} {w : Word} (h : okWord ok m x = false) :
  (set32 x w).Faults ok m
  := by
  use x
  rw [set32, run, h]
  rfl

/-- A scan that comes to an address where its body is refused an access. -/
theorem faults_skipUp {body : Nat → Io Bool} (I : Nat → Memory → Prop) {lo n stop : Nat}
    (hlo : lo ≤ stop) (hn : stop < lo + n)
    (step : ∀ i m, lo ≤ i → i < stop → I i m →
      (body i).Ends ok m (fun b m' => b = true ∧ I (i + 1) m') False)
    (last : ∀ m, I stop m → (body stop).Faults ok m) (h : I lo m) :
  (skipUp lo n body).Faults ok m
  := by
  induction n generalizing lo m with
  | zero => omega
  | succ n ih =>
      rw [skipUp]
      obtain rfl | hlt := Nat.eq_or_lt_of_le hlo
      · exact (last m h).bind _
      · apply (step lo m (Nat.le_refl lo) hlt h).faults
        rintro _ m' ⟨rfl, h'⟩
        rw [if_pos rfl]
        apply ih (by omega) (by omega) _ h'
        intro i m hi hi'
        exact step i m (by omega) hi'

end Faults

/-! ### What a run leaves alone -/

/-- A run that may only access addresses in `R` changes memory only there. -/
theorem run_outside {α : Type} {R : Nat → Prop} (hok : ∀ m a, ok m a = true → R a)
    (hok32 : ∀ m a i, okWord ok m a = true → i < 4 → R (a + i)) {p : Io α} {a : α} {m' : Memory}
    (h : p.run ok m = .ret a m') {x : Nat} (hx : ¬ R x) :
  m' x = m x
  := by
  induction p generalizing m with
  | done b =>
      cases h
      rfl
  | panic msg => cases h
  | load8 y k ih =>
      rw [run] at h
      split at h
      · exact ih _ h
      · cases h
  | load32 y k ih =>
      rw [run] at h
      split at h
      · exact ih _ h
      · cases h
  | store8 y b k ih =>
      rw [run] at h
      split at h
      case isTrue hy =>
        rw [ih h, write8, if_neg]
        rintro rfl
        exact hx (hok m x hy)
      case isFalse => cases h
  | store32 y w k ih =>
      rw [run] at h
      split at h
      case isTrue hy =>
        rw [ih h, write32, if_neg]
        rintro ⟨hle, hlt⟩
        apply hx
        have hR := hok32 m y (x - y) hy (by omega)
        rw [Nat.add_sub_cancel' hle] at hR
        exact hR
      case isFalse => cases h
  | flush y k ih =>
      rw [run] at h
      split at h
      · exact ih h
      · cases h

end Io
