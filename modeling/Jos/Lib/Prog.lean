import Mathlib.Tactic.Common

/-!
# Programs with state

A `Prog σ α` is a procedure over states `σ` that returns an `α`.  A run that does
not return has panicked, has made an access the hardware refuses, or has handed
control on for good.

`m.Ends s Q L` says how the run of `m` from `s` ends: it returns a value and a state
with the property `Q`, or it hands control on in a state with the property `L`.  It
never panics and never makes a refused access.  The rules below compute `Ends` for
the ways programs are put together.
-/

/-- The ways a run ends without returning. -/
inductive Stop (σ : Type) where
  /-- The program gave up with a message. -/
  | panic (msg : String)
  /-- The program accessed an address it may not access. -/
  | fault (addr : Nat)
  /-- Control was handed on in the state `s`. -/
  | leave (s : σ)

/-- A procedure over states `σ` returning an `α`. -/
abbrev Prog (σ α : Type) := StateT σ (Except (Stop σ)) α

namespace Prog

variable {σ α β : Type}

/-- Give up with a message. -/
def panic (msg : String) : Prog σ α :=
  fun _ => .error (.panic msg)

/-- Access an address that may not be accessed. -/
def fault (addr : Nat) : Prog σ α :=
  fun _ => .error (.fault addr)

/-- Hand control on. -/
def leave : Prog σ α :=
  fun s => .error (.leave s)

/-- The value of an option, or else the given way out. -/
def orElse (o : Option α) (out : Prog σ α) : Prog σ α :=
  match o with
  | some a => pure a
  | none => out

/-- Run `body lo`, `body (lo + 1)`, ..., `n` times in all. -/
def forUp (lo : Nat) : Nat → (Nat → Prog σ Unit) → Prog σ Unit
  | 0, _ => pure ()
  | n + 1, body => do
      body lo
      forUp (lo + 1) n body

/-- Run `body lo`, `body (lo + 1)`, ..., `n` times in all, until one of them gives a
result. -/
def findUp (lo : Nat) : Nat → (Nat → Prog σ (Option β)) → Prog σ (Option β)
  | 0, _ => pure none
  | n + 1, body => do
      match ← body lo with
      | some b => pure (some b)
      | none => findUp (lo + 1) n body

/-- Go up from `lo`, at most `n` times, as long as `body` asks for it. -/
def skipUp (lo : Nat) : Nat → (Nat → Prog σ Bool) → Prog σ Nat
  | 0, _ => pure lo
  | n + 1, body => do
      if ← body lo then
        skipUp (lo + 1) n body
      else
        pure lo

/-- The run of `m` from `s` returns with `Q` or hands control on with `L`. -/
def Ends (m : Prog σ α) (s : σ) (Q : α → σ → Prop) (L : σ → Prop) : Prop :=
  match m s with
  | .ok (a, s') => Q a s'
  | .error (.leave s') => L s'
  | .error _ => False

variable {m : Prog σ α} {s : σ} {Q Q' : α → σ → Prop} {L L' : σ → Prop}

/-! ### Running programs -/

theorem pure_run {a : α} :
  (pure a : Prog σ α) s = .ok (a, s)
  := rfl

theorem get_bind {f : σ → Prog σ β} :
  (get >>= f) s = f s s
  := rfl

theorem set_bind {t : σ} {f : PUnit → Prog σ β} :
  (set t >>= f) s = f ⟨⟩ t
  := rfl

theorem modify_bind {g : σ → σ} {f : PUnit → Prog σ β} :
  (modify g >>= f) s = f ⟨⟩ (g s)
  := rfl

theorem bind_of_eq {f : α → Prog σ β} {a : α} {s' : σ} (h : m s = .ok (a, s')) :
  (m >>= f) s = f a s'
  := by
  simp only [bind, StateT.bind, Except.bind, h]

theorem bind_of_error {f : α → Prog σ β} {stop : Stop σ} (h : m s = .error stop) :
  (m >>= f) s = .error stop
  := by
  simp only [bind, StateT.bind, Except.bind, h]

/-- A program returns one value in one state. -/
theorem ok_inj {a b : α} {s₁ s₂ : σ} (h₁ : m s = .ok (a, s₁)) (h₂ : m s = .ok (b, s₂)) :
  a = b ∧ s₁ = s₂
  := by
  rw [h₁] at h₂
  cases h₂
  constructor
  · rfl
  · rfl

/-! ### How a program ends -/

@[simp]
theorem ends_pure (a : α) :
  (pure a : Prog σ α).Ends s Q L ↔ Q a s
  := Iff.rfl

@[simp]
theorem ends_leave :
  (leave : Prog σ α).Ends s Q L ↔ L s
  := Iff.rfl

@[simp]
theorem ends_panic (msg : String) :
  (panic msg : Prog σ α).Ends s Q L ↔ False
  := Iff.rfl

@[simp]
theorem ends_fault (addr : Nat) :
  (fault addr : Prog σ α).Ends s Q L ↔ False
  := Iff.rfl

@[simp]
theorem ends_get {Q : σ → σ → Prop} :
  (get : Prog σ σ).Ends s Q L ↔ Q s s
  := Iff.rfl

@[simp]
theorem ends_set {t : σ} {Q : PUnit → σ → Prop} :
  (set t : Prog σ PUnit).Ends s Q L ↔ Q ⟨⟩ t
  := Iff.rfl

@[simp]
theorem ends_modify {f : σ → σ} {Q : PUnit → σ → Prop} :
  (modify f : Prog σ PUnit).Ends s Q L ↔ Q ⟨⟩ (f s)
  := Iff.rfl

@[simp]
theorem ends_bind {f : α → Prog σ β} {Q : β → σ → Prop} :
  (m >>= f).Ends s Q L ↔ m.Ends s (fun a s' => (f a).Ends s' Q L) L
  := by
  unfold Ends
  simp only [bind, StateT.bind, Except.bind]
  cases m s with
  | ok r => rfl
  | error e =>
      cases e with
      | panic msg => rfl
      | fault addr => rfl
      | leave s' => rfl

@[simp]
theorem ends_orElse {o : Option α} {out : Prog σ α} :
  (orElse o out).Ends s Q L ↔ (∀ a, o = some a → Q a s) ∧ (o = none → out.Ends s Q L)
  := by
  cases o with
  | none => simp [orElse]
  | some a => simp [orElse]

theorem ends_ite {c : Prop} [Decidable c] {m' : Prog σ α} :
  (if c then m else m').Ends s Q L ↔ (c → m.Ends s Q L) ∧ (¬ c → m'.Ends s Q L)
  := by
  by_cases h : c
  · simp [h]
  · simp [h]

/-- A weaker property holds wherever a stronger one does. -/
theorem Ends.mono (h : m.Ends s Q L) (hQ : ∀ a s', Q a s' → Q' a s') (hL : ∀ s', L s' → L' s') :
  m.Ends s Q' L'
  := by
  unfold Ends at h ⊢
  split at h
  · apply hQ _ _ h
  · apply hL _ h
  · apply h.elim

/-- A program that ends has returned or handed control on. -/
theorem Ends.cases (h : m.Ends s Q L) :
  (∃ a s', m s = .ok (a, s') ∧ Q a s') ∨ (∃ s', m s = .error (.leave s') ∧ L s')
  := by
  unfold Ends at h
  split at h
  case h_1 a s' heq => left; use a, s', heq
  case h_2 s' heq => right; use s', heq
  case h_3 => apply h.elim

/-- A program that never hands control on returns. -/
theorem Ends.returns (h : m.Ends s Q (fun _ => False)) :
  ∃ a s', m s = .ok (a, s') ∧ Q a s'
  := by
  obtain h | ⟨_, _, hL⟩ := h.cases
  · apply h
  · apply hL.elim

/-- A run that returns ends as it returned. -/
theorem ends_of_eq {a : α} {s' : σ} (h : m s = .ok (a, s')) :
  m.Ends s Q L ↔ Q a s'
  := by
  unfold Ends
  rw [h]

/-- A run that hands control on ends where it did so. -/
theorem ends_of_leave {s' : σ} (h : m s = .error (.leave s')) :
  m.Ends s Q L ↔ L s'
  := by
  unfold Ends
  rw [h]

-- From here on the rules above are used instead of running programs while elaborating.
attribute [irreducible] Ends

/-! ### Loops -/

/-- A loop keeps what its body keeps. -/
theorem ends_forUp
    {body : Nat → Prog σ Unit} (I : Nat → σ → Prop) {lo n : Nat}
    (step : ∀ i s, lo ≤ i → i < lo + n → I i s → (body i).Ends s (fun _ s' => I (i + 1) s') L)
    (h : I lo s) :
  (forUp lo n body).Ends s (fun _ s' => I (lo + n) s') L
  := by
  induction n generalizing lo s with
  | zero =>
      rw [forUp, ends_pure]
      apply h
  | succ n ih =>
      rw [forUp, ends_bind]
      apply (step lo s (by omega) (by omega) h).mono _ (fun _ h => h)
      intro _ s' h'
      rw [show lo + (n + 1) = lo + 1 + n by omega]
      apply ih _ h'
      intro i s hi hi'
      apply step i s (by omega) (by omega)

/-- A loop from `0` on keeps what its body keeps. -/
theorem ends_forUp_zero
    {body : Nat → Prog σ Unit} (I : Nat → σ → Prop) {n : Nat}
    (step : ∀ i s, i < n → I i s → (body i).Ends s (fun _ s' => I (i + 1) s') L)
    (h : I 0 s) :
  (forUp 0 n body).Ends s (fun _ s' => I n s') L
  := by
  have hloop := ends_forUp (n := n) I (fun i s _ hi => step i s (by omega)) h
  rw [Nat.zero_add] at hloop
  apply hloop

/-- A scan that goes on up to `stop`, and not beyond, ends there with what its body keeps. -/
theorem ends_skipUp
    {body : Nat → Prog σ Bool} (I : Nat → σ → Prop) {Q : Nat → σ → Prop} {lo n stop : Nat}
    (hlo : lo ≤ stop) (hn : stop < lo + n)
    (step : ∀ i s, lo ≤ i → i < stop → I i s →
      (body i).Ends s (fun b s' => b = true ∧ I (i + 1) s') L)
    (last : ∀ s, I stop s → (body stop).Ends s (fun b s' => b = false ∧ Q stop s') L)
    (h : I lo s) :
  (skipUp lo n body).Ends s Q L
  := by
  induction n generalizing lo s with
  | zero => omega
  | succ n ih =>
      rw [skipUp, ends_bind]
      obtain rfl | hlt := Nat.eq_or_lt_of_le hlo
      · apply (last s h).mono _ (fun _ h => h)
        rintro _ s' ⟨rfl, hQ⟩
        rw [if_neg (by decide), ends_pure]
        apply hQ
      · apply (step lo s (Nat.le_refl lo) hlt h).mono _ (fun _ h => h)
        rintro _ s' ⟨rfl, h'⟩
        rw [if_pos rfl]
        apply ih (by omega) (by omega) _ h'
        intro i s hi hi'
        apply step i s (by omega) hi'

/-- A search whose steps leave the state alone ends without a result, or with the first step
that gives one or does not return. -/
theorem findUp_cases (body : Nat → Prog σ (Option β)) (s : σ) (lo n : Nat) :
  ((∀ i, lo ≤ i → i < lo + n → body i s = .ok (none, s))
    ∧ findUp lo n body s = .ok (none, s)) ∨
  ∃ i, lo ≤ i ∧ i < lo + n ∧ (∀ j, lo ≤ j → j < i → body j s = .ok (none, s))
    ∧ body i s ≠ .ok (none, s)
    ∧ ((∀ b t, body i s = .ok (some b, t) → findUp lo n body s = .ok (some b, t))
      ∧ (∀ e, body i s = .error e → findUp lo n body s = .error e))
  := by
  induction n generalizing lo with
  | zero =>
      left
      constructor
      · intro i hi hi'
        omega
      · rfl
  | succ n ih =>
      by_cases hlo : body lo s = .ok (none, s)
      · have hstep : findUp lo (n + 1) body s = findUp (lo + 1) n body s := by
          rw [findUp, bind_of_eq hlo]
        rw [hstep]
        -- what holds of the step at `lo` and of those after it
        have hfirst : ∀ {k : Nat}, (∀ j, lo + 1 ≤ j → j < k → body j s = .ok (none, s)) →
            ∀ j, lo ≤ j → j < k → body j s = .ok (none, s) := by
          intro k hrest j hj hjk
          obtain rfl | hlt := Nat.eq_or_lt_of_le hj
          · apply hlo
          · apply hrest j hlt hjk
        obtain ⟨hall, heq⟩ | ⟨i, hi, hi', hbefore, hne, hend⟩ := @ih (lo + 1)
        · left
          constructor
          · apply hfirst
            intro j hj hj'
            apply hall j hj (by omega)
          · apply heq
        · right
          use i
          constructor
          · omega
          constructor
          · omega
          · exact ⟨hfirst hbefore, hne, hend⟩
      · right
        use lo
        constructor
        · apply Nat.le_refl
        constructor
        · omega
        constructor
        · intro j hj hj'
          omega
        constructor
        · apply hlo
        constructor
        · intro b t heq
          rw [findUp, bind_of_eq heq]
          rfl
        · intro e heq
          rw [findUp]
          simp only [bind, StateT.bind, Except.bind, heq]

end Prog
