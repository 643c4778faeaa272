import Jos.Lib.Frame

/-!
# Runs that may stop in some ways only

`m.EndsOr B s Q` says that the run of `m` from `s` returns with `Q`, or stops in a way that `B`
allows.  With nothing allowed this is a run that returns, with everything allowed it says
what holds if the run returns.

A program with a check that gives up refines the program without the check: as long as the check
does not give up, both run alike.
-/

namespace Prog

variable {σ α β : Type}

/-- The run of `m` from `s` returns with `Q`, or it stops in a way that `B` allows. -/
def EndsOr (B : Stop σ → Prop) (m : Prog σ α) (s : σ) (Q : α → σ → Prop) : Prop :=
  match m s with
  | .ok (a, s') => Q a s'
  | .error stop => B stop

variable {B : Stop σ → Prop} {m : Prog σ α} {s : σ} {Q Q' : α → σ → Prop}

/-! ### Rules -/

@[simp]
theorem endsOr_pure (a : α) :
  (pure a : Prog σ α).EndsOr B s Q ↔ Q a s
  := Iff.rfl

@[simp]
theorem endsOr_panic (msg : String) :
  (panic msg : Prog σ α).EndsOr B s Q ↔ B (.panic msg)
  := Iff.rfl

@[simp]
theorem endsOr_fault (addr : Nat) :
  (fault addr : Prog σ α).EndsOr B s Q ↔ B (.fault addr)
  := Iff.rfl

@[simp]
theorem endsOr_leave :
  (leave : Prog σ α).EndsOr B s Q ↔ B (.leave s)
  := Iff.rfl

@[simp]
theorem endsOr_get {Q : σ → σ → Prop} :
  (get : Prog σ σ).EndsOr B s Q ↔ Q s s
  := Iff.rfl

@[simp]
theorem endsOr_set {t : σ} {Q : PUnit → σ → Prop} :
  (set t : Prog σ PUnit).EndsOr B s Q ↔ Q ⟨⟩ t
  := Iff.rfl

@[simp]
theorem endsOr_modify {f : σ → σ} {Q : PUnit → σ → Prop} :
  (modify f : Prog σ PUnit).EndsOr B s Q ↔ Q ⟨⟩ (f s)
  := Iff.rfl

@[simp]
theorem endsOr_bind {f : α → Prog σ β} {Q : β → σ → Prop} :
  (m >>= f).EndsOr B s Q ↔ m.EndsOr B s (fun a s' => (f a).EndsOr B s' Q)
  := by
  unfold EndsOr
  simp only [bind, StateT.bind, Except.bind]
  cases m s with
  | ok r => rfl
  | error stop => rfl

@[simp]
theorem endsOr_orElse {o : Option α} {out : Prog σ α} :
  (orElse o out).EndsOr B s Q ↔ (∀ a, o = some a → Q a s) ∧ (o = none → out.EndsOr B s Q)
  := by
  cases o with
  | none => simp [orElse]
  | some a => simp [orElse]

theorem endsOr_ite {c : Prop} [Decidable c] {m' : Prog σ α} :
  (if c then m else m').EndsOr B s Q ↔ (c → m.EndsOr B s Q) ∧ (¬ c → m'.EndsOr B s Q)
  := by
  by_cases h : c
  · simp [h]
  · simp [h]

theorem endsOr_of_eq {a : α} {s' : σ} (h : m s = .ok (a, s')) :
  m.EndsOr B s Q ↔ Q a s'
  := by rw [EndsOr, h]

theorem endsOr_of_error {stop : Stop σ} (h : m s = .error stop) :
  m.EndsOr B s Q ↔ B stop
  := by rw [EndsOr, h]

/-- A weaker property holds wherever a stronger one does. -/
theorem EndsOr.mono (h : m.EndsOr B s Q) (hQ : ∀ a s', Q a s' → Q' a s') :
  m.EndsOr B s Q'
  := by
  unfold EndsOr at h ⊢
  split at h
  · exact hQ _ _ h
  · exact h

/-- What holds of every return holds of the value returned. -/
theorem EndsOr.of_eq {a : α} {s' : σ} (h : m.EndsOr B s Q) (heq : m s = .ok (a, s')) :
  Q a s'
  := (endsOr_of_eq heq).mp h

/-- A program that stops does so in an allowed way. -/
theorem EndsOr.of_error {stop : Stop σ} (h : m.EndsOr B s Q) (heq : m s = .error stop) :
  B stop
  := (endsOr_of_error heq).mp h

/-- How a run ends does not depend on the program it is a run of. -/
theorem EndsOr.congr {m' : Prog σ α} (h : m.EndsOr B s Q) (heq : m s = m' s) :
  m'.EndsOr B s Q
  := by
  rw [EndsOr, ← heq]
  exact h

/-- A run that ends in both of two ways that exclude each other does not exist. -/
theorem EndsOr.elim {B' : Stop σ → Prop} (h : m.EndsOr B s (fun _ _ => False))
    (h' : m.EndsOr B' s Q) (hB : ∀ stop, B stop → ¬ B' stop) :
  False
  := by
  unfold EndsOr at h h'
  split at h
  case h_1 => exact h
  case h_2 stop heq =>
    rw [heq] at h'
    exact hB stop h h'

/-- Where no way to stop is allowed, the program returns. -/
theorem EndsOr.returns (h : m.EndsOr (fun _ => False) s Q) :
  ∃ a s', m s = .ok (a, s') ∧ Q a s'
  := by
  unfold EndsOr at h
  split at h
  case h_1 a s' heq => exact ⟨a, s', heq, h⟩
  case h_2 => exact h.elim

/-- Every run returns or stops. -/
theorem endsOr_true :
  m.EndsOr (fun _ => True) s (fun _ _ => True)
  := by
  unfold EndsOr
  split
  · trivial
  · trivial

/-- What is kept holds of every return. -/
theorem Keeps.endsOr {R : σ → σ → Prop} (h : Keeps R m) (s : σ) :
  m.EndsOr (fun _ => True) s (fun _ s' => R s s')
  := by
  unfold EndsOr
  split
  case h_1 a s' heq => exact (h s).of_eq heq
  case h_2 => trivial

attribute [irreducible] EndsOr

/-- A loop keeps what its body keeps. -/
theorem endsOr_forUp {body : Nat → Prog σ Unit} (I : Nat → σ → Prop) {lo n : Nat}
    (step : ∀ i s, lo ≤ i → i < lo + n → I i s → (body i).EndsOr B s (fun _ s' => I (i + 1) s'))
    (h : I lo s) :
  (forUp lo n body).EndsOr B s (fun _ s' => I (lo + n) s')
  := by
  induction n generalizing lo s with
  | zero =>
      rw [forUp, endsOr_pure]
      apply h
  | succ n ih =>
      rw [forUp, endsOr_bind]
      apply (step lo s (by omega) (by omega) h).mono
      intro _ s' h'
      have hlo : lo + (n + 1) = lo + 1 + n := by omega
      rw [hlo]
      apply ih _ h'
      intro i s hi hi'
      apply step i s (by omega) (by omega)

/-! ### Checks that give up -/

/-- `m` runs as `m'` does, unless it gives up with the message `msg`. -/
def Checks (msg : String) (m m' : Prog σ α) : Prop :=
  ∀ s, m s = .error (.panic msg) ∨ m s = m' s

variable {msg : String} {m' : Prog σ α}

theorem checks_refl (m : Prog σ α) :
  Checks msg m m
  := fun _ => Or.inr rfl

theorem checks_panic :
  Checks msg (panic msg) m'
  := fun _ => Or.inl rfl

/-- Checks in the parts of a program are checks in the program. -/
theorem checks_bind {f f' : α → Prog σ β} (hm : Checks msg m m') (hf : ∀ a, Checks msg (f a) (f' a)) :
  Checks msg (m >>= f) (m' >>= f')
  := by
  intro s
  obtain h | h := hm s
  · left
    exact bind_of_error h
  · cases hs : m' s with
    | error stop =>
        right
        rw [bind_of_error (h.trans hs), bind_of_error hs]
    | ok r =>
        rw [bind_of_eq (h.trans hs), bind_of_eq hs]
        exact hf r.1 r.2

theorem checks_ite {c : Prop} [Decidable c] {n n' : Prog σ α} (h : Checks msg m m')
    (h' : Checks msg n n') :
  Checks msg (if c then m else n) (if c then m' else n')
  := by
  split
  · exact h
  · exact h'

/-- A run in which the check does not give up is a run without the check. -/
theorem Checks.run_eq (h : Checks msg m m') (hne : m s ≠ .error (.panic msg)) :
  m s = m' s
  := by
  obtain heq | heq := h s
  · exact (hne heq).elim
  · exact heq

end Prog
