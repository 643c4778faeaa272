import Jos.Lib.Prog

/-!
# What programs leave unchanged

`m.MayEnd s Q L` says how the run of `m` from `s` ends if it ends: it may also panic or
make a refused access.  `Keeps R m` says that `m` never hands control on, and that the
state it returns in is related by `R` to the one it starts from.  If `R` is reflexive and
transitive, a program keeps `R` when its parts do.
-/

namespace Prog

variable {σ α β : Type}

/-- If the run of `m` from `s` returns, it returns with `Q`, and if it hands control on,
it does so with `L`. -/
def MayEnd (m : Prog σ α) (s : σ) (Q : α → σ → Prop) (L : σ → Prop) : Prop :=
  match m s with
  | .ok (a, s') => Q a s'
  | .error (.leave s') => L s'
  | .error _ => True

variable {m : Prog σ α} {s : σ} {Q Q' : α → σ → Prop} {L L' : σ → Prop}

@[simp]
theorem mayEnd_pure (a : α) :
  (pure a : Prog σ α).MayEnd s Q L ↔ Q a s
  := Iff.rfl

@[simp]
theorem mayEnd_leave :
  (leave : Prog σ α).MayEnd s Q L ↔ L s
  := Iff.rfl

@[simp]
theorem mayEnd_panic (msg : String) :
  (panic msg : Prog σ α).MayEnd s Q L
  := trivial

@[simp]
theorem mayEnd_fault (addr : Nat) :
  (fault addr : Prog σ α).MayEnd s Q L
  := trivial

@[simp]
theorem mayEnd_get {Q : σ → σ → Prop} :
  (get : Prog σ σ).MayEnd s Q L ↔ Q s s
  := Iff.rfl

@[simp]
theorem mayEnd_set {t : σ} {Q : PUnit → σ → Prop} :
  (set t : Prog σ PUnit).MayEnd s Q L ↔ Q ⟨⟩ t
  := Iff.rfl

@[simp]
theorem mayEnd_modify {f : σ → σ} {Q : PUnit → σ → Prop} :
  (modify f : Prog σ PUnit).MayEnd s Q L ↔ Q ⟨⟩ (f s)
  := Iff.rfl

@[simp]
theorem mayEnd_bind {f : α → Prog σ β} {Q : β → σ → Prop} :
  (m >>= f).MayEnd s Q L ↔ m.MayEnd s (fun a s' => (f a).MayEnd s' Q L) L
  := by
  unfold MayEnd
  simp only [bind, StateT.bind, Except.bind]
  cases m s with
  | ok r => rfl
  | error e =>
      cases e with
      | panic msg => rfl
      | fault addr => rfl
      | leave s' => rfl

@[simp]
theorem mayEnd_orElse {o : Option α} {out : Prog σ α} :
  (orElse o out).MayEnd s Q L ↔ (∀ a, o = some a → Q a s) ∧ (o = none → out.MayEnd s Q L)
  := by
  cases o with
  | none => simp [orElse]
  | some a => simp [orElse]

/-- The value returned may be replaced. -/
theorem MayEnd.then_pure {P : σ → Prop} (h : m.MayEnd s (fun _ s' => P s') L) (b : β) :
  (do let _ ← m; pure b : Prog σ β).MayEnd s (fun _ s' => P s') L
  := by
  rw [mayEnd_bind]
  exact h

theorem mayEnd_ite {c : Prop} [Decidable c] {m' : Prog σ α} :
  (if c then m else m').MayEnd s Q L ↔ (c → m.MayEnd s Q L) ∧ (¬ c → m'.MayEnd s Q L)
  := by
  by_cases h : c
  · simp [h]
  · simp [h]

/-- A weaker property holds wherever a stronger one does. -/
theorem MayEnd.mono (h : m.MayEnd s Q L) (hQ : ∀ a s', Q a s' → Q' a s')
    (hL : ∀ s', L s' → L' s') :
  m.MayEnd s Q' L'
  := by
  unfold MayEnd at h ⊢
  split at h
  · exact hQ _ _ h
  · exact hL _ h
  · trivial

/-- The ending of a program is the one its run has. -/
theorem MayEnd.with_eq (h : m.MayEnd s Q L) :
  m.MayEnd s (fun a s' => Q a s' ∧ m s = .ok (a, s')) (fun s' => L s' ∧ m s = .error (.leave s'))
  := by
  unfold MayEnd at h ⊢
  split at h
  case h_1 a s' heq => exact ⟨h, heq⟩
  case h_2 s' heq => exact ⟨h, heq⟩
  · trivial

/-- What may hold of every ending holds of the value returned. -/
theorem MayEnd.of_eq {a : α} {s' : σ} (h : m.MayEnd s Q L) (heq : m s = .ok (a, s')) :
  Q a s'
  := by
  unfold MayEnd at h
  rw [heq] at h
  exact h

/-- What may hold of every ending holds of the state handed on. -/
theorem MayEnd.of_leave {s' : σ} (h : m.MayEnd s Q L) (heq : m s = .error (.leave s')) :
  L s'
  := by
  unfold MayEnd at h
  rw [heq] at h
  exact h

/-- How a program may end is how it ends if it does. -/
theorem mayEnd_intro (hQ : ∀ a s', m s = .ok (a, s') → Q a s')
    (hL : ∀ s', m s = .error (.leave s') → L s') :
  m.MayEnd s Q L
  := by
  unfold MayEnd
  split
  case h_1 a s' heq => exact hQ a s' heq
  case h_2 s' heq => exact hL s' heq
  · trivial

theorem mayEnd_of_bind_eq {f : α → Prog σ β} {Q : β → σ → Prop} {a : α} {s' : σ}
    (h : m s = .ok (a, s')) :
  (m >>= f).MayEnd s Q L ↔ (f a).MayEnd s' Q L
  := by
  unfold MayEnd
  rw [bind_of_eq h]

/-- How a program ends is up to its result. -/
theorem mayEnd_congr {m' : Prog σ α} {s' : σ} (h : m s = m' s') :
  m.MayEnd s Q L ↔ m'.MayEnd s' Q L
  := by
  unfold MayEnd
  rw [h]

theorem mayEnd_of_eq {a : α} {s' : σ} (h : m s = .ok (a, s')) :
  m.MayEnd s Q L ↔ Q a s'
  := by
  unfold MayEnd
  rw [h]

theorem mayEnd_of_leave {s' : σ} (h : m s = .error (.leave s')) :
  m.MayEnd s Q L ↔ L s'
  := by
  unfold MayEnd
  rw [h]

theorem mayEnd_of_panic {msg : String} (h : m s = .error (.panic msg)) :
  m.MayEnd s Q L
  := by
  unfold MayEnd
  rw [h]
  trivial

/-- How a program may end depends on its run only. -/
theorem MayEnd.of_run_eq {m' : Prog σ α} {s' : σ} (h : m'.MayEnd s' Q L) (heq : m s = m' s') :
  m.MayEnd s Q L
  := by
  unfold MayEnd at h ⊢
  rw [heq]
  exact h

/-- A run that ends may end so. -/
theorem Ends.mayEnd (h : m.Ends s Q L) :
  m.MayEnd s Q L
  := by
  unfold MayEnd
  obtain ⟨a, s', heq, hQ⟩ | ⟨s', heq, hL⟩ := h.cases
  · rw [heq]
    exact hQ
  · rw [heq]
    exact hL

/-- A run that returns does so with its result. -/
theorem mayEnd_run :
  m.MayEnd s (fun a s' => m s = .ok (a, s')) (fun _ => True)
  := by
  unfold MayEnd
  split
  case h_1 heq => apply heq
  case h_2 => trivial
  case h_3 => trivial

attribute [irreducible] MayEnd

/-- Where a run of `m` starts and where it returns are related by `R`. -/
def Keeps (R : σ → σ → Prop) (m : Prog σ α) : Prop :=
  ∀ s, m.MayEnd s (fun _ s' => R s s') (fun _ => False)

/-- A relation that holds between any number of steps if it holds for each of them. -/
structure Composes (R : σ → σ → Prop) : Prop where
  refl : ∀ s, R s s
  trans : ∀ {s s' s''}, R s s' → R s' s'' → R s s''

section Composes

variable {R : σ → σ → Prop} (hR : Composes R)
include hR

theorem keeps_pure (a : α) :
  Keeps R (pure a : Prog σ α)
  := fun s => mayEnd_pure a |>.mpr (hR.refl s)

theorem keeps_get :
  Keeps R (get : Prog σ σ)
  := fun s => mayEnd_get.mpr (hR.refl s)

/-- A composed program keeps what its parts keep. -/
theorem keeps_bind {f : α → Prog σ β} (hm : Keeps R m) (hf : ∀ a, Keeps R (f a)) :
  Keeps R (m >>= f)
  := by
  intro s
  rw [mayEnd_bind]
  apply (hm s).mono
  · intro a s' h
    apply (hf a s').mono
    · exact fun _ _ h' => hR.trans h h'
    · exact fun _ h' => h'
  · exact fun _ h => h

theorem keeps_orElse (o : Option α) {out : Prog σ α} (h : Keeps R out) :
  Keeps R (orElse o out)
  := by
  intro s
  rw [mayEnd_orElse]
  exact ⟨fun _ _ => hR.refl s, fun _ => h s⟩

/-- A loop keeps what its body keeps. -/
theorem keeps_forUp {body : Nat → Prog σ Unit} (h : ∀ i, Keeps R (body i)) (lo n : Nat) :
  Keeps R (forUp lo n body)
  := by
  induction n generalizing lo with
  | zero => exact keeps_pure hR ()
  | succ n ih => exact keeps_bind hR (h lo) (fun _ => ih (lo + 1))

/-- A search loop keeps what its body keeps. -/
theorem keeps_findUp {body : Nat → Prog σ (Option β)} (h : ∀ i, Keeps R (body i)) (lo n : Nat) :
  Keeps R (findUp lo n body)
  := by
  induction n generalizing lo with
  | zero => exact keeps_pure hR none
  | succ n ih =>
      apply keeps_bind hR (h lo)
      intro r
      cases r with
      | none => exact ih (lo + 1)
      | some b => exact keeps_pure hR (some b)

/-- A scan keeps what its body keeps. -/
theorem keeps_skipUp {body : Nat → Prog σ Bool} (h : ∀ i, Keeps R (body i)) (lo n : Nat) :
  Keeps R (skipUp lo n body)
  := by
  induction n generalizing lo with
  | zero => exact keeps_pure hR lo
  | succ n ih =>
      apply keeps_bind hR (h lo)
      intro b
      cases b with
      | true => exact ih (lo + 1)
      | false => exact keeps_pure hR lo

/-- What is kept from a later state on is kept from an earlier one on. -/
theorem Keeps.after {t : σ} (h : Keeps R m) (ht : R s t) :
  m.MayEnd t (fun _ s' => R s s') (fun _ => False)
  := (h t).mono (fun _ _ h' => hR.trans ht h') (fun _ h' => h')

end Composes

variable {R : σ → σ → Prop}

theorem keeps_modify {f : σ → σ} (h : ∀ s, R s (f s)) :
  Keeps R (modify f : Prog σ PUnit)
  := fun s => mayEnd_modify.mpr (h s)

theorem keeps_panic (msg : String) :
  Keeps R (panic msg : Prog σ α)
  := fun _ => mayEnd_panic msg

theorem keeps_fault (addr : Nat) :
  Keeps R (fault addr : Prog σ α)
  := fun _ => mayEnd_fault addr

theorem keeps_ite {c : Prop} [Decidable c] {m' : Prog σ α} (h : Keeps R m) (h' : Keeps R m') :
  Keeps R (if c then m else m')
  := by
  split
  · exact h
  · exact h'

/-- What keeps a relation keeps a weaker one. -/
theorem Keeps.mono {R' : σ → σ → Prop} (h : Keeps R m) (hle : ∀ s s', R s s' → R' s s') :
  Keeps R' m
  := fun s => (h s).mono (fun _ s' => hle s s') (fun _ h' => h')

/-- To keep a relation, a program may use the state it has read. -/
theorem keeps_get_bind {f : σ → Prog σ α}
    (h : ∀ s, (f s).MayEnd s (fun _ s' => R s s') (fun _ => False)) :
  Keeps R (get >>= f)
  := by
  intro s
  rw [mayEnd_bind, mayEnd_get]
  exact h s

/-! ### Returning unless something is the case -/

/-- The run of `m` from `s` returns with `Q`, or it does not return and `E` is the case. -/
def EndsUnless (E : Prop) (m : Prog σ α) (s : σ) (Q : α → σ → Prop) : Prop :=
  match m s with
  | .ok (a, s') => Q a s'
  | .error _ => E

section EndsUnless

variable {E : Prop} {Q Q' : α → σ → Prop}

theorem endsUnless_of_eq {a : α} {s' : σ} (h : m s = .ok (a, s')) :
  m.EndsUnless E s Q ↔ Q a s'
  := by rw [EndsUnless, h]

theorem endsUnless_of_error {stop : Stop σ} (h : m s = .error stop) (hE : E) :
  m.EndsUnless E s Q
  := by
  rw [EndsUnless, h]
  exact hE

theorem endsUnless_bind_of_eq {f : α → Prog σ β} {Q : β → σ → Prop} {a : α} {s' : σ}
    (h : m s = .ok (a, s')) :
  (m >>= f).EndsUnless E s Q ↔ (f a).EndsUnless E s' Q
  := by rw [EndsUnless, EndsUnless, bind_of_eq h]

@[simp]
theorem endsUnless_pure {a : α} :
  (pure a : Prog σ α).EndsUnless E s Q ↔ Q a s
  := Iff.rfl

@[simp]
theorem endsUnless_modify {u : σ → σ} {Q : PUnit → σ → Prop} :
  (modify u : Prog σ PUnit).EndsUnless E s Q ↔ Q ⟨⟩ (u s)
  := Iff.rfl

theorem endsUnless_panic_bind {msg : String} {f : β → Prog σ α} :
  ((Prog.panic msg : Prog σ β) >>= f).EndsUnless E s Q ↔ E
  := Iff.rfl

theorem endsUnless_pure_bind {b : β} {f : β → Prog σ α} :
  ((pure b : Prog σ β) >>= f).EndsUnless E s Q ↔ (f b).EndsUnless E s Q
  := Iff.rfl

theorem endsUnless_get_bind {f : σ → Prog σ α} :
  (get >>= f).EndsUnless E s Q ↔ (f s).EndsUnless E s Q
  := Iff.rfl

theorem endsUnless_modify_bind {f : PUnit → Prog σ α} {u : σ → σ} :
  (modify u >>= f).EndsUnless E s Q ↔ (f ⟨⟩).EndsUnless E (u s) Q
  := Iff.rfl

theorem EndsUnless.fault {addr : Nat} (h : E) :
  (Prog.fault addr : Prog σ α).EndsUnless E s Q
  := h

theorem EndsUnless.bind {f : α → Prog σ β} {Q : β → σ → Prop} {P : α → σ → Prop}
    (h : m.EndsUnless E s P) (hf : ∀ a s', P a s' → (f a).EndsUnless E s' Q) :
  (m >>= f).EndsUnless E s Q
  := by
  unfold EndsUnless at h hf ⊢
  simp only [Bind.bind, StateT.bind, Except.bind]
  cases hm : m s with
  | ok r =>
      rw [hm] at h
      exact hf r.1 r.2 h
  | error e =>
      rw [hm] at h
      exact h

/-- A weaker property holds wherever a stronger one does. -/
theorem EndsUnless.mono (h : m.EndsUnless E s Q) (hQ : ∀ a s', Q a s' → Q' a s') :
  m.EndsUnless E s Q'
  := by
  unfold EndsUnless at h ⊢
  split at h
  · exact hQ _ _ h
  · exact h

/-- What returns with one property and with another returns with both. -/
theorem EndsUnless.and (h : m.EndsUnless E s Q) (h' : m.EndsUnless E s Q') :
  m.EndsUnless E s (fun a s' => Q a s' ∧ Q' a s')
  := by
  unfold EndsUnless at h h' ⊢
  cases hm : m s with
  | ok r =>
      rw [hm] at h h'
      exact ⟨h, h'⟩
  | error stop =>
      rw [hm] at h
      exact h

/-- A loop keeps what its body keeps. -/
theorem EndsUnless.forUp {body : Nat → Prog σ Unit} (I : Nat → σ → Prop) {lo n : Nat}
    (step : ∀ i s, lo ≤ i → i < lo + n → I i s →
      (body i).EndsUnless E s (fun _ s' => I (i + 1) s'))
    (h : I lo s) :
  (Prog.forUp lo n body).EndsUnless E s (fun _ s' => I (lo + n) s')
  := by
  induction n generalizing lo s with
  | zero =>
      rw [Prog.forUp, endsUnless_pure]
      exact h
  | succ n ih =>
      apply (step lo s (by omega) (by omega) h).bind
      intro _ s' h'
      rw [show lo + (n + 1) = lo + 1 + n by omega]
      apply ih _ h'
      intro i s hi hi'
      exact step i s (by omega) (by omega)

/-- What returns unless `False` returns. -/
theorem EndsUnless.returns (h : m.EndsUnless E s Q) (hE : ¬ E) :
  ∃ a s', m s = .ok (a, s') ∧ Q a s'
  := by
  unfold EndsUnless at h
  cases hm : m s with
  | ok r =>
      rw [hm] at h
      exact ⟨r.1, r.2, rfl, h⟩
  | error e =>
      rw [hm] at h
      exact (hE h).elim

/-- What holds of every return holds of the value returned. -/
theorem EndsUnless.of_eq {a : α} {s' : σ} (h : m.EndsUnless E s Q) (heq : m s = .ok (a, s')) :
  Q a s'
  := by rwa [endsUnless_of_eq heq] at h

/-- What never hands control on may end as it ends. -/
theorem EndsUnless.mayEnd (h : m.EndsUnless E s Q) (hk : Keeps (fun _ _ => True) m) :
  m.MayEnd s Q L
  := by
  have hmay := hk s
  unfold EndsUnless at h
  unfold MayEnd at hmay ⊢
  split at h
  case h_1 a s' heq =>
    rw [heq]
    exact h
  case h_2 stop heq =>
    rw [heq] at hmay ⊢
    cases stop with
    | panic msg => trivial
    | fault addr => trivial
    | leave s' => exact hmay.elim

end EndsUnless

attribute [irreducible] EndsUnless

/-! ### Returning or giving up with a message -/

/-- The run of `m` from `s` returns with `Q`, or it gives up with the message `msg` and `E` is the
case. -/
def ReturnsOr (msg : String) (E : Prop) (m : Prog σ α) (s : σ) (Q : α → σ → Prop) : Prop :=
  (∃ a s', m s = .ok (a, s') ∧ Q a s') ∨ (m s = .error (.panic msg) ∧ E)

/-- A loop keeps what its body keeps. -/
theorem ReturnsOr.forUp {msg : String} {E : Prop} {body : Nat → Prog σ Unit} {s : σ}
    (I : Nat → σ → Prop) {lo n : Nat}
    (step : ∀ i s, lo ≤ i → i < lo + n → I i s →
      (body i).ReturnsOr msg E s (fun _ s' => I (i + 1) s'))
    (h : I lo s) :
  (Prog.forUp lo n body).ReturnsOr msg E s (fun _ s' => I (lo + n) s')
  := by
  induction n generalizing lo s with
  | zero => exact Or.inl ⟨(), s, rfl, h⟩
  | succ n ih =>
      obtain ⟨_, s', heq, h'⟩ | ⟨heq, hE⟩ := step lo s (by omega) (by omega) h
      · rw [ReturnsOr, Prog.forUp, bind_of_eq heq, show lo + (n + 1) = lo + 1 + n by omega]
        apply ih _ h'
        intro i s hi hi'
        exact step i s (by omega) (by omega)
      · right
        rw [Prog.forUp, bind_of_error heq]
        exact ⟨rfl, hE⟩

end Prog
