import Jos.Lib.Prog

/-!
# Programs that return and keep an invariant

`m.Gives I Q` says that from every state with the invariant `I` the program `m` returns, in a
state with `I` again, and with a value that has the property `Q`.  What the states are does not matter
for programs that only look things up: the invariant says what they show.
-/

namespace Prog

variable {σ α β : Type}

/-- From a state with `I` the program returns in such a state, with a value that has `Q`. -/
def Gives (I : σ → Prop) (m : Prog σ α) (Q : α → Prop) : Prop :=
  ∀ s, I s → ∃ a s', m s = .ok (a, s') ∧ I s' ∧ Q a

variable {I : σ → Prop} {m m' : Prog σ α} {Q Q' : α → Prop}

theorem gives_pure {a : α} (h : Q a) :
  (pure a : Prog σ α).Gives I Q
  := by
  intro s hs
  exact ⟨a, s, rfl, hs, h⟩

theorem Gives.bind {f : α → Prog σ β} {P : β → Prop} (h : m.Gives I Q)
    (hf : ∀ a, Q a → (f a).Gives I P) :
  (m >>= f).Gives I P
  := by
  intro s hs
  rcases h s hs with ⟨a, s', heq, hs', ha⟩
  rw [bind_of_eq heq]
  apply hf a ha s' hs'

theorem Gives.mono (h : m.Gives I Q) (hQ : ∀ a, Q a → Q' a) :
  m.Gives I Q'
  := by
  intro s hs
  rcases h s hs with ⟨a, s', heq, hs', ha⟩
  exact ⟨a, s', heq, hs', hQ a ha⟩

theorem gives_ite {c : Prop} [Decidable c] (h : c → m.Gives I Q) (h' : ¬ c → m'.Gives I Q) :
  (if c then m else m').Gives I Q
  := by
  split
  case isTrue hc => apply h hc
  case isFalse hc => apply h' hc

/-- A scan whose body says no at `stop` at the latest gives a place up to there. -/
theorem gives_skipUp {body : Nat → Prog σ Bool} {lo n stop : Nat} (hlo : lo ≤ stop)
    (hn : stop < lo + n)
    (hbody : ∀ i, lo ≤ i → i ≤ stop → (body i).Gives I (fun b => i = stop → b = false)) :
  (skipUp lo n body).Gives I (fun k => lo ≤ k ∧ k ≤ stop)
  := by
  induction n generalizing lo with
  | zero => omega
  | succ n ih =>
      apply (hbody lo (Nat.le_refl lo) hlo).bind
      intro b hb
      apply gives_ite
      · intro hgo
        have hne : lo ≠ stop := by
          intro heq
          rw [hb heq] at hgo
          cases hgo
        apply (ih (by omega) (by omega) (fun i hi => hbody i (by omega))).mono
        rintro k ⟨hk, hk'⟩
        omega
      · intro _
        apply gives_pure
        exact ⟨Nat.le_refl lo, hlo⟩

end Prog
