import Jos.Lib.Prog

/-!
# Programs that do what others do

A program follows another one when it ends in the same way wherever the other one returns or
hands control on.  Where the other one panics or is refused an access it may do anything.  So
what is known of a careful program carries over to one that leaves out checks that never fail.
-/

namespace Prog

variable {σ α β : Type}

/-- Wherever `m` returns or hands control on, `m'` does so in the same state. -/
def Follows (m' m : Prog σ α) : Prop :=
  ∀ s, (∀ r, m s = .ok r → m' s = .ok r)
    ∧ ∀ t, m s = .error (.leave t) → m' s = .error (.leave t)

variable {m m' : Prog σ α} {s s' : σ}

theorem Follows.ok (h : m'.Follows m) {a : α} (heq : m s = .ok (a, s')) :
  m' s = .ok (a, s')
  := (h s).1 _ heq

theorem Follows.leave (h : m'.Follows m) (heq : m s = .error (.leave s')) :
  m' s = .error (.leave s')
  := (h s).2 _ heq

theorem follows_refl (m : Prog σ α) :
  m.Follows m
  := fun _ => ⟨fun _ h => h, fun _ h => h⟩

/-- A check that fails may be left out. -/
theorem follows_panic (m : Prog σ α) (msg : String) :
  m.Follows (panic msg)
  := by
  intro s
  constructor
  · intro r h
    cases h
  · intro t h
    cases h

theorem follows_bind {f f' : α → Prog σ β} (hm : m'.Follows m) (hf : ∀ a, (f' a).Follows (f a)) :
  (m' >>= f').Follows (m >>= f)
  := by
  intro s
  have hrun : ∀ n : Prog σ α, ∀ g : α → Prog σ β, (n >>= g) s = match n s with
      | .ok (a, t) => g a t
      | .error e => .error e := by
    intro n g
    simp only [bind, StateT.bind, Except.bind]
    cases n s with
    | ok r => rfl
    | error e => rfl
  rw [hrun, hrun]
  cases hms : m s with
  | ok r =>
      rw [hm.ok hms]
      exact hf r.1 r.2
  | error e =>
      constructor
      · intro r h
        cases h
      · intro t h
        obtain rfl : e = .leave t := Except.error.inj h
        rw [hm.leave hms]

theorem follows_ite {c : Prop} [Decidable c] {n n' : Prog σ α} (h : c → m'.Follows m)
    (hn : ¬ c → n'.Follows n) :
  (if c then m' else n').Follows (if c then m else n)
  := by
  by_cases hc : c
  · rw [if_pos hc, if_pos hc]
    exact h hc
  · rw [if_neg hc, if_neg hc]
    exact hn hc

theorem follows_forUp {body body' : Nat → Prog σ Unit} (h : ∀ i, (body' i).Follows (body i))
    (lo n : Nat) :
  (forUp lo n body').Follows (forUp lo n body)
  := by
  induction n generalizing lo with
  | zero => apply follows_refl
  | succ n ih =>
      rw [forUp, forUp]
      apply follows_bind (h lo)
      intro _
      apply ih

end Prog
