import Jos.Lib.Bytes

/-!
# Programs that access a store

An `Io α` is a program that loads from and stores to a memory of bytes that is kept
elsewhere, asks for parts of it to be flushed, and returns an `α` or gives up.  What an
access does is not fixed here.  `p.run ok m` is the plain meaning of `p`: the memory is
there, and an access to an address that `ok` refuses ends the run.  Other meanings, like that
of a cache, are related to this one.

`p.Ends ok m Q E` says how the run of `p` from `m` ends: it returns a value and a memory with
the property `Q`, or it gives up, which is only allowed if `E`.  It never makes a refused
access.  The rules below compute `Ends` for the ways programs are put together.
-/

open Bytes

/-- A program that accesses a store and returns an `α`. -/
inductive Io (α : Type) where
  | done (a : α)
  | panic (msg : String)
  | load8 (a : Nat) (k : Byte → Io α)
  | load32 (a : Nat) (k : Word → Io α)
  | store8 (a : Nat) (b : Byte) (k : Io α)
  | store32 (a : Nat) (w : Word) (k : Io α)
  | flush (a : Nat) (k : Io α)

namespace Io

variable {α β γ : Type}

/-- Go on with `f` once the program is done. -/
def bind : Io α → (α → Io β) → Io β
  | done a, f => f a
  | panic msg, _ => panic msg
  | load8 a k, f => load8 a (fun b => (k b).bind f)
  | load32 a k, f => load32 a (fun w => (k w).bind f)
  | store8 a b k, f => store8 a b (k.bind f)
  | store32 a w k, f => store32 a w (k.bind f)
  | flush a k, f => flush a (k.bind f)

instance : Monad Io where
  pure := done
  bind := bind

/-! ### Accesses -/

/-- The byte at `a`. -/
def get8 (a : Nat) : Io Byte :=
  load8 a done

/-- The word at `a`. -/
def get32 (a : Nat) : Io Word :=
  load32 a done

def set8 (a : Nat) (b : Byte) : Io Unit :=
  store8 a b (done ())

def set32 (a : Nat) (w : Word) : Io Unit :=
  store32 a w (done ())

/-- Write back what is stored around `a`. -/
def sync (a : Nat) : Io Unit :=
  flush a (done ())

/-- The `n` bytes from `a` on. -/
def getBytes (a : Nat) : Nat → Io (List Byte)
  | 0 => pure []
  | n + 1 => do
      let b ← get8 a
      let bs ← getBytes (a + 1) n
      pure (b :: bs)

/-- Store bytes from `a` on. -/
def setBytes (a : Nat) : List Byte → Io Unit
  | [] => pure ()
  | b :: bs => do
      set8 a b
      setBytes (a + 1) bs

/-! ### Loops -/

/-- Run `body lo`, `body (lo + 1)`, ..., `n` times in all. -/
def forUp (lo : Nat) : Nat → (Nat → Io Unit) → Io Unit
  | 0, _ => pure ()
  | n + 1, body => do
      body lo
      forUp (lo + 1) n body

/-- Run `body lo`, `body (lo + 1)`, ..., `n` times in all, until one of them gives a
result. -/
def findUp (lo : Nat) : Nat → (Nat → Io (Option β)) → Io (Option β)
  | 0, _ => pure none
  | n + 1, body => do
      match ← body lo with
      | some b => pure (some b)
      | none => findUp (lo + 1) n body

/-! ### Runs -/

/-- The ways a run ends. -/
inductive Outcome (α : Type) where
  /-- The program returned `a`, and left the memory `m`. -/
  | ret (a : α) (m : Memory)
  /-- The program gave up with a message. -/
  | panic (msg : String)
  /-- The program accessed the address `a`, which it may not access. -/
  | fault (a : Nat)

/-- Whether the word at `a` may be accessed. -/
def okWord (ok : Memory → Nat → Bool) (m : Memory) (a : Nat) : Bool :=
  ok m a && ok m (a + 3)

/-- The run of a program on the memory `m`, where only addresses that `ok` allows are
accessed. -/
def run (ok : Memory → Nat → Bool) : Io α → Memory → Outcome α
  | done a, m => .ret a m
  | panic msg, _ => .panic msg
  | load8 a k, m => if ok m a then run ok (k (m a)) m else .fault a
  | load32 a k, m => if okWord ok m a then run ok (k (read32 m a)) m else .fault a
  | store8 a b k, m => if ok m a then run ok k (write8 m a b) else .fault a
  | store32 a w k, m => if okWord ok m a then run ok k (write32 m a w) else .fault a
  | flush a k, m => if ok m a then run ok k m else .fault a

/-- The flushes a run asks for, each with the memory at that time. -/
def flushes (ok : Memory → Nat → Bool) : Io α → Memory → List (Nat × Memory)
  | done _, _ => []
  | panic _, _ => []
  | load8 a k, m => if ok m a then flushes ok (k (m a)) m else []
  | load32 a k, m => if okWord ok m a then flushes ok (k (read32 m a)) m else []
  | store8 a b k, m => if ok m a then flushes ok k (write8 m a b) else []
  | store32 a w k, m => if okWord ok m a then flushes ok k (write32 m a w) else []
  | flush a k, m => if ok m a then (a, m) :: flushes ok k m else []

/-- The run of `p` from `m` returns with `Q`, or gives up where `E` allows it. -/
def Ends (ok : Memory → Nat → Bool) (p : Io α) (m : Memory) (Q : α → Memory → Prop)
    (E : Prop) : Prop :=
  match p.run ok m with
  | .ret a m' => Q a m'
  | .panic _ => E
  | .fault _ => False

variable {ok : Memory → Nat → Bool} {p : Io α} {m m' : Memory} {a : α} {Q Q' : α → Memory → Prop}
  {E E' : Prop}

-- the equations of these are derived once, here, and not in each of the proofs that unfold them
section
attribute [local simp] run flushes Ends
end

/-- A run goes on where its first part is done. -/
theorem run_bind (p : Io α) (f : α → Io β) (m : Memory) :
  (p >>= f).run ok m = match p.run ok m with
    | .ret a m' => (f a).run ok m'
    | .panic msg => .panic msg
    | .fault x => .fault x
  := by
  change (p.bind f).run ok m = _
  induction p generalizing m with
  | done a => rfl
  | panic msg => rfl
  | load8 a k ih =>
      simp only [bind, run]
      split
      · exact ih (m a) m
      · rfl
  | load32 a k ih =>
      simp only [bind, run]
      split
      · exact ih (read32 m a) m
      · rfl
  | store8 a b k ih =>
      simp only [bind, run]
      split
      · exact ih _
      · rfl
  | store32 a w k ih =>
      simp only [bind, run]
      split
      · exact ih _
      · rfl
  | flush a k ih =>
      simp only [bind, run]
      split
      · exact ih m
      · rfl

/-- The flushes of a run are those of its parts. -/
theorem flushes_bind (p : Io α) (f : α → Io β) (m : Memory) :
  (p >>= f).flushes ok m = p.flushes ok m ++ (match p.run ok m with
    | .ret a m' => (f a).flushes ok m'
    | .panic _ => []
    | .fault _ => [])
  := by
  change (p.bind f).flushes ok m = _
  induction p generalizing m with
  | done a => rfl
  | panic msg => rfl
  | load8 a k ih =>
      simp only [bind, run, flushes]
      split
      · exact ih (m a) m
      · rfl
  | load32 a k ih =>
      simp only [bind, run, flushes]
      split
      · exact ih (read32 m a) m
      · rfl
  | store8 a b k ih =>
      simp only [bind, run, flushes]
      split
      · exact ih _
      · rfl
  | store32 a w k ih =>
      simp only [bind, run, flushes]
      split
      · exact ih _
      · rfl
  | flush a k ih =>
      simp only [bind, run, flushes]
      split
      · rw [ih m, List.cons_append]
      · rfl

/-! ### How a run ends -/

@[simp]
theorem ends_pure (a : α) :
  (pure a : Io α).Ends ok m Q E ↔ Q a m
  := Iff.rfl

@[simp]
theorem ends_panic (msg : String) :
  (panic msg : Io α).Ends ok m Q E ↔ E
  := Iff.rfl

@[simp]
theorem ends_bind {f : α → Io β} {Q : β → Memory → Prop} :
  (p >>= f).Ends ok m Q E ↔ p.Ends ok m (fun a m' => (f a).Ends ok m' Q E) E
  := by
  unfold Ends
  rw [run_bind]
  cases p.run ok m with
  | ret a m' => rfl
  | panic msg => rfl
  | fault x => rfl

theorem ends_get8 {x : Nat} {Q : Byte → Memory → Prop} :
  (get8 x).Ends ok m Q E ↔ ok m x = true ∧ Q (m x) m
  := by
  unfold Ends
  simp only [get8, run]
  cases ok m x with
  | true => simp
  | false => simp

theorem ends_get32 {x : Nat} {Q : Word → Memory → Prop} :
  (get32 x).Ends ok m Q E ↔ okWord ok m x = true ∧ Q (read32 m x) m
  := by
  unfold Ends
  simp only [get32, run]
  cases okWord ok m x with
  | true => simp
  | false => simp

theorem ends_set8 {x : Nat} {b : Byte} {Q : Unit → Memory → Prop} :
  (set8 x b).Ends ok m Q E ↔ ok m x = true ∧ Q () (write8 m x b)
  := by
  unfold Ends
  simp only [set8, run]
  cases ok m x with
  | true => simp
  | false => simp

theorem ends_set32 {x : Nat} {w : Word} {Q : Unit → Memory → Prop} :
  (set32 x w).Ends ok m Q E ↔ okWord ok m x = true ∧ Q () (write32 m x w)
  := by
  unfold Ends
  simp only [set32, run]
  cases okWord ok m x with
  | true => simp
  | false => simp

theorem ends_sync {x : Nat} {Q : Unit → Memory → Prop} :
  (sync x).Ends ok m Q E ↔ ok m x = true ∧ Q () m
  := by
  unfold Ends
  simp only [sync, run]
  cases ok m x with
  | true => simp
  | false => simp

theorem ends_ite {c : Prop} [Decidable c] {p' : Io α} :
  (if c then p else p').Ends ok m Q E ↔ (c → p.Ends ok m Q E) ∧ (¬ c → p'.Ends ok m Q E)
  := by
  by_cases h : c
  · simp [h]
  · simp [h]

/-- A weaker property holds wherever a stronger one does. -/
theorem Ends.mono (h : p.Ends ok m Q E) (hQ : ∀ a m', Q a m' → Q' a m') (hE : E → E') :
  p.Ends ok m Q' E'
  := by
  unfold Ends at h ⊢
  cases hrun : p.run ok m with
  | ret a m' =>
      rw [hrun] at h
      exact hQ a m' h
  | panic msg =>
      rw [hrun] at h
      exact hE h
  | fault x =>
      rw [hrun] at h
      exact h.elim

/-- A program that may not give up returns. -/
theorem Ends.returns (h : p.Ends ok m Q E) (hE : ¬ E) :
  ∃ a m', p.run ok m = .ret a m' ∧ Q a m'
  := by
  unfold Ends at h
  cases hrun : p.run ok m with
  | ret a m' =>
      rw [hrun] at h
      exact ⟨a, m', rfl, h⟩
  | panic msg =>
      rw [hrun] at h
      exact (hE h).elim
  | fault x =>
      rw [hrun] at h
      exact h.elim

/-- A program that ends returns, or gives up with a message. -/
theorem Ends.cases (h : p.Ends ok m Q E) :
  (∃ a m', p.run ok m = .ret a m' ∧ Q a m') ∨ (∃ msg, p.run ok m = .panic msg ∧ E)
  := by
  unfold Ends at h
  cases hrun : p.run ok m with
  | ret a m' =>
      rw [hrun] at h
      exact .inl ⟨a, m', rfl, h⟩
  | panic msg =>
      rw [hrun] at h
      exact .inr ⟨msg, rfl, h⟩
  | fault x =>
      rw [hrun] at h
      exact h.elim

/-- A run that returns ends as it returned. -/
theorem ends_of_run (h : p.run ok m = .ret a m') :
  p.Ends ok m Q E ↔ Q a m'
  := by
  unfold Ends
  rw [h]

-- From here on the rules above are used instead of running programs while elaborating.
attribute [irreducible] Ends

/-! ### Ranges of bytes -/

/-- The bytes of a range that may be accessed. -/
theorem ends_getBytes {x n : Nat} {Q : List Byte → Memory → Prop}
    (h : ∀ i < n, ok m (x + i) = true) (hQ : Q ((List.range n).map (fun i => m (x + i))) m) :
  (getBytes x n).Ends ok m Q E
  := by
  induction n generalizing x Q with
  | zero =>
      rw [getBytes, ends_pure]
      exact hQ
  | succ n ih =>
      have hrest : ∀ i < n, ok m (x + 1 + i) = true := by
        intro i hi
        have hok := h (i + 1) (by omega)
        rw [Nat.add_comm i 1, ← Nat.add_assoc] at hok
        exact hok
      rw [getBytes, ends_bind, ends_get8]
      constructor
      · exact h 0 (by omega)
      · rw [ends_bind]
        apply ih hrest
        rw [ends_pure]
        have hmap : (List.range (n + 1)).map (fun i => m (x + i))
            = m x :: (List.range n).map (fun i => m (x + 1 + i)) := by
          rw [List.range_succ_eq_map, List.map_cons, List.map_map]
          congr 1
          apply List.map_congr_left
          intro i _
          simp only [Function.comp_apply]
          congr 1
          omega
        rw [hmap] at hQ
        exact hQ

/-- Storing bytes in a range that may be accessed, whatever it holds. -/
theorem ends_setBytes {x : Nat} {bs : List Byte} {Q : Unit → Memory → Prop}
    (h : ∀ m', (∀ y, y < x ∨ x + bs.length ≤ y → m' y = m y) →
      ∀ i < bs.length, ok m' (x + i) = true)
    (hQ : Q () (writeBytes m x bs)) :
  (setBytes x bs).Ends ok m Q E
  := by
  induction bs generalizing x m with
  | nil =>
      rw [setBytes, ends_pure]
      rw [writeBytes_nil] at hQ
      exact hQ
  | cons b bs ih =>
      rw [List.length_cons] at h
      rw [setBytes, ends_bind, ends_set8]
      constructor
      · exact h m (fun _ _ => rfl) 0 (by omega)
      · apply ih
        · intro m' hm' i hi
          have hok := h m' ?_ (i + 1) (by omega)
          · rw [Nat.add_comm i 1, ← Nat.add_assoc] at hok
            exact hok
          · intro y hy
            rw [hm' y (by omega), write8, if_neg (by omega)]
        · rw [← writeBytes_cons]
          exact hQ

/-! ### Loops -/

/-- A loop keeps what its body keeps. -/
theorem ends_forUp {body : Nat → Io Unit} (I : Nat → Memory → Prop) {lo n : Nat}
    (step : ∀ i m, lo ≤ i → i < lo + n → I i m → (body i).Ends ok m (fun _ m' => I (i + 1) m') E)
    (h : I lo m) :
  (forUp lo n body).Ends ok m (fun _ m' => I (lo + n) m') E
  := by
  induction n generalizing lo m with
  | zero =>
      rw [forUp, ends_pure]
      exact h
  | succ n ih =>
      rw [forUp, ends_bind]
      apply (step lo m (by omega) (by omega) h).mono _ id
      intro _ m' h'
      rw [show lo + (n + 1) = lo + 1 + n by omega]
      apply ih _ h'
      intro i m hi hi'
      exact step i m (by omega) (by omega)

/-- A search loop keeps what its body keeps until the body gives a result. -/
theorem ends_findUp {body : Nat → Io (Option β)} (I : Nat → Memory → Prop)
    (R : β → Memory → Prop) {lo n : Nat}
    (step : ∀ i m, lo ≤ i → i < lo + n → I i m →
      (body i).Ends ok m (fun r m' => (r = none → I (i + 1) m') ∧ ∀ b, r = some b → R b m') E)
    (h : I lo m) :
  (findUp lo n body).Ends ok m
    (fun r m' => (r = none → I (lo + n) m') ∧ ∀ b, r = some b → R b m') E
  := by
  induction n generalizing lo m with
  | zero =>
      rw [findUp, ends_pure]
      constructor
      · intro _
        exact h
      · intro b hb
        cases hb
  | succ n ih =>
      rw [findUp, ends_bind]
      apply (step lo m (by omega) (by omega) h).mono _ id
      intro r m' h'
      cases r with
      | some b =>
          rw [ends_pure]
          constructor
          · intro hb
            cases hb
          · exact h'.2
      | none =>
          rw [show lo + (n + 1) = lo + 1 + n by omega]
          apply ih _ (h'.1 rfl)
          intro i m hi hi'
          exact step i m (by omega) (by omega)

/-! ### Runs with their flushes -/

/-- The run of `p` from `m` returns `a` and leaves `m'`, and asks for the flushes `fs`. -/
def Runs (ok : Memory → Nat → Bool) (p : Io α) (m : Memory) (a : α) (m' : Memory)
    (fs : List (Nat × Memory)) : Prop :=
  p.run ok m = .ret a m' ∧ p.flushes ok m = fs

theorem runs_pure (a : α) (m : Memory) :
  (pure a : Io α).Runs ok m a m []
  := ⟨rfl, rfl⟩

theorem runs_bind {f : α → Io β} {b : β} {m'' : Memory} {fs fs' : List (Nat × Memory)}
    (hp : p.Runs ok m a m' fs) (hf : (f a).Runs ok m' b m'' fs') :
  (p >>= f).Runs ok m b m'' (fs ++ fs')
  := by
  constructor
  · rw [run_bind, hp.1]
    exact hf.1
  · rw [flushes_bind, hp.1, hp.2]
    exact congrArg _ hf.2

/-- The first part of a program asks for no flushes. -/
theorem runs_bind_nil {f : α → Io β} {b : β} {m'' : Memory} {fs : List (Nat × Memory)}
    (hp : p.Runs ok m a m' []) (hf : (f a).Runs ok m' b m'' fs) :
  (p >>= f).Runs ok m b m'' fs
  := runs_bind hp hf

theorem runs_get32 {x : Nat} (h : okWord ok m x = true) :
  (get32 x).Runs ok m (read32 m x) m []
  := by
  constructor
  · simp only [get32, run, h, if_true]
  · simp only [get32, flushes, h, if_true]

theorem runs_sync {x : Nat} (h : ok m x = true) :
  (sync x).Runs ok m () m [(x, m)]
  := by
  constructor
  · simp only [sync, run, h, if_true]
  · simp only [sync, flushes, h, if_true]

/-- A loop whose body leaves the memory. -/
theorem runs_forUp {body : Nat → Io Unit} {g : Nat → List (Nat × Memory)} {lo n : Nat}
    (h : ∀ i, lo ≤ i → i < lo + n → (body i).Runs ok m () m (g i)) :
  (forUp lo n body).Runs ok m () m ((List.range' lo n).flatMap g)
  := by
  induction n generalizing lo with
  | zero => exact runs_pure () m
  | succ n ih =>
      rw [List.range'_succ, List.flatMap_cons, forUp]
      apply runs_bind (h lo (by omega) (by omega))
      apply ih
      intro i hi hi'
      exact h i (by omega) (by omega)

/-! ### Programs that do not store -/

/-- A program that loads and flushes only. -/
def Quiet : Io α → Prop
  | done _ => True
  | panic _ => True
  | load8 _ k => ∀ b, Quiet (k b)
  | load32 _ k => ∀ w, Quiet (k w)
  | store8 _ _ _ => False
  | store32 _ _ _ => False
  | flush _ k => Quiet k

theorem quiet_pure (a : α) :
  (pure a : Io α).Quiet
  := trivial

theorem quiet_get32 (x : Nat) :
  (get32 x).Quiet
  := fun _ => trivial

theorem quiet_sync (x : Nat) :
  (sync x).Quiet
  := trivial

theorem quiet_panic (msg : String) :
  (panic msg : Io α).Quiet
  := trivial

theorem quiet_bind {f : α → Io β} (hp : p.Quiet) (hf : ∀ a, (f a).Quiet) :
  (p >>= f).Quiet
  := by
  change (p.bind f).Quiet
  induction p with
  | done a => exact hf a
  | panic msg => trivial
  | load8 x k ih => exact fun b => ih b (hp b)
  | load32 x k ih => exact fun w => ih w (hp w)
  | store8 x b k ih => exact hp.elim
  | store32 x w k ih => exact hp.elim
  | flush x k ih => exact ih hp

theorem quiet_ite {c : Prop} [Decidable c] {p' : Io α} (hp : p.Quiet) (hp' : p'.Quiet) :
  (if c then p else p').Quiet
  := by
  split
  · exact hp
  · exact hp'

theorem quiet_forUp {lo n : Nat} {body : Nat → Io Unit} (h : ∀ i, (body i).Quiet) :
  (forUp lo n body).Quiet
  := by
  induction n generalizing lo with
  | zero => exact quiet_pure ()
  | succ n ih =>
      rw [forUp]
      exact quiet_bind (h lo) (fun _ => ih)

/-! ### Why programs give up -/

/-- Whatever it loads, the program returns a value with `R`, or gives up with a message with
`P`. -/
def Gives (P : String → Prop) (R : α → Prop) : Io α → Prop
  | done a => R a
  | panic msg => P msg
  | load8 _ k => ∀ b, Gives P R (k b)
  | load32 _ k => ∀ w, Gives P R (k w)
  | store8 _ _ k => Gives P R k
  | store32 _ _ k => Gives P R k
  | flush _ k => Gives P R k

section Gives

variable {P : String → Prop} {R R' : α → Prop}

/-- What a program gives, by its first access. -/
theorem gives_iff (p : Io α) :
  p.Gives P R ↔ match p with
    | done a => R a
    | panic msg => P msg
    | load8 _ k => ∀ b, (k b).Gives P R
    | load32 _ k => ∀ w, (k w).Gives P R
    | store8 _ _ k => k.Gives P R
    | store32 _ _ k => k.Gives P R
    | flush _ k => k.Gives P R
  := by
  cases p with
  | done a => rfl
  | panic msg => rfl
  | load8 x k => rfl
  | load32 x k => rfl
  | store8 x b k => rfl
  | store32 x w k => rfl
  | flush x k => rfl

theorem gives_pure (h : R a) :
  (pure a : Io α).Gives P R
  := h

theorem gives_panic {msg : String} (h : P msg) :
  (panic msg : Io α).Gives P R
  := h

theorem gives_get8 (x : Nat) :
  (get8 x).Gives P (fun _ => True)
  := fun _ => trivial

theorem gives_get32 (x : Nat) :
  (get32 x).Gives P (fun _ => True)
  := fun _ => trivial

theorem gives_set8 (x : Nat) (b : Byte) :
  (set8 x b).Gives P (fun _ => True)
  := trivial

theorem gives_set32 (x : Nat) (w : Word) :
  (set32 x w).Gives P (fun _ => True)
  := trivial

theorem gives_sync (x : Nat) :
  (sync x).Gives P (fun _ => True)
  := trivial

theorem gives_bind {f : α → Io β} {R' : β → Prop} (hp : p.Gives P R)
    (hf : ∀ a, R a → (f a).Gives P R') :
  (p >>= f).Gives P R'
  := by
  change (p.bind f).Gives P R'
  induction p with
  | done a => exact hf a hp
  | panic msg => exact hp
  | load8 x k ih => exact fun b => ih b (hp b)
  | load32 x k ih => exact fun w => ih w (hp w)
  | store8 x b k ih => exact ih hp
  | store32 x w k ih => exact ih hp
  | flush x k ih => exact ih hp

theorem gives_ite {c : Prop} [Decidable c] {p' : Io α} (hp : c → p.Gives P R)
    (hp' : ¬ c → p'.Gives P R) :
  (if c then p else p').Gives P R
  := by
  split
  case isTrue h => exact hp h
  case isFalse h => exact hp' h

theorem gives_setBytes (x : Nat) (bs : List Byte) :
  (setBytes x bs).Gives P (fun _ => True)
  := by
  induction bs generalizing x with
  | nil => exact trivial
  | cons b bs ih =>
      apply gives_bind (gives_set8 x b)
      exact fun _ _ => ih (x + 1)

theorem gives_findUp {body : Nat → Io (Option β)} {lo n : Nat}
    (h : ∀ i, (body i).Gives P (fun _ => True)) :
  (findUp lo n body).Gives P (fun _ => True)
  := by
  induction n generalizing lo with
  | zero => exact trivial
  | succ n ih =>
      apply gives_bind (h lo)
      intro r _
      cases r with
      | some b => exact trivial
      | none => exact ih

/-- What a search loop finds is what its body finds. -/
theorem gives_findUp_some {body : Nat → Io (Option β)} {R : β → Prop} {lo n : Nat}
    (h : ∀ i, (body i).Gives P (fun r => ∀ b, r = some b → R b)) :
  (findUp lo n body).Gives P (fun r => ∀ b, r = some b → R b)
  := by
  induction n generalizing lo with
  | zero =>
      apply gives_pure
      intro b hb
      cases hb
  | succ n ih =>
      apply gives_bind (h lo)
      intro r hr
      cases r with
      | some b => exact hr
      | none => exact ih

theorem gives_forUp {body : Nat → Io Unit} {lo n : Nat}
    (h : ∀ i, (body i).Gives P (fun _ => True)) :
  (forUp lo n body).Gives P (fun _ => True)
  := by
  induction n generalizing lo with
  | zero => exact trivial
  | succ n ih => exact gives_bind (h lo) (fun _ _ => ih)

/-- What a program gives when less is asked of its messages and values. -/
theorem Gives.mono {P' : String → Prop} (h : p.Gives P R) (hP : ∀ msg, P msg → P' msg)
    (hR : ∀ a, R a → R' a) :
  p.Gives P' R'
  := by
  induction p with
  | done a => exact hR a h
  | panic msg => exact hP msg h
  | load8 x k ih => exact fun b => ih b (h b)
  | load32 x k ih => exact fun w => ih w (h w)
  | store8 x b k ih => exact ih h
  | store32 x w k ih => exact ih h
  | flush x k ih => exact ih h

end Gives

-- Programs are taken apart by the rules above only.
attribute [irreducible] Gives

end Io
