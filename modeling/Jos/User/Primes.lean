import Jos.Lib.Pipeline
import Jos.Lib.Sieve
import Jos.Lib.Trace

/-!
# The sieve of processes

In `user/primes.c` each environment of a chain keeps the first number that it is sent, prints it, and
forks the next environment; of the further numbers it sends on those that its own does not divide.
The environments run in any order, and a message is delivered only to one that is waiting for it.  In
every interleaving what is printed are the first primes, in order; and however the environments are
scheduled, they come to rest after a bounded number of steps, with all primes printed that are below
the next number.

A refused `sys_ipc_try_send` changes nothing, since `ipc_send` tries again, and is not a step here.
-/

namespace Jos

namespace User

namespace Primes

open Pipeline Sieve

/-- Where an environment is in `primeproc`, and the variables that are still needed there. -/
inductive Proc where
  /-- At the label `top`. -/
  | top
  /-- In the first `ipc_recv`, not runnable until a message arrives. -/
  | awaiting
  /-- The first `ipc_recv` has returned `p`. -/
  | fetched (p : Nat)
  /-- The prime `p` is printed, and `fork` comes next. -/
  | printed (p : Nat)
  /-- At the head of the loop. -/
  | ready (p id : Nat)
  /-- In the `ipc_recv` of the loop. -/
  | waiting (p id : Nat)
  /-- The `ipc_recv` of the loop has returned `i`. -/
  | got (p id i : Nat)
  /-- In `ipc_send`. -/
  | sending (p id i : Nat)
  /-- `panic` was called: the environment raises breakpoints for ever. -/
  | panicked

/-- The environment after a message is delivered to it, or `-E_IPC_NOT_RECV`. -/
def Proc.receives (v : Nat) : Proc → Option Proc
  | awaiting => some (fetched v)
  | waiting p id => some (got p id v)
  | _ => none

/-- Where `umain` is. -/
inductive Main where
  /-- `fork` comes next. -/
  | start
  /-- In the loop, with `i` to be sent to `id`. -/
  | feeding (id i : Nat)
  | panicked

/-- `umain`, the environments that run `primeproc`, and the numbers that are printed. -/
structure Net where
  main : Main
  procs : Nat → Option Proc
  out : List Nat

def Net.set (n : Net) (e : Nat) (P : Proc) : Net :=
  { n with procs := Function.update n.procs e (some P) }

def start : Net :=
  { main := .start, procs := fun _ => none, out := [] }

/-- The environment `e` takes a step in `primeproc`.  `fork` gives the child any unused environment,
and it may fail at any time, for want of an environment or of memory. -/
inductive Moves : Nat → Net → Net → Prop where
  | recvPrime {n : Net} {e : Nat} (h : n.procs e = some .top) :
      Moves e n (n.set e .awaiting)
  | print {n : Net} {e p : Nat} (h : n.procs e = some (.fetched p)) :
      Moves e n { n.set e (.printed p) with out := n.out ++ [p] }
  | fork {n : Net} {e p id : Nat} (h : n.procs e = some (.printed p)) (hid : n.procs id = none) :
      Moves e n ((n.set e (.ready p id)).set id .top)
  | forkFails {n : Net} {e p : Nat} (h : n.procs e = some (.printed p)) :
      Moves e n (n.set e .panicked)
  | recv {n : Net} {e p id : Nat} (h : n.procs e = some (.ready p id)) :
      Moves e n (n.set e (.waiting p id))
  | passes {n : Net} {e p id i : Nat} (h : n.procs e = some (.got p id i)) (hi : i % p ≠ 0) :
      Moves e n (n.set e (.sending p id i))
  | drops {n : Net} {e p id i : Nat} (h : n.procs e = some (.got p id i)) (hi : i % p = 0) :
      Moves e n (n.set e (.ready p id))
  | send {n : Net} {e p id i : Nat} {Q Q' : Proc} (h : n.procs e = some (.sending p id i))
      (hid : n.procs id = some Q) (hQ : Q.receives i = some Q') :
      Moves e n ((n.set e (.ready p id)).set id Q')
  | sendFails {n : Net} {e p id i : Nat} (h : n.procs e = some (.sending p id i))
      (hid : n.procs id = none) :
      Moves e n (n.set e .panicked)

/-- A step of `umain`, or of one of the other environments.  `umain` counts with an `int`, whose
overflow is undefined: what follows after that is not modelled. -/
inductive Step : Option Nat → Net → Net → Prop where
  | fork {n : Net} {id : Nat} (h : n.main = .start) (hid : n.procs id = none) :
      Step none n ({ n with main := .feeding id 2 }.set id .top)
  | forkFails {n : Net} (h : n.main = .start) :
      Step none n { n with main := .panicked }
  | feed {n : Net} {id i : Nat} {Q Q' : Proc} (h : n.main = .feeding id i)
      (hid : n.procs id = some Q) (hQ : Q.receives i = some Q') (hi : i + 1 < 2 ^ 31) :
      Step none n ({ n with main := .feeding id (i + 1) }.set id Q')
  | feedFails {n : Net} {id i : Nat} (h : n.main = .feeding id i) (hid : n.procs id = none) :
      Step none n { n with main := .panicked }
  | moves {n n' : Net} {e : Nat} (h : Moves e n n') :
      Step (some e) n n'

variable {n n' : Net} {D out ids : List Nat} {e i id t : Nat} {P Q Q' : Proc} {s : Story Nat Nat}
  {who who' : List (Option Nat)}

/-! ### Stories -/

/-- What an environment has done when it is at a place in `primeproc`. -/
inductive Tells : Proc → Story Nat Nat → Prop where
  | top : Tells .top ⟨[], [], [], none, 0⟩
  | awaiting : Tells .awaiting ⟨[], [], [], none, 1⟩
  | fetched (p : Nat) : Tells (.fetched p) ⟨[p], [], [], none, 2⟩
  | printed (p : Nat) : Tells (.printed p) ⟨[p], [p], [], none, 3⟩
  | panicked (p : Nat) : Tells .panicked ⟨[p], [p], [], none, 4⟩
  | ready (p id : Nat) (l : List Nat) :
      Tells (.ready p id) ⟨p :: l, [p], sift p l, some id, 4 + 4 * l.length⟩
  | waiting (p id : Nat) (l : List Nat) :
      Tells (.waiting p id) ⟨p :: l, [p], sift p l, some id, 5 + 4 * l.length⟩
  | got (p id i : Nat) (l : List Nat) :
      Tells (.got p id i) ⟨p :: (l ++ [i]), [p], sift p l, some id, 6 + 4 * l.length⟩
  | sending (p id i : Nat) (l : List Nat) (hi : i % p ≠ 0) :
      Tells (.sending p id i) ⟨p :: (l ++ [i]), [p], sift p l, some id, 7 + 4 * l.length⟩

theorem Tells.steps_le (h : Tells P s) :
  s.steps ≤ 4 * s.received.length + 1
  := by
  cases h <;> simp only [List.length_cons, List.length_append, List.length_nil] <;> omega

/-- An environment that has forked has printed the first number it was sent, and has sent on only
numbers that this one does not divide. -/
theorem Tells.linked {o l : List Nat} {c u : Nat} (h : Tells P ⟨D, o, l, some c, u⟩) :
  ∃ p m, D = p :: m ∧ o = [p] ∧ l <+: sift p m
  := by
  cases h with
  | ready p id m => exact ⟨p, m, rfl, rfl, List.prefix_refl _⟩
  | waiting p id m => exact ⟨p, m, rfl, rfl, List.prefix_refl _⟩
  | got p id i m => exact ⟨p, m ++ [i], rfl, rfl, (List.prefix_append m [i]).filter _⟩
  | sending p id i m => exact ⟨p, m ++ [i], rfl, rfl, (List.prefix_append m [i]).filter _⟩

/-- An environment that has not forked has printed at most the number it was sent. -/
theorem Tells.unlinked (h : Tells P s) (hnext : s.next = none) :
  s.printed <+: s.received ∧ s.received.length ≤ 1
  := by
  cases h with
  | top | awaiting => exact ⟨ List.nil_prefix, Nat.zero_le _⟩
  | fetched p => exact ⟨ List.nil_prefix, Nat.le_refl _⟩
  | printed p | panicked p => exact ⟨List.prefix_refl _, Nat.le_refl _⟩
  | ready | waiting | got | sending => cases hnext

/-- An environment that has not forked, cannot take a step and has not panicked is waiting for its
first number. -/
theorem Tells.rests (h : Tells P s) (hnext : s.next = none) (hproc : n.procs e = some P)
    (hrest : ∀ n', ¬ Moves e n n') (hpanic : P ≠ .panicked) :
  P = .awaiting ∧ s.received = [] ∧ s.printed = []
  := by
  cases h with
  | top => exact absurd (.recvPrime hproc) (hrest _)
  | awaiting => exact ⟨rfl, rfl, rfl⟩
  | fetched => exact absurd (.print hproc) (hrest _)
  | printed => exact absurd (.forkFails hproc) (hrest _)
  | panicked => exact absurd rfl hpanic
  | ready | waiting | got | sending => cases hnext

theorem Tells.receives {v : Nat} (h : Tells Q s) (hQ : Q.receives v = some Q') :
  ∃ u > s.steps, Tells Q' { s with received := s.received ++ [v], steps := u }
  := by
  cases h with
  | awaiting =>
      cases hQ
      exact ⟨2, by decide, .fetched v⟩
  | waiting p id l =>
      cases hQ
      exact ⟨6 + 4 * l.length, Nat.add_lt_add_right (by decide) _, .got p id v l⟩
  | top | fetched | printed | panicked | ready | got | sending => cases hQ

theorem Tells.sends {p c v : Nat} (h : Tells (.sending p c v) s) :
  s.next = some c ∧ ∃ u > s.steps, Tells (.ready p c) { s with sent := s.sent ++ [v], steps := u }
  := by
  cases h with
  | sending _ _ _ l hv =>
      refine ⟨rfl, 4 + 4 * (l ++ [v]).length, ?_, ?_⟩
      · simp only [List.length_append, List.length_singleton]
        omega
      · have hsift : sift p (l ++ [v]) = sift p l ++ [v] := by
          rw [sift_append, sift_singleton, if_neg hv]
        exact hsift ▸ Tells.ready p c (l ++ [v])

/-! ### Lines -/

/-- What a line of environments has printed, it has sieved from the numbers it was sent; and all its
environments but the last have printed a number each. -/
theorem line_sieves (h : Line Tells n.procs D e ids out t) :
  out <+: sieve D ∧ out.length ≤ ids.length ∧ ids.length ≤ out.length + 1
  := by
  induction h with
  | last _ htells =>
      obtain ⟨hout, hlen⟩ := htells.unlinked rfl
      have hle := hout.length_le
      refine ⟨?_, hle.trans hlen, Nat.le_add_left _ _⟩
      -- a list of at most one number is sieved to itself
      rename_i D _ _ _ _ _
      match D, hlen with
      | [], _ => simpa using hout
      | [p], _ => simpa [sieve_cons, sift] using hout
  | link _ htells _ _ ih =>
      obtain ⟨p, m, rfl, rfl, hsent⟩ := htells.linked
      obtain ⟨hout, hlen, hlen'⟩ := ih
      rw [sieve_cons]
      refine ⟨List.cons_prefix_cons.mpr ⟨rfl, hout.trans (sieve_mono hsent)⟩, ?_, ?_⟩
      · rw [List.singleton_append, List.length_cons, List.length_cons]
        omega
      · rw [List.singleton_append, List.length_cons, List.length_cons]
        omega

/-- A line that was sent so many numbers cannot have taken many steps. -/
theorem line_steps_le (h : Line Tells n.procs D e ids out t) :
  t ≤ (D.length + 1) * (2 * D.length + 1)
  := by
  induction h with
  | last _ htells =>
      have hle := htells.steps_le
      have hlen := (htells.unlinked rfl).2
      dsimp only at hle hlen
      rcases Nat.le_one_iff_eq_zero_or_eq_one.mp hlen with h0 | h1
      · rw [h0] at hle ⊢
        exact hle
      · rw [h1] at hle ⊢
        exact hle.trans (by decide)
  | link _ htells _ _ ih =>
      have hle := htells.steps_le
      obtain ⟨p, m, rfl, rfl, hsent⟩ := htells.linked
      have hlen := hsent.length_le.trans length_sift_le
      rw [List.length_cons] at hle ⊢
      -- what is sent on is at least one number shorter
      have hmul := Nat.mul_le_mul (Nat.succ_le_succ hlen)
        (Nat.succ_le_succ (Nat.mul_le_mul_left 2 hlen))
      have hsum : (m.length + 1 + 1) * (2 * (m.length + 1) + 1) =
          4 * (m.length + 1) + 1 + (m.length + 1) * (2 * m.length + 1) := by ring
      rw [hsum]
      exact Nat.add_le_add hle (ih.trans hmul)

/-- When no environment of a line can take a step and none has panicked, all are waiting, and the
sieve is done. -/
theorem line_rest (h : Line Tells n.procs D e ids out t) (hrest : ∀ e n', ¬ Moves e n n')
    (hpanic : ∀ e, n.procs e ≠ some .panicked) :
  out = sieve D ∧ ∃ Q, n.procs e = some Q ∧ ∀ v, ∃ Q', Q.receives v = some Q'
  := by
  induction h with
  | last hproc htells =>
      obtain ⟨hP, hD, hout⟩ := htells.rests rfl hproc (hrest _)
        (fun hP => hpanic _ (hproc.trans (congrArg some hP)))
      dsimp only at hD hout
      rw [hD, hout, sieve_nil]
      exact ⟨rfl, _, hproc, fun v => ⟨_, by rw [hP]; rfl⟩⟩
  | link hproc htells _ _ ih =>
      obtain ⟨hout, Q, hQ, hwaits⟩ := ih
      cases htells with
      | ready => exact absurd (.recv hproc) (hrest _ _)
      | waiting =>
          rw [hout, sieve_cons]
          exact ⟨rfl, _, hproc, fun v => ⟨_, rfl⟩⟩
      | got p _ i =>
          by_cases hi : i % p = 0
          · exact absurd (.drops hproc hi) (hrest _ _)
          · exact absurd (.passes hproc hi) (hrest _ _)
      | sending _ _ i =>
          obtain ⟨Q', hQ'⟩ := hwaits i
          exact absurd (.send hproc hQ hQ') (hrest _ _)

/-! ### The network -/

/-- The environments of the network stand in line from `id`, which was sent the numbers below `i`. -/
structure Explained (n : Net) (id i : Nat) (ids : List Nat) (t : Nat) : Prop where
  line : Line Tells n.procs (List.range' 2 (i - 2)) id ids n.out t
  mem : ∀ e, n.procs e ≠ none → e ∈ ids

/-- A step of one environment keeps the line. -/
theorem Explained.moves (h : Explained n id i ids t) (hmove : Moves e n n') :
  n'.main = n.main ∧ ∃ ids', ∃ t' > t, Explained n' id i ids' t'
  := by
  have hmem : ∀ {x P}, n.procs x = some P → x ∈ ids := by
    intro x P hx
    exact h.mem x (by rw [hx]; exact Option.some_ne_none _)
  -- the environments stay those they were
  have hstays : ∀ {x P Q}, n.procs x = some P →
      ∀ y, (n.set x Q).procs y ≠ none → y ∈ ids := by
    intro x P Q hx y hy
    by_cases hyx : y = x
    · rw [hyx]
      exact hmem hx
    · dsimp only [Net.set] at hy
      rw [Function.update_of_ne hyx] at hy
      exact h.mem y hy
  -- an environment goes on without printing
  have hmoves : ∀ {x P Q}, n.procs x = some P →
      (∀ s, Tells P s → ∃ u > s.steps, Tells Q { s with steps := u }) →
      ∃ ids', ∃ t' > t, Explained (n.set x Q) id i ids' t' := by
    intro x P Q hx hstep
    have hline := h.line.moves (l := []) (R := Q) (hmem hx) hx (by
      intro s hs
      rw [List.append_nil]
      exact ⟨.inl rfl, hstep s hs⟩)
    rw [List.append_nil] at hline
    obtain ⟨t', ht', hline⟩ := hline
    exact ⟨ids, t', ht', hline, hstays hx⟩
  cases hmove with
  | recvPrime hproc =>
      refine ⟨rfl, hmoves hproc ?_⟩
      rintro s ⟨⟩
      exact ⟨1, Nat.zero_lt_one, .awaiting⟩
  | @print _ _ p hproc =>
      obtain ⟨t', ht', hline⟩ := h.line.moves (l := [p]) (R := .printed p) (hmem hproc) hproc (by
        rintro s ⟨⟩
        exact ⟨.inr rfl, 3, Nat.lt_succ_self 2, .printed p⟩)
      exact ⟨rfl, ids, t', ht', hline, hstays hproc⟩
  | @fork _ _ p c hproc hid =>
      obtain ⟨t', ht', hline⟩ := h.line.starts (R := .ready p c) (hmem hproc) hproc hid (by
        rintro s ⟨⟩
        exact ⟨rfl, 4, Nat.lt_succ_self 3, .ready p c []⟩) .top
      refine ⟨rfl, ids ++ [c], t', ht', hline, ?_⟩
      intro y hy
      by_cases hyc : y = c
      · rw [hyc]
        exact List.mem_append_right _ (List.mem_singleton_self c)
      · dsimp only [Net.set] at hy
        rw [Function.update_of_ne hyc] at hy
        exact List.mem_append_left _ (hstays hproc y hy)
  | forkFails hproc =>
      refine ⟨rfl, hmoves hproc ?_⟩
      rintro s ⟨⟩
      exact ⟨4, Nat.lt_succ_self 3, .panicked _⟩
  | recv hproc =>
      refine ⟨rfl, hmoves hproc ?_⟩
      rintro s ⟨⟩
      exact ⟨_, Nat.add_lt_add_right (by decide : 4 < 5) _, .waiting _ _ _⟩
  | passes hproc hi =>
      refine ⟨rfl, hmoves hproc ?_⟩
      rintro s ⟨⟩
      exact ⟨_, Nat.add_lt_add_right (by decide : 6 < 7) _, .sending _ _ _ _ hi⟩
  | @drops _ _ p c i hproc hi =>
      refine ⟨rfl, hmoves hproc ?_⟩
      intro s hs
      cases hs with
      | got _ _ _ l =>
          refine ⟨4 + 4 * (l ++ [i]).length, ?_, ?_⟩
          · simp only [List.length_append, List.length_singleton]
            omega
          · have hsift : sift p (l ++ [i]) = sift p l := by
              rw [sift_append, sift_singleton, if_pos hi, List.append_nil]
            exact hsift ▸ Tells.ready p c (l ++ [i])
  | @send _ _ p c v Q Q' hproc hid hQ =>
      obtain ⟨t', ht', hline⟩ := h.line.sends (hmem hproc) hproc hid (fun s hs => hs.sends)
        (fun s hs => hs.receives hQ)
      refine ⟨rfl, ids, t', ht', hline, ?_⟩
      intro y hy
      by_cases hyc : y = c
      · rw [hyc]
        exact hmem hid
      · dsimp only [Net.set] at hy
        rw [Function.update_of_ne hyc] at hy
        exact hstays hproc y hy
  | sendFails hproc hid =>
      have hin := h.line.next_mem (hmem hproc) hproc (fun s hs => hs.sends.1)
      exact absurd hid (h.line.ne_none hin)

/-- What holds in every state that is reached. -/
def Net.Sound (n : Net) : Prop :=
  match n.main with
  | .feeding id i => 2 ≤ i ∧ ∃ ids t, Explained n id i ids t
  | .start | .panicked => (∀ e, n.procs e = none) ∧ n.out = []

theorem Net.Sound.explained (h : n.Sound) (hmain : n.main = .feeding id i) :
  2 ≤ i ∧ ∃ ids t, Explained n id i ids t
  := by
  unfold Net.Sound at h
  rw [hmain] at h
  exact h

theorem Net.Sound.moves (h : n.Sound) (hmove : Moves e n n') :
  n'.Sound
  := by
  cases hmain : n.main with
  | feeding id i =>
      obtain ⟨hi, ids, t, hex⟩ := h.explained hmain
      obtain ⟨hmain', ids', t', -, hex'⟩ := hex.moves hmove
      unfold Net.Sound
      rw [hmain', hmain]
      exact ⟨hi, ids', t', hex'⟩
  | start | panicked =>
      unfold Net.Sound at h
      rw [hmain] at h
      have hnone := h.1 e
      cases hmove <;> simp_all

theorem Net.Sound.step {o : Option Nat} (h : n.Sound) (hstep : Step o n n') :
  n'.Sound
  := by
  cases hstep with
  | @fork _ id hmain hid =>
      unfold Net.Sound at h
      rw [hmain] at h
      refine ⟨Nat.le_refl 2, [id], 0, ?_, ?_⟩
      · dsimp only [Net.set]
        rw [h.2]
        exact .last (Function.update_self ..) .top
      · intro e he
        by_cases hne : e = id
        · rw [hne]
          exact List.mem_singleton_self id
        · dsimp only [Net.set] at he
          rw [Function.update_of_ne hne] at he
          exact absurd (h.1 e) he
  | forkFails hmain =>
      unfold Net.Sound at h
      rw [hmain] at h
      exact h
  | @feed _ id i Q Q' hmain hid hQ hi =>
      obtain ⟨hle, ids, t, hex⟩ := h.explained hmain
      obtain ⟨t', -, hline⟩ := hex.line.receives hid (fun s hs => hs.receives hQ)
      have hrange : List.range' 2 (i - 2) ++ [i] = List.range' 2 (i + 1 - 2) := by
        rw [show i + 1 - 2 = i - 2 + 1 by omega, List.range'_concat]
        congr 2
        omega
      rw [hrange] at hline
      refine ⟨Nat.le_succ_of_le hle, ids, t', hline, ?_⟩
      intro e he
      by_cases hne : e = id
      · rw [hne]
        exact hex.line.head_mem
      · dsimp only [Net.set] at he
        rw [Function.update_of_ne hne] at he
        exact hex.mem e he
  | feedFails hmain hid =>
      obtain ⟨-, ids, t, hex⟩ := h.explained hmain
      exact absurd hid (hex.line.ne_none hex.line.head_mem)
  | moves hmove => exact h.moves hmove

theorem Net.Sound.of_run (hrun : Trace Step start who n) :
  n.Sound
  := hrun.keeps (fun _ _ _ h hstep => h.step hstep) ⟨fun _ => rfl, rfl⟩

/-- However the environments are scheduled, the numbers printed are the first primes in order, there
is one environment for each of them and at most one more, and no `ipc_send` panics. -/
theorem prints_first_primes (hrun : Trace Step start who n) :
  n.out = (List.range n.out.length).map (Nat.nth Nat.Prime) ∧
  (∃ ids : List Nat, ids.Nodup ∧ (∀ e, n.procs e ≠ none ↔ e ∈ ids) ∧
    n.out.length ≤ ids.length ∧ ids.length ≤ n.out.length + 1) ∧
  (∀ e p c v, n.procs e = some (.sending p c v) → n.procs c ≠ none)
  := by
  have hsound := Net.Sound.of_run hrun
  cases hmain : n.main with
  | feeding id i =>
      obtain ⟨-, ids, t, hex⟩ := hsound.explained hmain
      obtain ⟨hout, hlen, hlen'⟩ := line_sieves hex.line
      refine ⟨eq_nth_primes hout, ⟨ids, hex.line.nodup, ?_, hlen, hlen'⟩, ?_⟩
      · exact fun e => ⟨hex.mem e, hex.line.ne_none⟩
      · intro e p c v he
        have hin := hex.mem e (by rw [he]; exact Option.some_ne_none _)
        exact hex.line.ne_none (hex.line.next_mem hin he (fun s hs => hs.sends.1))
  | start | panicked =>
      unfold Net.Sound at hsound
      rw [hmain] at hsound
      obtain ⟨hnone, hout⟩ := hsound
      rw [hout]
      refine ⟨rfl, ⟨[], List.nodup_nil, ?_, Nat.le_refl _, Nat.zero_le _⟩, ?_⟩
      · intro e
        simp [hnone e]
      · intro e p c v he
        rw [hnone e] at he
        cases he

/-- The first environment was sent the number two. -/
def fed : Net :=
  (({ start with main := .feeding 1 3 }.set 1 .top).set 1 .awaiting).set 1 (.fetched 2)

theorem run_fed :
  Trace Step start [none, some 1, none] fed
  := .cons (.fork rfl rfl) (.cons (.moves (.recvPrime rfl))
    (.cons (.feed rfl rfl rfl (by decide)) (.nil _)))

/-- The first environment has forked the second, and both are waiting. -/
def rested : Net :=
  (({ fed.set 1 (.printed 2) with out := [2] }.set 1 (.ready 2 2)).set 2 .top |>.set 1
    (.waiting 2 2)).set 2 .awaiting

theorem moves_rested :
  Trace Moves fed [1, 1, 1, 2] rested
  := .cons (.print rfl) (.cons (.fork rfl rfl) (.cons (.recv rfl) (.cons (.recvPrime rfl) (.nil _))))

/-- The first environment prints the number two. -/
theorem prints_first_primes_rested :
  rested.out = [2] ∧ rested.out = (List.range rested.out.length).map (Nat.nth Nat.Prime)
    ∧ ∃ ids : List Nat, (∀ e, rested.procs e ≠ none ↔ e ∈ ids) ∧ ids.length ≤ 2
  := by
  have hrun : Trace Step start [none, some 1, none, some 1, some 1, some 1, some 2] rested :=
    .cons (.fork rfl rfl) (.cons (.moves (.recvPrime rfl)) (.cons (.feed rfl rfl rfl (by decide))
      (.cons (.moves (.print rfl)) (.cons (.moves (.fork rfl rfl)) (.cons (.moves (.recv rfl))
        (.cons (.moves (.recvPrime rfl)) (.nil _)))))))
  obtain ⟨hout, ⟨ids, -, hids, -, hlen⟩, -⟩ := prints_first_primes hrun
  exact ⟨rfl, hout, ids, hids, hlen⟩

/-- However the environments are scheduled while `umain` waits, they take a bounded number of steps;
and when none can take a step, then unless a `fork` has failed all primes are printed that are below
the next number, and this one can be sent. -/
theorem prints_all_primes {es : List Nat} (hrun : Trace Step start who n)
    (hmain : n.main = .feeding id i) (hmoves : Trace Moves n es n') :
  es.length ≤ (i - 1) * (2 * i - 3) ∧
  ((∀ e n'', ¬ Moves e n' n'') → (∀ e, n'.procs e ≠ some .panicked) →
    n'.out = (List.range i).filter Nat.Prime ∧
    ∃ Q, n'.procs id = some Q ∧ ∀ v, ∃ Q', Q.receives v = some Q')
  := by
  obtain ⟨hi, ids, t, hex⟩ := (Net.Sound.of_run hrun).explained hmain
  have hlast : ∃ ids', ∃ t' ≥ es.length + t, Explained n' id i ids' t' := by
    clear hrun hmain
    induction hmoves generalizing ids t with
    | nil => exact ⟨ids, t, by simp, hex⟩
    | cons hmove _ ih =>
        obtain ⟨-, ids', t', ht', hex'⟩ := hex.moves hmove
        obtain ⟨ids'', t'', ht'', hex''⟩ := ih ids' t' hex'
        refine ⟨ids'', t'', ?_, hex''⟩
        rw [List.length_cons]
        omega
  obtain ⟨ids', t', ht', hex'⟩ := hlast
  constructor
  · have hle := line_steps_le hex'.line
    rw [List.length_range', show i - 2 + 1 = i - 1 by omega,
      show 2 * (i - 2) + 1 = 2 * i - 3 by omega] at hle
    omega
  · intro hrest hpanic
    obtain ⟨hout, hwaits⟩ := line_rest hex'.line hrest hpanic
    rw [sieve_range, Nat.sub_add_cancel hi] at hout
    exact ⟨hout, hwaits⟩

theorem rested_procs {P : Proc} (h : rested.procs e = some P) :
  P = .waiting 2 2 ∨ P = .awaiting
  := by
  simp only [rested, fed, start, Net.set, Function.update_apply] at h
  split_ifs at h
  case pos => exact .inr (Option.some.inj h).symm
  case pos => exact .inl (Option.some.inj h).symm

theorem rested_rests :
  ¬ Moves e rested n
  := by
  intro hmove
  cases hmove with
  | recvPrime h | print h | fork h | forkFails h | recv h | passes h | drops h | send h
  | sendFails h => rcases rested_procs h with h | h <;> cases h

theorem prints_all_primes_rested :
  ∃ who es, Trace Step start who fed ∧ Trace Moves fed es rested ∧ es.length ≤ 6 ∧
    rested.out = (List.range 3).filter Nat.Prime
  := by
  obtain ⟨hlen, hout⟩ := prints_all_primes run_fed rfl moves_rested
  refine ⟨_, _, run_fed, moves_rested, hlen, (hout (fun _ _ => rested_rests) ?_).1⟩
  intro e he
  rcases rested_procs he with h | h <;> cases h

end Primes

end User

end Jos
