import Jos.Kern.Syscall
import Jos.Lib.RingBuffer

/-!
# The console input buffer

`cons_intr` stores what a device has received in a circular buffer, and `cons_getc` polls the devices
and takes the next character out of it.  There is no test whether the buffer is full.

A driver returns a number, of which one byte is stored.  So the states between two calls are not all
there is: what is pending may grow too long in the middle of `cons_intr`.  A *moment* is the state
after one of the smaller steps, of which the calls are made.
-/

namespace Jos

namespace Console

open Bytes RingBuffer

/-! ### The source -/

/-- One turn of the loop of `cons_intr`, where `proc` has returned `c`. -/
def store (cons : Cons) (c : Nat) : Cons :=
  if c = 0 then
    cons
  else
    { cons with
      buf := Function.update cons.buf cons.wpos (BitVec.ofNat 8 c)
      wpos := if cons.wpos + 1 = CONSBUFSIZE then 0 else cons.wpos + 1 }

/-- `cons_intr`, where `proc` returns the results one after the other, and then `-1`. -/
def consIntr (results : List Nat) (cons : Cons) : Cons :=
  results.foldl store cons

/-- Grab the next character from the input buffer. -/
def grab (cons : Cons) : Nat × Cons :=
  if cons.rpos ≠ cons.wpos then
    ((cons.buf cons.rpos).toNat,
      { cons with rpos := if cons.rpos + 1 = CONSBUFSIZE then 0 else cons.rpos + 1 })
  else
    (0, cons)

/-- `cons_getc`, where the serial port and the keyboard return the given results. If there is no
serial port there are none of it. -/
def consGetc (serial keyboard : List Nat) (cons : Cons) : Nat × Cons :=
  grab (consIntr keyboard (consIntr serial cons))

/-- A call of one of the two functions. -/
inductive Event where
  | intr (results : List Nat)
  | getc (serial keyboard : List Nat)

/-- Make the calls, and collect what `cons_getc` returns. -/
def exec : List Event → Cons → List Nat × Cons
  | [], cons => ([], cons)
  | .intr results :: events, cons => exec events (consIntr results cons)
  | .getc serial keyboard :: events, cons =>
      let (c, cons) := consGetc serial keyboard cons
      let (cs, cons) := exec events cons
      (c :: cs, cons)

/-! ### Moments -/

/-- One of the steps that the calls are made of. -/
inductive Micro where
  /-- A driver returns a result, and it is stored. -/
  | result (c : Nat)
  /-- `cons_getc` takes a character. -/
  | grab

/-- The steps of a call. -/
def Event.micros : Event → List Micro
  | .intr results => results.map .result
  | .getc serial keyboard => serial.map .result ++ keyboard.map .result ++ [.grab]

/-- The buffer, with the bytes that have arrived, the bytes that were taken out of the buffer, and
what `cons_getc` has returned. -/
structure Moment where
  cons : Cons := {}
  arrivals : List Byte := []
  taken : List Byte := []
  returned : List Nat := []

/-- What a step changes. -/
def Moment.step (m : Moment) : Micro → Moment
  | .result c =>
      { m with
        cons := store m.cons c
        arrivals := if c = 0 then m.arrivals else m.arrivals ++ [BitVec.ofNat 8 c] }
  | .grab =>
      { m with
        cons := (grab m.cons).2
        taken :=
          if m.cons.rpos ≠ m.cons.wpos then m.taken ++ [m.cons.buf m.cons.rpos] else m.taken
        returned := m.returned ++ [(grab m.cons).1] }

/-- The moment after the given steps. -/
def Moment.after (m : Moment) (ms : List Micro) : Moment :=
  ms.foldl Moment.step m

/-- The moments of a sequence of calls, from the first one on. -/
def moments (events : List Event) : Set Moment :=
  { m | ∃ ms, ms <+: events.flatMap Event.micros ∧ m = Moment.after {} ms }

/-- The buffer as a circular buffer of bytes. -/
def ring (cons : Cons) : RingBuffer Byte where
  buf := cons.buf
  rpos := cons.rpos
  wpos := cons.wpos

/-- The bytes that are waiting in the buffer, from the place to read at up to the place to write at. -/
def pending (cons : Cons) : List Byte :=
  (ring cons).pending CONSBUFSIZE

/-! ### The buffer as a circular buffer -/

variable {cons : Cons} {c : Nat} {m : Moment} {ms : List Micro} {events : List Event}

theorem ring_store (hc : c ≠ 0) :
  ring (store cons c) = (ring cons).put CONSBUFSIZE (BitVec.ofNat 8 c)
  := by
  rw [store, if_neg hc]
  rfl

theorem ring_grab :
  ring (grab cons).2 = ((ring cons).get CONSBUFSIZE).2
  := by
  by_cases h : cons.rpos = cons.wpos
  · rw [grab, if_neg (not_not.mpr h), RingBuffer.get, if_pos (show (ring cons).rpos = (ring cons).wpos from h)]
  · rw [grab, if_pos h, RingBuffer.get, if_neg (show ¬ (ring cons).rpos = (ring cons).wpos from h)]
    rfl

/-- The moves of the circular buffer in a step. -/
def Micro.moves : Micro → List (Move Byte)
  | .result c => if c = 0 then [] else [.put (BitVec.ofNat 8 c)]
  | .grab => [.get]

theorem Micro.moves_length (μ : Micro) :
  μ.moves.length ≤ 1
  := by
  cases μ with
  | result c =>
      rw [Micro.moves]
      split
      case isTrue => apply Nat.zero_le
      case isFalse => apply Nat.le_refl
  | grab => apply Nat.le_refl

/-- The circular buffer of a moment, with what it was given and what was taken from it. -/
def Moment.history (m : Moment) : History Byte where
  buffer := ring m.cons
  arrived := m.arrivals
  taken := m.taken

theorem history_step (μ : Micro) :
  (m.step μ).history = m.history.run CONSBUFSIZE μ.moves
  := by
  cases μ with
  | result c =>
      by_cases hc : c = 0
      · simp [Moment.step, Moment.history, Micro.moves, History.run, store, hc]
      · simp [Moment.step, Moment.history, Micro.moves, History.run, History.step, ring_store, hc]
  | grab =>
      have htaken : (if m.cons.rpos ≠ m.cons.wpos then m.taken ++ [m.cons.buf m.cons.rpos] else m.taken)
          = m.taken ++ ((ring m.cons).get CONSBUFSIZE).1.toList := by
        by_cases h : m.cons.rpos = m.cons.wpos
        · simp [RingBuffer.get, ring, h]
        · simp [RingBuffer.get, ring, h]
      rw [Moment.step, Moment.history, ring_grab, htaken]
      rfl

theorem history_after (ms : List Micro) :
  (m.after ms).history = m.history.run CONSBUFSIZE (ms.flatMap Micro.moves)
  := by
  induction ms generalizing m with
  | nil => rfl
  | cons μ ms ih =>
      rw [List.flatMap_cons, History.run_append, ← history_step, ← ih]
      rfl

/-- What was taken is what was returned, but for zeros. -/
theorem returned_step (h : m.returned.filter (· ≠ 0) = (m.taken.map BitVec.toNat).filter (· ≠ 0))
    (μ : Micro) :
  (m.step μ).returned.filter (· ≠ 0) = ((m.step μ).taken.map BitVec.toNat).filter (· ≠ 0)
  := by
  cases μ with
  | result c => apply h
  | grab =>
      simp only [Moment.step, List.filter_append, h]
      by_cases hempty : m.cons.rpos = m.cons.wpos
      · simp [grab, hempty]
      · simp [grab, hempty]

theorem returned_after (h : m.returned.filter (· ≠ 0) = (m.taken.map BitVec.toNat).filter (· ≠ 0))
    (ms : List Micro) :
  (m.after ms).returned.filter (· ≠ 0) = ((m.after ms).taken.map BitVec.toNat).filter (· ≠ 0)
  := by
  induction ms generalizing m with
  | nil => apply h
  | cons μ ms ih => apply ih (returned_step h μ)

/-- Where each element gives one move at most, some of the moves are the moves of some of the
elements. -/
theorem prefix_moves {moves : List (Move Byte)} (h : moves <+: ms.flatMap Micro.moves) :
  ∃ ms', ms' <+: ms ∧ moves = ms'.flatMap Micro.moves
  := by
  induction ms generalizing moves with
  | nil =>
      use [], List.nil_prefix
      apply List.prefix_nil.mp h
  | cons μ ms ih =>
      rcases moves with _ | ⟨move, moves⟩
      · exact ⟨[], List.nil_prefix, rfl⟩
      rw [List.flatMap_cons] at h
      rcases hμ : μ.moves with _ | ⟨first, none'⟩
      · rw [hμ, List.nil_append] at h
        rcases ih h with ⟨ms', hms', heq⟩
        refine ⟨μ :: ms', List.cons_prefix_cons.mpr ⟨rfl, hms'⟩, ?_⟩
        rw [List.flatMap_cons, hμ, List.nil_append, heq]
      · have hlen := μ.moves_length
        rw [hμ, List.length_cons] at hlen
        have hnone : none' = [] := by
          apply List.eq_nil_of_length_eq_zero
          apply Nat.le_zero.mp (Nat.le_of_succ_le_succ hlen)
        subst hnone
        rw [hμ, List.singleton_append, List.cons_prefix_cons] at h
        rcases ih h.2 with ⟨ms', hms', heq⟩
        refine ⟨μ :: ms', List.cons_prefix_cons.mpr ⟨rfl, hms'⟩, ?_⟩
        rw [List.flatMap_cons, hμ, List.singleton_append, heq, h.1]

/-! ### What holds at every moment -/

theorem served_start :
  (Moment.history {}).Served CONSBUFSIZE 0
  := by
  constructor
  case follows => apply Follows.start (by decide) rfl rfl
  case taken => apply List.Sublist.refl

/-- No more bytes arrive than there are steps. -/
theorem arrivals_length_le (ms : List Micro) :
  (m.after ms).arrivals.length ≤ m.arrivals.length + ms.length
  := by
  induction ms generalizing m with
  | nil => apply Nat.le_refl
  | cons μ ms ih =>
      have hstep : (m.step μ).arrivals.length ≤ m.arrivals.length + 1 := by
        cases μ with
        | result c =>
            rw [Moment.step]
            split
            case isTrue => apply Nat.le_succ
            case isFalse => rw [List.length_append, List.length_singleton]
        | grab => apply Nat.le_succ
      have hrest := ih (m := m.step μ)
      rw [List.length_cons]
      apply Nat.le_trans hrest
      omega

/-- Two keys are pressed, and one of them is read while the serial port delivers a third character. -/
def twoKeys : List Event := [.intr [0x61, 0, 0x62], .getc [0x63] []]

end Console

end Jos
