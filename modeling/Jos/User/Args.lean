import Mathlib.Data.List.Basic
import Mathlib.Data.List.Forall2
import Jos.Lib.Str
import Jos.Lib.Prog

/-!
# The options of a command

`lib/args.c` goes through the arguments of a program.  `argnext` gives out the options one
character at a time, `argnextvalue` gives out what is left of the word that the last option came
from, or else the next word, and both take what they give out from the array `argv`.

The word that is gone through has left the array, only the pointer `curarg` into it is kept.
Therefore the state between two calls is described by the array and by the characters from
`curarg` on.
-/

namespace Jos

namespace User

namespace Args

open Bytes Prog

/-! ### The source -/

/-- The character `'-'`. -/
def DASH : Byte := 0x2D

/-- The literal `""`. -/
def EMPTY : StrPtr := Str.start ⟨[], List.not_mem_nil⟩

/-- The state of the options, with the count and the array that it points to. -/
structure Argstate where
  argc : Nat
  argv : List (Option StrPtr)
  curarg : Option StrPtr
  argvalue : Option StrPtr

/-- Read `p[i]`. What lies behind the null character is not read. -/
def char (p : StrPtr) (i : Nat) : Prog Argstate Byte :=
  orElse (p.char? i) (fault (p.pos + i))

/-- Read `args->argv[i]`. -/
def argAt (i : Nat) : Prog Argstate (Option StrPtr) := do
  let args ← get
  orElse args.argv[i]? (fault (4 * i))

/-- Write `args->argv[i]`. -/
def setArg (i : Nat) (p : Option StrPtr) : Prog Argstate Unit := do
  let args ← get
  if i < args.argv.length then
    set { args with argv := args.argv.set i p }
  else
    fault (4 * i)

/-- The string that an element of the array points to. -/
def wordAt (i : Nat) : Prog Argstate StrPtr := do
  orElse (← argAt i) (fault 0)

/-- Copy one element of the array. -/
def moveArg (dst src : Nat) : Prog Argstate Unit := do
  setArg dst (← argAt src)

/-- Copy `n` elements of the array within it. -/
def memmove (dst src n : Nat) : Prog Argstate Unit :=
  if src < dst ∧ dst < src + n then
    forUp 0 n (fun i => moveArg (dst + (n - 1 - i)) (src + (n - 1 - i)))
  else
    forUp 0 n (fun i => moveArg (dst + i) (src + i))

/-- Shift arguments down one. -/
def shiftArgs : Prog Argstate Unit := do
  memmove 1 2 ((← get).argc - 1)
  modify (fun args => { args with argc := args.argc - 1 })

def argstart (argc : Nat) (argv : Option (List (Option StrPtr))) : Argstate where
  argc := argc
  argv := argv.getD []
  curarg := if argc > 1 ∧ argv.isSome then some EMPTY else none
  argvalue := none

/-- Whether the next argument is none, or is no option. -/
def atEndOfOptions : Prog Argstate Bool := do
  if (← get).argc = 1 then
    pure true
  else
    let arg ← wordAt 1
    if (← char arg 0) ≠ DASH then
      pure true
    else
      pure ((← char arg 1) = 0)

/-- The label `endofargs` of `argnext`. -/
def endofargs : Prog Argstate Int := do
  modify (fun args => { args with curarg := none })
  pure (-1)

/-- The last lines of `argnext`. -/
def takeFlag (curarg : StrPtr) : Prog Argstate Int := do
  let arg ← char curarg 0
  modify (fun args => { args with curarg := some (curarg.add 1) })
  pure arg.toNat

/-- Check for `--`. -/
def isDashDash (curarg : StrPtr) : Prog Argstate Bool := do
  if (← char curarg 0) = DASH then
    pure ((← char curarg 1) = 0)
  else
    pure false

def argnext : Prog Argstate Int := do
  modify (fun args => { args with argvalue := none })
  match (← get).curarg with
  | none => pure (-1)
  | some curarg =>
      if (← char curarg 0) ≠ 0 then
        takeFlag curarg
      else if ← atEndOfOptions then
        endofargs
      else
        let arg ← wordAt 1
        let curarg := arg.add 1
        modify (fun args => { args with curarg := some curarg })
        shiftArgs
        if ← isDashDash curarg then
          endofargs
        else
          takeFlag curarg

def argnextvalue : Prog Argstate (Option StrPtr) := do
  match (← get).curarg with
  | none => pure none
  | some curarg =>
      if (← char curarg 0) ≠ 0 then
        modify (fun args => { args with argvalue := some curarg, curarg := some EMPTY })
      else if (← get).argc > 1 then
        let arg ← argAt 1
        modify (fun args => { args with argvalue := arg })
        shiftArgs
      else
        modify (fun args => { args with argvalue := none, curarg := none })
      pure (← get).argvalue

def argvalue : Prog Argstate (Option StrPtr) := do
  match (← get).argvalue with
  | some value => pure (some value)
  | none => argnextvalue

/-- The loop of `umain` over the options: `fuel` calls of `argnext` at most, until one returns `-1`. -/
def argnexts : Nat → Prog Argstate (Option (List Int))
  | 0 => pure none
  | fuel + 1 => do
      let r ← argnext
      if r < 0 then
        pure (some [])
      else
        let rs ← argnexts fuel
        pure (rs.map (r :: ·))

/-- A call that a program makes between `argstart` and the use of its other arguments. -/
inductive OptionCall where
  | argnext
  | argvalue
  | argnextvalue

/-- What a call has newly given out. -/
inductive Given where
  | nothing
  | flag (c : Int)
  | value (p : StrPtr)

/-- The value that a call returns, if it returns one. -/
def Given.ofValue : Option StrPtr → Given
  | none => .nothing
  | some p => .value p

/-- Make a call. When `argvalue` returns the value that it has returned before, it gives out
nothing. -/
def OptionCall.run : OptionCall → Prog Argstate Given
  | .argnext => do
      let r ← Args.argnext
      pure (if r < 0 then .nothing else .flag r)
  | .argvalue => do
      let before := (← get).argvalue
      let value ← Args.argvalue
      pure (if before.isSome then .nothing else .ofValue value)
  | .argnextvalue => do
      let value ← Args.argnextvalue
      pure (.ofValue value)

/-- Make calls one after the other. -/
def runCalls : List OptionCall → Prog Argstate (List Given)
  | [] => pure []
  | call :: calls => do
      let given ← call.run
      let rest ← runCalls calls
      pure (given :: rest)

/-! ### What the words say -/

/-- The characters of the options at the front of the words. -/
def flags : List Str → List Byte
  | [] => []
  | w :: ws =>
      match w.chars with
      | c :: d :: cs =>
          if c ≠ DASH then []
          else if d = DASH ∧ cs = [] then []
          else d :: cs ++ flags ws
      | _ => []

/-- The words behind the options. -/
def arguments : List Str → List Str
  | [] => []
  | w :: ws =>
      match w.chars with
      | c :: d :: cs =>
          if c ≠ DASH then w :: ws
          else if d = DASH ∧ cs = [] then ws
          else arguments ws
      | _ => w :: ws

/-- The array of the program `prog` with the arguments `ws`, and elements behind it. -/
def arrayOf (prog : Str) (ws : List Str) (behind : List (Option StrPtr)) : List (Option StrPtr) :=
  some prog.start :: (ws.map (fun w => some w.start) ++ none :: behind)

/-- The words, with a mark in front of each of them. -/
def spelled (ws : List Str) : List (Option Byte) :=
  ws.flatMap (fun w => none :: w.chars.map some)

/-- What is left to be given out: the characters from `curarg` on, and then the words. -/
def left (cur : Option StrPtr) (ws : List Str) : List (Option Byte) :=
  (cur.elim [] (fun p => p.str.chars.drop p.pos)).map some ++ spelled ws

/-- A call takes a piece of what is left: an option its character, and the dash in front of it where
it is the first one of a word; a value the rest of a word or a whole word. -/
def Given.Takes : Given → List (Option Byte) → Prop
  | .nothing, piece => piece = [] ∨ piece = [none, some DASH, some DASH]
  | .flag r, piece => ∃ c : Byte, r = c.toNat ∧ (piece = [some c] ∨ piece = [none, some DASH, some c])
  | .value p, piece =>
      piece = (p.str.chars.drop p.pos).map some ∨ (p.pos = 0 ∧ piece = none :: p.str.chars.map some)

/-! ### Reading and moving -/

variable {args : Argstate} {prog w : Str} {ws : List Str} {behind : List (Option StrPtr)}
  {cur val : Option StrPtr} {p : StrPtr} {c : Byte} {cs : List Byte}

/-- The pointer `p` points into its string, with the characters `cs` from there on. -/
def PointsAt (p : StrPtr) (cs : List Byte) : Prop :=
  ∃ before, p.PointsAt before cs

theorem pointsAt_start (w : Str) :
  PointsAt w.start w.chars
  := ⟨[], w.pointsAt_start⟩

theorem pointsAt_empty :
  PointsAt EMPTY []
  := pointsAt_start _

namespace PointsAt

theorem drop (h : PointsAt p cs) :
  p.str.chars.drop p.pos = cs
  := by
  rcases h with ⟨before, hp⟩
  apply hp.drop

theorem next (h : PointsAt p (c :: cs)) :
  PointsAt (p.add 1) cs
  := by
  rcases h with ⟨before, hp⟩
  exact ⟨_, hp.next⟩

theorem head_ne_zero (h : PointsAt p (c :: cs)) :
  c ≠ 0
  := by
  rcases h with ⟨before, hp⟩
  apply hp.head_ne_zero

theorem char_eq (h : PointsAt p cs) {i : Nat} (hi : (cs ++ [0])[i]? = some c) :
  char p i args = .ok (c, args)
  := by
  rcases h with ⟨before, hp⟩
  rw [char, hp.char?_eq hi]
  rfl

theorem char_zero (h : PointsAt p (c :: cs)) :
  char p 0 args = .ok (c, args)
  := h.char_eq rfl

theorem char_end (h : PointsAt p []) :
  char p 0 args = .ok (0, args)
  := h.char_eq rfl

end PointsAt

/-- The state in which the words `ws` are still in the array. -/
def holding (prog : Str) (ws : List Str) (behind : List (Option StrPtr)) (cur val : Option StrPtr) :
    Argstate where
  argc := ws.length + 1
  argv := arrayOf prog ws behind
  curarg := cur
  argvalue := val

@[simp]
theorem holding_argc :
  (holding prog ws behind cur val).argc = ws.length + 1
  := rfl

theorem argAt_eq {i : Nat} {a : Option StrPtr} (h : args.argv[i]? = some a) :
  argAt i args = .ok (a, args)
  := by
  rw [argAt, get_bind, h]
  rfl

theorem moveArg_eq {dst src : Nat} {a : Option StrPtr} (h : args.argv[src]? = some a)
    (hdst : dst < args.argv.length) :
  moveArg dst src args = .ok ((), { args with argv := args.argv.set dst a })
  := by
  rw [moveArg, bind_of_eq (argAt_eq h), setArg, get_bind, if_pos hdst]
  rfl

/-- A step of the copy moves the next element down, and the one behind it comes next. -/
theorem moves_eq {before : List (Option StrPtr)} {a : Option StrPtr} {as : List (Option StrPtr)}
    {after : List (Option StrPtr)} {i : Nat} (h : args.argv = before ++ a :: (as ++ after))
    (hi : before.length = 1 + i) :
  ∃ last, forUp i as.length (fun i => moveArg (1 + i) (2 + i)) args
    = .ok ((), { args with argv := before ++ (as ++ last :: after) })
  := by
  induction as generalizing args before a i with
  | nil =>
      use a
      rw [List.nil_append] at h
      simp only [List.nil_append, ← h]
      rfl
  | cons b bs ih =>
      have hsrc : args.argv[2 + i]? = some b := by
        rw [h, List.getElem?_append_right (by omega), show 2 + i - before.length = 1 by omega]
        rfl
      have hdst : 1 + i < args.argv.length := by
        rw [h, List.length_append, List.length_cons]
        omega
      have hset : ({ args with argv := args.argv.set (1 + i) b } : Argstate).argv
          = (before ++ [b]) ++ b :: (bs ++ after) := by
        simp [h, ← hi]
      have hlen : (before ++ [b]).length = 1 + (i + 1) := by
        rw [List.length_append, List.length_singleton, hi, Nat.add_assoc]
      rcases ih hset hlen with ⟨last, hrest⟩
      use last
      rw [List.length_cons, forUp, bind_of_eq (moveArg_eq hsrc hdst), hrest, List.append_assoc]
      rfl

/-- The words move down by one, and so does the null pointer behind them. -/
theorem shiftArgs_eq (cur val : Option StrPtr) :
  ∃ behind', shiftArgs (holding prog (w :: ws) behind cur val)
    = .ok ((), holding prog ws behind' cur val)
  := by
  have hargv : (holding prog (w :: ws) behind cur val).argv = [some prog.start]
      ++ some w.start :: ((ws.map (fun w : Str => some w.start) ++ [none]) ++ behind) := by
    simp [holding, arrayOf]
  have hlen : (holding prog (w :: ws) behind cur val).argc - 1
      = (ws.map (fun w : Str => some w.start) ++ [none]).length := by
    simp [holding]
  rcases moves_eq (i := 0) hargv rfl with ⟨last, hmove⟩
  use last :: behind
  rw [shiftArgs, get_bind, hlen, memmove, if_neg (by omega), bind_of_eq hmove]
  change Except.ok ((), _) = _
  simp [holding, arrayOf]

theorem wordAt_eq :
  wordAt 1 (holding prog (w :: ws) behind cur val)
    = .ok (w.start, holding prog (w :: ws) behind cur val)
  := by
  rw [wordAt, bind_of_eq (argAt_eq rfl)]
  rfl

/-! ### The calls -/

/-- The words begin with an option, or with `--`. -/
def beginsWithOption : List Str → Bool
  | [] => false
  | w :: _ =>
      match w.chars with
      | c :: _ :: _ => c = DASH
      | _ => false

theorem beginsWithOption_iff :
  beginsWithOption ws = true ↔ ∃ w ws' d cs, ws = w :: ws' ∧ w.chars = DASH :: d :: cs
  := by
  rcases ws with _ | ⟨⟨_ | ⟨c, _ | ⟨d, cs⟩⟩, hw⟩, ws⟩
  · simp [beginsWithOption]
  · simp [beginsWithOption]
  · simp [beginsWithOption]
  · constructor
    · intro hc
      have hdash : c = DASH := by simpa [beginsWithOption] using hc
      subst hdash
      use ⟨DASH :: d :: cs, hw⟩, ws, d, cs
    · rintro ⟨w, ws', d', cs', heq, hchars⟩
      cases heq
      cases hchars
      simp [beginsWithOption]

theorem atEndOfOptions_eq :
  atEndOfOptions (holding prog ws behind cur val)
    = .ok (!beginsWithOption ws, holding prog ws behind cur val)
  := by
  rcases ws with _ | ⟨w, ws⟩
  · rfl
  · rw [atEndOfOptions, get_bind, if_neg (by simp), bind_of_eq wordAt_eq]
    have hstart := pointsAt_start w
    rcases w with ⟨_ | ⟨c, _ | ⟨d, cs⟩⟩, hw⟩
    · rw [bind_of_eq hstart.char_end]
      rfl
    · rw [bind_of_eq hstart.char_zero]
      by_cases hc : c = DASH
      · rw [if_neg (not_not.mpr hc), bind_of_eq (hstart.char_eq rfl)]
        rfl
      · rw [if_pos hc]
        rfl
    · rw [bind_of_eq hstart.char_zero]
      by_cases hc : c = DASH
      · rw [if_neg (not_not.mpr hc), bind_of_eq (hstart.char_eq rfl)]
        have hd : d ≠ 0 := by
          rintro rfl
          simp at hw
        rw [decide_eq_false hd]
        simp [beginsWithOption, hc, pure_run]
      · rw [if_pos hc]
        simp [beginsWithOption, hc, pure_run]

theorem takeFlag_eq (h : PointsAt p (c :: cs)) :
  takeFlag p (holding prog ws behind cur val)
    = .ok ((c.toNat : Int), holding prog ws behind (some (p.add 1)) val)
  := by
  rw [takeFlag, bind_of_eq h.char_zero]
  rfl

theorem isDashDash_eq (h : PointsAt p (c :: cs)) :
  isDashDash p args = .ok (decide (c = DASH ∧ cs = []), args)
  := by
  rw [isDashDash, bind_of_eq h.char_zero]
  by_cases hc : c = DASH
  · rw [if_pos hc]
    rcases cs with _ | ⟨d, cs⟩
    · rw [bind_of_eq (h.char_eq rfl)]
      simp [hc, pure_run]
    · rw [bind_of_eq (h.char_eq rfl), decide_eq_false h.next.head_ne_zero, decide_eq_false (by simp)]
      rfl
  · rw [if_neg hc]
    simp [hc, pure_run]

/-- When the options are done, `argnext` finds no other one. -/
theorem argnext_done :
  argnext (holding prog ws behind none val) = .ok (-1, holding prog ws behind none none)
  := rfl

/-- Inside a word `argnext` gives out the next character. -/
theorem argnext_inside (h : PointsAt p (c :: cs)) :
  argnext (holding prog ws behind (some p) val)
    = .ok ((c.toNat : Int), holding prog ws behind (some (p.add 1)) none)
  := by
  rw [argnext, modify_bind, get_bind]
  change (char p 0 >>= _) (holding prog ws behind (some p) none) = _
  rw [bind_of_eq h.char_zero, if_pos h.head_ne_zero, takeFlag_eq h]

/-- At the end of a word `argnext` stops in front of a word that is no option. -/
theorem argnext_end (h : PointsAt p []) (hopt : beginsWithOption ws = false) :
  argnext (holding prog ws behind (some p) val) = .ok (-1, holding prog ws behind none none)
  := by
  rw [argnext, modify_bind, get_bind]
  change (char p 0 >>= _) (holding prog ws behind (some p) none) = _
  rw [bind_of_eq h.char_end, if_neg (not_not.mpr rfl), bind_of_eq atEndOfOptions_eq, hopt]
  rfl

/-- At the end of a word `argnext` takes the next word from the array, and gives out its first
character behind the dash. -/
theorem argnext_word {d : Byte} (h : PointsAt p []) (hw : w.chars = DASH :: d :: cs) :
  ∃ behind', argnext (holding prog (w :: ws) behind (some p) val)
    = if d = DASH ∧ cs = [] then .ok (-1, holding prog ws behind' none none)
      else .ok ((d.toNat : Int), holding prog ws behind' (some (w.start.add 2)) none)
  := by
  have hopt : beginsWithOption (w :: ws) = true := by
    simp [beginsWithOption, hw]
  have hdash : PointsAt (w.start.add 1) (d :: cs) := by
    have hstart := pointsAt_start w
    rw [hw] at hstart
    apply hstart.next
  rcases shiftArgs_eq (some (w.start.add 1)) none with ⟨behind', hshift⟩
  use behind'
  rw [argnext, modify_bind, get_bind]
  change (char p 0 >>= _) (holding prog (w :: ws) behind (some p) none) = _
  rw [bind_of_eq h.char_end, if_neg (not_not.mpr rfl), bind_of_eq atEndOfOptions_eq, hopt]
  change (wordAt 1 >>= _) (holding prog (w :: ws) behind (some p) none) = _
  rw [bind_of_eq wordAt_eq, modify_bind]
  change (shiftArgs >>= _) (holding prog (w :: ws) behind (some (w.start.add 1)) none) = _
  rw [bind_of_eq hshift, bind_of_eq (isDashDash_eq hdash)]
  by_cases hstop : d = DASH ∧ cs = []
  · rw [if_pos (decide_eq_true hstop), if_pos hstop]
    rfl
  · rw [if_neg (by simpa using hstop), if_neg hstop, takeFlag_eq hdash]
    rfl

/-- When the options are done there is no value. -/
theorem argnextvalue_done :
  argnextvalue (holding prog ws behind none val) = .ok (none, holding prog ws behind none val)
  := rfl

/-- Inside a word `argnextvalue` gives out the rest of it. -/
theorem argnextvalue_inside (h : PointsAt p (c :: cs)) :
  argnextvalue (holding prog ws behind (some p) val)
    = .ok (some p, holding prog ws behind (some EMPTY) (some p))
  := by
  rw [argnextvalue, get_bind]
  change (char p 0 >>= _) (holding prog ws behind (some p) val) = _
  rw [bind_of_eq h.char_zero, if_pos h.head_ne_zero]
  rfl

/-- At the end of a word `argnextvalue` gives out the next word. -/
theorem argnextvalue_word (h : PointsAt p []) :
  ∃ behind', argnextvalue (holding prog (w :: ws) behind (some p) val)
    = .ok (some w.start, holding prog ws behind' (some p) (some w.start))
  := by
  rcases shiftArgs_eq (some p) (some w.start) with ⟨behind', hshift⟩
  use behind'
  rw [argnextvalue, get_bind]
  change (char p 0 >>= _) (holding prog (w :: ws) behind (some p) val) = _
  rw [bind_of_eq h.char_end, if_neg (not_not.mpr rfl), get_bind, if_pos (by simp),
    bind_of_eq (argAt_eq rfl), modify_bind]
  change (shiftArgs >>= _) (holding prog (w :: ws) behind (some p) (some w.start)) = _
  rw [bind_of_eq hshift]
  rfl

/-- When there is no word left `argnextvalue` is done with the options. -/
theorem argnextvalue_end (h : PointsAt p []) :
  argnextvalue (holding prog [] behind (some p) val) = .ok (none, holding prog [] behind none none)
  := by
  rw [argnextvalue, get_bind]
  change (char p 0 >>= _) (holding prog [] behind (some p) val) = _
  rw [bind_of_eq h.char_end, if_neg (not_not.mpr rfl)]
  rfl

/-! ### The options and the words behind them -/

theorem flags_of_no_option (h : beginsWithOption ws = false) :
  flags ws = [] ∧ arguments ws = ws
  := by
  rcases ws with _ | ⟨⟨_ | ⟨c, _ | ⟨d, cs⟩⟩, hw⟩, ws⟩
  · simp [flags, arguments]
  · simp [flags, arguments]
  · simp [flags, arguments]
  · have hc : c ≠ DASH := by simpa [beginsWithOption] using h
    simp [flags, arguments, hc]

theorem flags_word {d : Byte} (hw : w.chars = DASH :: d :: cs) :
  flags (w :: ws) = (if d = DASH ∧ cs = [] then [] else d :: cs ++ flags ws)
  := by
  simp [flags, hw]

theorem arguments_word {d : Byte} (hw : w.chars = DASH :: d :: cs) :
  arguments (w :: ws) = if d = DASH ∧ cs = [] then ws else arguments ws
  := by
  simp [arguments, hw]

/-- The values that `argnext` returns for characters. -/
def codes (cs : List Byte) : List Int :=
  cs.map (fun c => c.toNat)

theorem argnexts_flag {args' : Argstate} {fuel : Nat} {r : List Int} {args'' : Argstate}
    (hnext : argnext args = .ok ((c.toNat : Int), args'))
    (hrest : argnexts fuel args' = .ok (some r, args'')) :
  argnexts (fuel + 1) args = .ok (some (c.toNat :: r), args'')
  := by
  rw [argnexts, bind_of_eq hnext, if_neg (Int.not_lt.mpr (Int.natCast_nonneg _)), bind_of_eq hrest]
  rfl

theorem argnexts_done {args' : Argstate} {fuel : Nat} (hnext : argnext args = .ok (-1, args')) :
  argnexts (fuel + 1) args = .ok (some [], args')
  := by
  rw [argnexts, bind_of_eq hnext]
  rfl

/-- From a point inside a word on, the calls of `argnext` give out the rest of the word and then the
options of the words behind it.  There is one call for each character and one that returns `-1`. -/
theorem argnexts_eq {fuel : Nat} (h : PointsAt p cs) (hfuel : (cs ++ flags ws).length < fuel) :
  ∃ behind', argnexts fuel (holding prog ws behind (some p) val)
    = .ok (some (codes (cs ++ flags ws)), holding prog (arguments ws) behind' none none)
  := by
  induction fuel generalizing p cs ws behind val with
  | zero => cases hfuel
  | succ fuel ih =>
      rcases cs with _ | ⟨c, cs⟩
      · rcases hopt : beginsWithOption ws
        · -- no option is left
          use behind
          rw [argnexts_done (argnext_end h hopt)]
          simp [flags_of_no_option hopt, codes]
        · rcases beginsWithOption_iff.mp hopt with ⟨w, ws, d, cs, rfl, hw⟩
          rcases argnext_word h hw with ⟨behind', hnext⟩
          rw [flags_word hw, List.nil_append] at hfuel ⊢
          rw [arguments_word hw]
          by_cases hstop : d = DASH ∧ cs = []
          · use behind'
            rw [if_pos hstop] at hnext
            rw [argnexts_done hnext, if_pos hstop, if_pos hstop]
            rfl
          · rw [if_neg hstop] at hnext hfuel
            have hstart := pointsAt_start w
            rw [hw] at hstart
            rcases ih hstart.next.next (Nat.lt_of_succ_lt_succ hfuel) with ⟨behind'', hrest⟩
            use behind''
            rw [argnexts_flag hnext hrest, if_neg hstop, if_neg hstop]
            rfl
      · rcases ih h.next (Nat.lt_of_succ_lt_succ hfuel) with ⟨behind', hrest⟩
        use behind'
        rw [argnexts_flag (argnext_inside h) hrest]
        rfl

theorem argstart_eq :
  argstart (ws.length + 1) (some (arrayOf prog ws behind))
    = holding prog ws behind (if ws = [] then none else some EMPTY) none
  := by
  rcases ws with _ | ⟨w, ws⟩
  · rfl
  · simp [argstart, holding]

/-! ### What the calls take -/

theorem left_of_pointsAt (h : PointsAt p cs) :
  left (some p) ws = cs.map some ++ spelled ws
  := by
  simp [left, h.drop]

theorem spelled_cons :
  spelled (w :: ws) = none :: w.chars.map some ++ spelled ws
  := by
  simp [spelled]

/-- A call that returns `given` takes a piece from the words. -/
def Step (prog : Str) (ws : List Str) (cur : Option StrPtr)
    (r : Except (Stop Argstate) (Given × Argstate)) : Prop :=
  ∃ given ws' behind' cur' val' piece, r = .ok (given, holding prog ws' behind' cur' val')
    ∧ (∀ p ∈ cur', ∃ cs, PointsAt p cs) ∧ given.Takes piece
    ∧ left cur ws = piece ++ left cur' ws'

theorem argnext_step (hcur : ∀ p ∈ cur, ∃ cs, PointsAt p cs) :
  Step prog ws cur (OptionCall.argnext.run (holding prog ws behind cur val))
  := by
  rw [OptionCall.run]
  rcases cur with _ | p
  · rw [bind_of_eq argnext_done]
    refine ⟨.nothing, ws, behind, none, none, [], rfl, hcur, .inl rfl, rfl⟩
  rcases hcur p rfl with ⟨_ | ⟨c, cs⟩, h⟩
  · rw [Step, left_of_pointsAt h]
    rcases hopt : beginsWithOption ws
    · rw [bind_of_eq (argnext_end h hopt)]
      refine ⟨.nothing, ws, behind, none, none, [], rfl, ?_, .inl rfl, rfl⟩
      rintro p ⟨⟩
    · rcases beginsWithOption_iff.mp hopt with ⟨w, ws, d, cs, rfl, hw⟩
      rcases argnext_word h hw with ⟨behind', hnext⟩
      rw [spelled_cons, hw]
      by_cases hstop : d = DASH ∧ cs = []
      · rw [if_pos hstop] at hnext
        rw [bind_of_eq hnext]
        refine ⟨.nothing, ws, behind', none, none, _, rfl, ?_, .inr rfl, ?_⟩
        · rintro p ⟨⟩
        · simp [hstop, left]
      · rw [if_neg hstop] at hnext
        rw [bind_of_eq hnext, if_neg (Int.not_lt.mpr (Int.natCast_nonneg _))]
        have hstart := pointsAt_start w
        rw [hw] at hstart
        have hpoint : PointsAt (w.start.add 2) cs := hstart.next.next
        refine ⟨.flag d.toNat, ws, behind', some (w.start.add 2), none, _, rfl, ?_,
          ⟨d, rfl, .inr rfl⟩, ?_⟩
        · rintro p ⟨⟩
          use cs
        · rw [left_of_pointsAt hpoint]
          rfl
  · rw [bind_of_eq (argnext_inside h), if_neg (Int.not_lt.mpr (Int.natCast_nonneg _))]
    refine ⟨.flag c.toNat, ws, behind, some (p.add 1), none, [some c], rfl, ?_, ⟨c, rfl, .inl rfl⟩, ?_⟩
    · rintro p ⟨⟩
      exact ⟨cs, h.next⟩
    · rw [left_of_pointsAt h, left_of_pointsAt h.next]
      rfl

theorem argnextvalue_step (hcur : ∀ p ∈ cur, ∃ cs, PointsAt p cs) :
  Step prog ws cur (OptionCall.argnextvalue.run (holding prog ws behind cur val))
  := by
  rw [OptionCall.run]
  rcases cur with _ | p
  · rw [bind_of_eq argnextvalue_done]
    refine ⟨.nothing, ws, behind, none, val, [], rfl, hcur, .inl rfl, rfl⟩
  rcases hcur p rfl with ⟨_ | ⟨c, cs⟩, h⟩
  · rw [Step, left_of_pointsAt h]
    rcases ws with _ | ⟨w, ws⟩
    · rw [bind_of_eq (argnextvalue_end h)]
      refine ⟨.nothing, [], behind, none, none, [], rfl, ?_, .inl rfl, rfl⟩
      rintro p ⟨⟩
    · rcases argnextvalue_word h with ⟨behind', hvalue⟩
      rw [bind_of_eq hvalue]
      refine ⟨.value w.start, ws, behind', some p, some w.start, _, rfl, hcur, .inr ⟨rfl, rfl⟩, ?_⟩
      rw [left_of_pointsAt h, spelled_cons]
      rfl
  · rw [bind_of_eq (argnextvalue_inside h)]
    refine ⟨.value p, ws, behind, some EMPTY, some p, _, rfl, ?_, .inl rfl, ?_⟩
    · rintro p ⟨⟩
      exact ⟨[], pointsAt_empty⟩
    · rw [left_of_pointsAt h, left_of_pointsAt pointsAt_empty, h.drop]
      rfl

theorem argvalue_step (hcur : ∀ p ∈ cur, ∃ cs, PointsAt p cs) :
  Step prog ws cur (OptionCall.argvalue.run (holding prog ws behind cur val))
  := by
  rcases val with _ | v
  · have hsame : OptionCall.argvalue.run (holding prog ws behind cur none)
        = OptionCall.argnextvalue.run (holding prog ws behind cur none) := rfl
    rw [hsame]
    apply argnextvalue_step hcur
  · refine ⟨.nothing, ws, behind, cur, some v, [], rfl, hcur, .inl rfl, rfl⟩

theorem run_step (call : OptionCall) (hcur : ∀ p ∈ cur, ∃ cs, PointsAt p cs) :
  Step prog ws cur (call.run (holding prog ws behind cur val))
  := by
  cases call with
  | argnext => apply argnext_step hcur
  | argvalue => apply argvalue_step hcur
  | argnextvalue => apply argnextvalue_step hcur

/-- The calls of a run take one piece after the other. -/
theorem runCalls_eq (calls : List OptionCall) (hcur : ∀ p ∈ cur, ∃ cs, PointsAt p cs) :
  ∃ givens ws' behind' cur' val' pieces,
    runCalls calls (holding prog ws behind cur val)
      = .ok (givens, holding prog ws' behind' cur' val')
    ∧ List.Forall₂ Given.Takes givens pieces
    ∧ left cur ws = pieces.flatten ++ left cur' ws'
  := by
  induction calls generalizing ws behind cur val with
  | nil => refine ⟨[], ws, behind, cur, val, [], rfl, .nil, rfl⟩
  | cons call calls ih =>
      rcases run_step call hcur
        with ⟨given, ws₁, behind₁, cur₁, val₁, piece, hrun, hcur₁, htakes, hleft₁⟩
      rcases ih hcur₁ with ⟨givens, ws₂, behind₂, cur₂, val₂, pieces, hrest, hall, hleft₂⟩
      refine ⟨given :: givens, ws₂, behind₂, cur₂, val₂, piece :: pieces, ?_, .cons htakes hall, ?_⟩
      · rw [runCalls, bind_of_eq hrun, bind_of_eq hrest]
        rfl
      · rw [hleft₁, hleft₂, List.flatten_cons, List.append_assoc]

/-- `argnext` gives out the options and leaves the other words in the array; and however the calls are
mixed, what they give out are pieces of the words, one after the other. -/
theorem options (prog : Str) (ws : List Str) (behind : List (Option StrPtr)) :
  (∃ n, ∀ fuel, n ≤ fuel → ∃ args behind',
    argnexts fuel (argstart (ws.length + 1) (some (arrayOf prog ws behind)))
      = .ok (some (codes (flags ws)), args)
    ∧ args.argc = (arguments ws).length + 1 ∧ args.argv = arrayOf prog (arguments ws) behind')
  ∧ ∀ calls, ∃ givens args pieces ws' behind',
    runCalls calls (argstart (ws.length + 1) (some (arrayOf prog ws behind))) = .ok (givens, args)
    ∧ args.argc = ws'.length + 1 ∧ args.argv = arrayOf prog ws' behind'
    ∧ List.Forall₂ Given.Takes givens pieces
    ∧ spelled ws = pieces.flatten ++ left args.curarg ws'
  := by
  rw [argstart_eq]
  constructor
  · use (flags ws).length + 1
    intro fuel hfuel
    by_cases hnil : ws = []
    · rcases fuel with _ | fuel
      · cases hfuel
      · refine ⟨holding prog [] behind none none, behind, ?_⟩
        subst hnil
        rw [if_pos rfl, argnexts_done argnext_done]
        simp [flags, codes, arguments, holding]
    · rw [if_neg hnil]
      rcases argnexts_eq pointsAt_empty hfuel with ⟨behind', hrun⟩
      refine ⟨_, behind', hrun, rfl, rfl⟩
  · intro calls
    have hcur : ∀ p ∈ (if ws = [] then none else some EMPTY), ∃ cs, PointsAt p cs := by
      intro p hp
      rcases ws with _ | ⟨w, ws⟩
      · cases hp
      · cases hp
        exact ⟨[], pointsAt_empty⟩
    have hleft : left (if ws = [] then none else some EMPTY) ws = spelled ws := by
      by_cases hnil : ws = []
      · simp [hnil, left]
      · rw [if_neg hnil, left_of_pointsAt pointsAt_empty]
        rfl
    rcases runCalls_eq calls hcur with ⟨givens, ws', behind', cur', val', pieces, hrun, hall, hpieces⟩
    rw [hleft] at hpieces
    refine ⟨givens, _, pieces, ws', behind', hrun, rfl, rfl, hall, hpieces⟩

end Args

end User

end Jos
