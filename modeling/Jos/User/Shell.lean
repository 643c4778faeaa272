import Jos.User.Lexer

/-!
# Running a command line

`runcmd` of `user/sh.c` collects the words of a command line in the array `argv`, carries out
redirections, looks for the program, and spawns it.  The path of the program is put together in
the array `argv0buf`.

What the file server answers is not fixed, nor is where the arrays lie.  An access outside an
array, and outside the line, is refused.  The bounds of the arrays are not kept by every line:
the null pointer behind the words is stored without a check that there is room for it, and the
path is put together whatever its length.
-/

namespace Jos

namespace Sh

open Bytes Io

/-! ### The source -/

def MAXARGS : Nat := 16
def BUFSIZ : Nat := 1024

/-- The directories `"/bin/"` and `"/"`. -/
def PATH : List (List Byte) := [[0x2F, 0x62, 0x69, 0x6E, 0x2F], [0x2F]]

/-- The character `'/'`. -/
def SLASH : Byte := 0x2F

/-- Where the arrays of `runcmd` lie. -/
structure Frame where
  argv : Nat
  argv0buf : Nat

/-- What the file server answers: the result of the `k`-th `open` of a redirection, and of
`stat` for the `i`-th directory. -/
structure Answers where
  opens : Nat → Int
  stats : Nat → Int

/-- How `runcmd` ends, up to `spawn`. -/
inductive Ran where
  /-- The command line was empty. -/
  | returned
  /-- An error was reported, and the shell exits. -/
  | exited (msg : String)
  /-- The program at `prog` is spawned with `argv`. -/
  | spawned (prog argv : Nat)

/-- Carry out a redirection: the next token is the name of a file, which is opened. What the
descriptor of the file becomes has no effect here. -/
def redirect (opens : Nat → Int) (k : Nat) (syntaxError openError : String) (st : Statics) :
    Io (Except String Statics) := do
  let (c, _, st) ← gettoken st 0
  if c ≠ WORD then
    pure (.error syntaxError)
  else if opens k < 0 then
    pure (.error openError)
  else
    pure (.ok st)

/-- Collect arguments and carry out redirections up to the end of the line. `argc` arguments are
there and `k` files were opened so far. -/
def readArgs (fr : Frame) (opens : Nat → Int) :
    Nat → Nat → Nat → Statics → Io (Except String Nat)
  | 0, _, _, _ => Io.panic "endless command line"
  | n + 1, argc, k, st => do
      let (c, t, st) ← gettoken st 0
      if c = WORD then
        if argc = MAXARGS then
          pure (.error "too many arguments\n")
        else do
          set32 (fr.argv + 4 * argc) (BitVec.ofNat 32 (t.getD 0))
          readArgs fr opens n (argc + 1) k st
      else if c = 0x3C then do
        match ← redirect opens k "syntax error: < not followed by word\n"
            "open %s for read: %e" st with
        | .error msg => pure (.error msg)
        | .ok st => readArgs fr opens n argc (k + 1) st
      else if c = 0x3E then do
        match ← redirect opens k "syntax error: > not followed by word\n"
            "open %s for write: %e" st with
        | .error msg => pure (.error msg)
        | .ok st => readArgs fr opens n argc (k + 1) st
      else if c = 0x7C then
        Io.panic "| not implemented"
      else if c = 0 then
        pure (.ok argc)
      else
        Io.panic "bad return %d from gettoken"

/-- Try the program in one directory: copy the directory, append the name, and see whether
there is a file. -/
def tryPath (fr : Frame) (dir : List Byte) (r : Int) : Io Bool := do
  setBytes fr.argv0buf (dir ++ [0])
  let name ← get32 fr.argv
  strcat fr.argv0buf name.toNat
  if r = 0 then do
    set32 fr.argv (BitVec.ofNat 32 fr.argv0buf)
    pure true
  else
    pure false

/-- Search the directories of `PATH` for the program. -/
def searchPath (fr : Frame) (stats : Nat → Int) : Io Unit := do
  let _ ← findUp 0 PATH.length (fun i => do
    if ← tryPath fr (PATH.getD i []) (stats i) then pure (some ()) else pure none)
  pure ()

/-- Add an initial `/` to a name that has none. -/
def addSlash (fr : Frame) : Io Unit := do
  let name ← get32 fr.argv
  let ch ← get8 name.toNat
  if ch ≠ SLASH then do
    set8 fr.argv0buf SLASH
    strcpy (fr.argv0buf + 1) name.toNat
    set32 fr.argv (BitVec.ofNat 32 fr.argv0buf)
  else
    pure ()

/-- Run the command line at `s`, up to `spawn`. -/
def runcmd (fr : Frame) (ans : Answers) (st : Statics) (s : Nat) : Io Ran := do
  let (_, _, st) ← gettoken st s
  match ← readArgs fr ans.opens ADDRESSES 0 0 st with
  | .error msg => pure (.exited msg)
  | .ok argc =>
      if argc = 0 then
        pure .returned
      else do
        searchPath fr ans.stats
        addSlash fr
        set32 (fr.argv + 4 * argc) 0
        let prog ← get32 fr.argv
        pure (.spawned prog.toNat fr.argv)

/-! ### What a line says -/

/-- The words of a line without its redirections, if the line is well formed and all files of
redirections are opened, `k` of them before. -/
def commandWords (opens : Nat → Int) : Nat → List Token → Option (List (List Byte))
  | _, [] => some []
  | k, .word w :: ts => (commandWords opens k ts).map (w :: ·)
  | k, .symbol b :: .word _ :: ts =>
      if (b = 0x3C ∨ b = 0x3E) ∧ 0 ≤ opens k then commandWords opens (k + 1) ts else none
  | _, .symbol _ :: _ => none

/-- Words behind a symbol count if the symbol is a redirection that succeeds. -/
theorem commandWords_redirect {opens : Nat → Int} {k : Nat} {b : Byte} {ts : List Token}
    (hb : b = 0x3C ∨ b = 0x3E) (hw : ∃ w, ts.head? = some (.word w)) (hk : 0 ≤ opens k) :
  commandWords opens k (.symbol b :: ts) = commandWords opens (k + 1) ts.tail
  := by
  obtain ⟨w, hw⟩ := hw
  cases ts with
  | nil => cases hw
  | cons t ts =>
      cases hw
      rw [commandWords, if_pos ⟨hb, hk⟩, List.tail_cons]

theorem commandWords_symbol_none {opens : Nat → Int} {k : Nat} {b : Byte} {ts : List Token}
    (h : ¬ ((b = 0x3C ∨ b = 0x3E) ∧ (∃ w, ts.head? = some (.word w)) ∧ 0 ≤ opens k)) :
  commandWords opens k (.symbol b :: ts) = none
  := by
  cases ts with
  | nil => rfl
  | cons t ts =>
      cases t with
      | symbol c => rfl
      | word w =>
          rw [commandWords, if_neg]
          rintro ⟨hb, hk⟩
          exact h ⟨hb, ⟨w, rfl⟩, hk⟩

/-- The program with the name `w` as the directories of `PATH` give it. -/
def inPath (stats : Nat → Int) (w : List Byte) : List Byte :=
  if stats 0 = 0 then PATH.getD 0 [] ++ w
  else if stats 1 = 0 then PATH.getD 1 [] ++ w
  else w

/-- The path of the program with the name `w`, which starts with `/`. -/
def program (stats : Nat → Int) (w : List Byte) : List Byte :=
  if (inPath stats w).headD 0 = SLASH then inPath stats w else SLASH :: inPath stats w

/-! ### What may be accessed -/

/-- Whether `a` is an address of the line of `n` characters at `s`, or of one of the arrays. -/
def Frame.covers (fr : Frame) (s n : Nat) (_ : Memory) (a : Nat) : Bool :=
  (s ≤ a ∧ a ≤ s + n) ∨ (fr.argv ≤ a ∧ a < fr.argv + 4 * MAXARGS)
    ∨ (fr.argv0buf ≤ a ∧ a < fr.argv0buf + BUFSIZ)

/-- The arrays and the line, of `n` characters at `s`, lie in the address space, and there is
something else between any two of them. -/
structure Frame.Apart (fr : Frame) (s n : Nat) : Prop where
  null : s ≠ 0
  buf_ne : fr.argv0buf ≠ 0
  line : s + n < ADDRESSES
  argv : fr.argv + 4 * MAXARGS < ADDRESSES
  buf : fr.argv0buf + BUFSIZ < ADDRESSES
  argv_buf : fr.argv + 4 * MAXARGS < fr.argv0buf ∨ fr.argv0buf + BUFSIZ < fr.argv
  argv_line : fr.argv + 4 * MAXARGS < s ∨ s + n < fr.argv
  buf_line : fr.argv0buf + BUFSIZ < s ∨ s + n < fr.argv0buf

namespace Frame

variable {fr : Frame} {s n : Nat}

theorem covers_line (m : Memory) {a : Nat} (h : s ≤ a) (h' : a ≤ s + n) :
  fr.covers s n m a = true
  := decide_eq_true (Or.inl ⟨h, h'⟩)

theorem covers_buf (m : Memory) {a : Nat} (h : fr.argv0buf ≤ a) (h' : a < fr.argv0buf + BUFSIZ) :
  fr.covers s n m a = true
  := decide_eq_true (Or.inr (Or.inr ⟨h, h'⟩))

theorem covers_argv (m : Memory) {i : Nat} (h : i < MAXARGS) :
  okWord (fr.covers s n) m (fr.argv + 4 * i) = true
  := by
  rw [okWord, Bool.and_eq_true]
  constructor
  · apply decide_eq_true
    omega
  · apply decide_eq_true
    omega

/-- What lies behind the arguments is not covered. -/
theorem Apart.argv_end (h : fr.Apart s n) (m : Memory) :
  okWord (fr.covers s n) m (fr.argv + 4 * MAXARGS) = false
  := by
  have h1 := h.argv_buf
  have h2 := h.argv_line
  have hcov : fr.covers s n m (fr.argv + 4 * MAXARGS) = false := by
    apply decide_eq_false
    omega
  rw [okWord, hcov]
  rfl

/-- What lies behind the buffer is not covered. -/
theorem Apart.buf_end (h : fr.Apart s n) (m : Memory) :
  fr.covers s n m (fr.argv0buf + BUFSIZ) = false
  := by
  have h1 := h.argv_buf
  have h2 := h.buf_line
  apply decide_eq_false
  omega

end Frame

/-! ### Collecting the arguments -/

/-- In `m` the argument `i` is the string `w` in the line from `s` to `e`, in front of `lim`. -/
def ArgAt (fr : Frame) (s e : Nat) (m : Memory) (i : Nat) (w : List Byte) (lim : Nat) : Prop :=
  ∃ t, read32 m (fr.argv + 4 * i) = BitVec.ofNat 32 t ∧ StringAt m t w ∧ s ≤ t
    ∧ t + w.length ≤ e ∧ t + w.length < lim

/-- The arguments `ws` of the line from `s` to `e` were collected, the tokens `ts` are left. -/
structure Parsing (fr : Frame) (s e : Nat) (m : Memory) (ts : List Token) (st : Statics)
    (ws : List (List Byte)) : Prop where
  ahead : Ahead e m ts st.nc st.np1 st.np2
  start : ts ≠ [] → s ≤ st.np1 ∧ s < st.np2
  args : ∀ i (hi : i < ws.length),
    ArgAt fr s e m i ws[i] (if ts = [] then e + 1 else st.np2)

section Parsing

variable {fr : Frame} {s n : Nat} {m : Memory} {ts : List Token} {st : Statics}
  {ws : List (List Byte)}

/-- One call of `gettoken` while arguments are collected. -/
theorem Parsing.next (h : Parsing fr s (s + n) m ts st ws) (hf : fr.Apart s n)
    (hmax : ws.length ≤ MAXARGS) :
  (gettoken st 0).Ends (fr.covers s n) m (fun r m' =>
    Parsing fr s (s + n) m' ts.tail r.2.2 ws
    ∧ ∃ t, r.2.1 = some t ∧ Returned m' (r.1, t) ts.head?
      ∧ ∀ w, ts.head? = some (.word w) → s ≤ t ∧ t + w.length ≤ s + n
        ∧ t + w.length < (if ts.tail = [] then s + n + 1 else r.2.2.np2)) False
  := by
  have hok : ts ≠ [] → ∀ m a, st.np2 ≤ a → a ≤ s + n → fr.covers s n m a = true := by
    intro hne m a ha ha'
    have hs := (h.start hne).2
    exact Frame.covers_line m (by omega) ha'
  apply (gettoken_ok h.ahead hf.line hok st.c).mono _ id
  rintro ⟨c, o, st'⟩ m' ⟨⟨rfl, hret, hend⟩, hahead, hsame, hlater⟩
  have hnp : ts.tail ≠ [] → st.np2 ≤ st'.np1 ∧ st.np2 < st'.np2 := hlater
  have htail : ts.tail ≠ [] → ts ≠ [] := by
    rintro hne rfl
    exact hne rfl
  -- how far arguments may reach does not become less
  have hlim : ∀ x ≤ s + n, (x < if ts = [] then s + n + 1 else st.np2) →
      x < if ts.tail = [] then s + n + 1 else st'.np2 := by
    intro x hx hlt
    split
    case isTrue => omega
    case isFalse hne =>
      rw [if_neg (htail hne)] at hlt
      have hlt' := (hnp hne).2
      omega
  constructor
  · constructor
    case ahead => exact hahead
    case start =>
      intro hne
      have hs := h.start (htail hne)
      have hlt := hnp hne
      constructor
      · change s ≤ st'.np1
        omega
      · change s < st'.np2
        omega
    case args =>
      intro i hi
      obtain ⟨t, hword, hstr, hst, hte, htlim⟩ := h.args i hi
      refine ⟨t, ?_, ?_, hst, hte, hlim _ hte htlim⟩
      · rw [← hword]
        apply read32_congr
        intro x hx hx'
        apply hsame
        by_cases hnil : ts = []
        · exact Or.inr (Or.inr hnil)
        · have hs := (h.start hnil).2
          have hline := hf.argv_line
          omega
      · apply hstr.congr
        intro x _ hx
        apply hsame
        by_cases hnil : ts = []
        · exact Or.inr (Or.inr hnil)
        · rw [if_neg hnil] at htlim
          left
          omega
  · refine ⟨st.np1, rfl, hret, ?_⟩
    intro w hw
    have hne : ts ≠ [] := by
      rintro rfl
      cases hw
    have hstart := h.start hne
    have hnp2 := h.ahead.np2_le hne
    have hw' := hend w hw
    refine ⟨hstart.1, by omega, ?_⟩
    split
    case isTrue => omega
    case isFalse htl =>
      have hlt' := (hnp htl).2
      change st.np1 + w.length < st'.np2
      omega

/-- An argument is stored behind the others. -/
theorem Parsing.push (h : Parsing fr s (s + n) m ts st ws) (hf : fr.Apart s n)
    (hlt : ws.length < MAXARGS) {t : Nat} {w : List Byte} (hstr : StringAt m t w) (hs : s ≤ t)
    (he : t + w.length ≤ s + n) (hlim : t + w.length < if ts = [] then s + n + 1 else st.np2) :
  Parsing fr s (s + n) (write32 m (fr.argv + 4 * ws.length) (BitVec.ofNat 32 t)) ts st (ws ++ [w])
  := by
  have hline := hf.argv_line
  -- the line is not written to
  have hsame : ∀ x, s ≤ x → x ≤ s + n →
      write32 m (fr.argv + 4 * ws.length) (BitVec.ofNat 32 t) x = m x := by
    intro x hx hx'
    apply write32_of_disjoint
    omega
  constructor
  case ahead =>
    apply h.ahead.congr
    intro hne x hx hx'
    have hstart := (h.start hne).1
    exact hsame x (by omega) hx'
  case start => exact h.start
  case args =>
    intro i hi
    rw [List.length_append, List.length_singleton] at hi
    obtain hi | rfl := Nat.lt_succ_iff_lt_or_eq.mp hi
    · obtain ⟨t', hword, hstr', hs', he', hlim'⟩ := h.args i hi
      rw [List.getElem_append_left hi]
      refine ⟨t', ?_, ?_, hs', he', hlim'⟩
      · rw [read32_write32_of_disjoint _ _ (by omega), hword]
      · apply hstr'.congr
        intro x hx hx'
        exact hsame x (by omega) (by omega)
    · rw [List.getElem_concat_length rfl]
      refine ⟨t, read32_write32 _ _ _, ?_, hs, he, hlim⟩
      apply hstr.congr
      intro x hx hx'
      exact hsame x (by omega) (by omega)

/-- The words of the rest of the line have room behind the `argc` arguments that are there. -/
def Fits (opens : Nat → Int) (k : Nat) (ts : List Token) (argc : Nat) : Prop :=
  ∃ ws, commandWords opens k ts = some ws ∧ argc + ws.length ≤ MAXARGS

/-- What is known when the arguments behind `ws` were collected. -/
def ArgsRead (fr : Frame) (opens : Nat → Int) (s e k : Nat) (ts : List Token)
    (ws : List (List Byte)) (r : Except String Nat) (m : Memory) : Prop :=
  match r with
  | .ok argc => ∃ ws', commandWords opens k ts = some ws' ∧ argc = (ws ++ ws').length
      ∧ argc ≤ MAXARGS ∧ ∃ st, Parsing fr s e m [] st (ws ++ ws')
  | .error _ => ¬ Fits opens k ts ws.length

/-- The symbols that `runcmd` knows are told from the others by their codes. -/
theorem symbol_code {b : Byte} (h : b ∈ SYMBOLS) :
  b.signExtend 32 ≠ WORD ∧ (b.signExtend 32 = 0x3C ↔ b = 0x3C) ∧ (b.signExtend 32 = 0x3E ↔ b = 0x3E)
  := by
  revert b
  decide

/-- A redirection opens a file, unless an error is reported. -/
theorem Parsing.redirect (h : Parsing fr s (s + n) m ts st ws) (hf : fr.Apart s n)
    (hmax : ws.length ≤ MAXARGS) (opens : Nat → Int) (k : Nat) (syntaxError openError : String) :
  (redirect opens k syntaxError openError st).Ends (fr.covers s n) m (fun r m' =>
    match r with
    | .ok st' => (∃ w, ts.head? = some (.word w)) ∧ 0 ≤ opens k
        ∧ Parsing fr s (s + n) m' ts.tail st' ws
    | .error _ => ¬ ((∃ w, ts.head? = some (.word w)) ∧ 0 ≤ opens k)) False
  := by
  rw [Sh.redirect, ends_bind]
  apply (h.next hf hmax).mono _ id
  rintro ⟨c, o, st'⟩ m' ⟨hnext, t, rfl, hret, -⟩
  have hword : c = WORD ↔ ∃ w, ts.head? = some (.word w) := by
    cases hts : ts with
    | nil =>
        rw [hts] at hret
        have hc : c = 0 := hret
        apply iff_of_false
        · rw [hc]
          decide
        · rintro ⟨w, hw⟩
          cases hw
    | cons tok ts' =>
        rw [hts] at hret
        cases tok with
        | symbol b =>
            have hc : c = b.signExtend 32 := hret.1
            have hb := (hts ▸ h.ahead).symbol_mem
            apply iff_of_false
            · rw [hc]
              exact (symbol_code hb).1
            · rintro ⟨w, hw⟩
              cases hw
        | word w =>
            apply iff_of_true
            · exact hret.1
            · exact ⟨w, rfl⟩
  rw [ends_ite]
  constructor
  · intro hne
    rw [ends_pure]
    rintro ⟨hw, -⟩
    exact hne (hword.mpr hw)
  · intro hc
    rw [ends_ite]
    constructor
    · intro hneg
      rw [ends_pure]
      rintro ⟨-, hk⟩
      omega
    · intro hk
      rw [ends_pure]
      exact ⟨hword.mp (not_not.mp hc), by omega, hnext⟩

theorem fits_word {opens : Nat → Int} {k argc : Nat} {w : List Byte} :
  Fits opens k (.word w :: ts) argc ↔ Fits opens k ts (argc + 1)
  := by
  constructor
  · rintro ⟨ws, hws, hlen⟩
    rw [commandWords, Option.map_eq_some_iff] at hws
    obtain ⟨ws', hws', rfl⟩ := hws
    rw [List.length_cons] at hlen
    exact ⟨ws', hws', by omega⟩
  · rintro ⟨ws, hws, hlen⟩
    refine ⟨w :: ws, ?_, ?_⟩
    · rw [commandWords, hws]
      rfl
    · rw [List.length_cons]
      omega

/-- What is known behind one more argument. -/
theorem ArgsRead.word {opens : Nat → Int} {e k : Nat} {w : List Byte} {r : Except String Nat}
    (h : ArgsRead fr opens s e k ts (ws ++ [w]) r m) :
  ArgsRead fr opens s e k (.word w :: ts) ws r m
  := by
  cases r with
  | error msg =>
      intro hfits
      apply h
      rw [List.length_append, List.length_singleton]
      exact fits_word.mp hfits
  | ok argc =>
      obtain ⟨ws', hws', hargc, hle, st', hpars⟩ := h
      rw [List.append_assoc, List.singleton_append] at hargc hpars
      refine ⟨w :: ws', ?_, hargc, hle, st', hpars⟩
      rw [commandWords, hws']
      rfl

theorem ArgsRead.of_eq {opens : Nat → Int} {e k k' : Nat} {ts' : List Token}
    {r : Except String Nat} (h : ArgsRead fr opens s e k' ts' ws r m)
    (heq : commandWords opens k ts = commandWords opens k' ts') :
  ArgsRead fr opens s e k ts ws r m
  := by
  cases r with
  | error msg =>
      rintro ⟨ws', hws', hlen⟩
      exact h ⟨ws', heq ▸ hws', hlen⟩
  | ok argc =>
      obtain ⟨ws', hws', hrest⟩ := h
      exact ⟨ws', heq.trans hws', hrest⟩

/-- There is no room for a word more than there are arguments. -/
theorem not_fits_word (opens : Nat → Int) (k : Nat) (w : List Byte) (ts : List Token) :
  ¬ Fits opens k (.word w :: ts) MAXARGS
  := by
  rw [fits_word]
  rintro ⟨ws, -, hlen⟩
  omega

theorem not_fits_of_none {opens : Nat → Int} {k argc : Nat} (h : commandWords opens k ts = none) :
  ¬ Fits opens k ts argc
  := by
  rintro ⟨ws, hws, -⟩
  rw [h] at hws
  cases hws

/-- The arguments are collected up to the end of the line, unless there are too many, the line is
not well formed, or a file is not opened. -/
theorem readArgs_ok (hf : fr.Apart s n) (opens : Nat → Int) {fuel : Nat} (hfuel : ts.length < fuel)
    (h : Parsing fr s (s + n) m ts st ws) (hmax : ws.length ≤ MAXARGS) (k : Nat) :
  (readArgs fr opens fuel ws.length k st).Ends (fr.covers s n) m
    (ArgsRead fr opens s (s + n) k ts ws) (¬ Fits opens k ts ws.length)
  := by
  induction fuel generalizing m ts st ws k with
  | zero => cases hfuel
  | succ fuel ih =>
      rw [readArgs, ends_bind]
      apply (h.next hf hmax).mono _ False.elim
      rintro ⟨c, o, st'⟩ m' ⟨hnext, t, rfl, hret, hplace⟩
      dsimp only
      cases ts with
      | nil =>
          obtain rfl : c = 0 := hret
          rw [if_neg (by decide), if_neg (by decide), if_neg (by decide), if_neg (by decide),
            if_pos rfl, ends_pure]
          refine ⟨[], rfl, ?_, hmax, st', ?_⟩
          · rw [List.append_nil]
          · rw [List.append_nil]
            exact hnext
      | cons tok ts =>
          rw [List.length_cons] at hfuel
          cases tok with
          | word w =>
              obtain rfl : c = WORD := hret.1
              obtain ⟨hs, he, hlim⟩ := hplace w rfl
              rw [if_pos rfl, ends_ite]
              constructor
              · intro hargc
                rw [ends_pure, ArgsRead, hargc]
                exact not_fits_word opens k w ts
              · intro hargc
                have hlt : ws.length < MAXARGS := by omega
                rw [ends_bind, ends_set32]
                refine ⟨Frame.covers_argv m' hlt, ?_⟩
                have hnext' : Parsing fr s (s + n) m' ts st' ws := hnext
                have hpush := hnext'.push hf hlt hret.2.2 hs he hlim
                have hlen : ws.length + 1 = (ws ++ [w]).length := by
                  rw [List.length_append, List.length_singleton]
                have hmax' : (ws ++ [w]).length ≤ MAXARGS := by
                  rw [← hlen]
                  omega
                rw [hlen]
                apply (ih (by omega) hpush hmax' k).mono
                · intro r m'' hread
                  exact hread.word
                · intro hno hfits
                  apply hno
                  rw [← hlen]
                  exact fits_word.mp hfits
          | symbol b =>
              have hb := h.ahead.symbol_mem
              have hnext' : Parsing fr s (s + n) m' ts st' ws := hnext
              obtain ⟨hnw, hlt, hgt⟩ := symbol_code hb
              obtain rfl : c = b.signExtend 32 := hret.1
              -- both redirections go on behind the name of the file
              have hredirect : ∀ syntaxError openError, b = 0x3C ∨ b = 0x3E →
                  (Sh.redirect opens k syntaxError openError st' >>= fun r => match r with
                    | .error msg => pure (.error msg)
                    | .ok st => readArgs fr opens fuel ws.length (k + 1) st).Ends (fr.covers s n) m'
                    (ArgsRead fr opens s (s + n) k (.symbol b :: ts) ws)
                    (¬ Fits opens k (.symbol b :: ts) ws.length) := by
                intro syntaxError openError hbs
                rw [ends_bind]
                apply (hnext'.redirect hf hmax opens k syntaxError openError).mono _ False.elim
                intro r m'' hr
                cases r with
                | error msg =>
                    rw [ends_pure]
                    apply not_fits_of_none
                    apply commandWords_symbol_none
                    rintro ⟨-, hgood⟩
                    exact hr hgood
                | ok st'' =>
                    obtain ⟨hw, hk, hpars⟩ := hr
                    have hwords := commandWords_redirect hbs hw hk
                    have hshort : ts.tail.length < fuel := by
                      rw [List.length_tail]
                      omega
                    apply (ih hshort hpars hmax (k + 1)).mono
                    · intro r m₃ hread
                      exact hread.of_eq hwords
                    · rintro hno ⟨ws', hws', hlen⟩
                      exact hno ⟨ws', hwords.symm.trans hws', hlen⟩
              have hother : b ≠ 0x3C → b ≠ 0x3E → ¬ Fits opens k (.symbol b :: ts) ws.length := by
                intro h1 h2
                apply not_fits_of_none
                apply commandWords_symbol_none
                rintro ⟨h3 | h3, -⟩
                · exact h1 h3
                · exact h2 h3
              rw [if_neg hnw, ends_ite]
              constructor
              · intro hc
                exact hredirect _ _ (Or.inl (hlt.mp hc))
              · intro hc
                rw [ends_ite]
                constructor
                · intro hc'
                  exact hredirect _ _ (Or.inr (hgt.mp hc'))
                · intro hc'
                  have hno := hother (fun h => hc (hlt.mpr h)) (fun h => hc' (hgt.mpr h))
                  rw [ends_ite]
                  constructor
                  · intro _
                    exact ends_panic _ |>.mpr hno
                  · intro _
                    rw [if_neg hret.2]
                    exact ends_panic _ |>.mpr hno

end Parsing

/-! ### Looking for the program -/

/-- From `m` to `m'` only the buffer changed. -/
def Beside (fr : Frame) (m m' : Memory) : Prop :=
  ∀ x, x < fr.argv0buf ∨ fr.argv0buf + BUFSIZ ≤ x → m' x = m x

section Searching

variable {fr : Frame} {s n : Nat} {m m' : Memory} {w : List Byte}

theorem Beside.trans {m'' : Memory} (h : Beside fr m m') (h' : Beside fr m' m'') :
  Beside fr m m''
  := by
  intro x hx
  rw [h' x hx, h x hx]

/-- The arguments do not lie in the buffer. -/
theorem Beside.read (h : Beside fr m m') (hf : fr.Apart s n) {i : Nat} (hi : i < MAXARGS) :
  read32 m' (fr.argv + 4 * i) = read32 m (fr.argv + 4 * i)
  := by
  have hbuf := hf.argv_buf
  apply read32_congr
  intro x hx hx'
  apply h
  omega

theorem Beside.argAt (h : Beside fr m m') (hf : fr.Apart s n) {i lim : Nat} (hi : i < MAXARGS)
    (harg : ArgAt fr s (s + n) m i w lim) :
  ArgAt fr s (s + n) m' i w lim
  := by
  obtain ⟨t, hword, hstr, hs, he, hlim⟩ := harg
  have hline := hf.buf_line
  refine ⟨t, (h.read hf hi).trans hword, ?_, hs, he, hlim⟩
  apply hstr.congr
  intro x hx hx'
  apply h
  omega

/-- The other arguments stay when one is stored. -/
theorem ArgAt.write32 (hf : fr.Apart s n) {i j lim : Nat} (hij : i ≠ j) (hj : j < MAXARGS)
    (harg : ArgAt fr s (s + n) m i w lim) (v : Word) :
  ArgAt fr s (s + n) (Bytes.write32 m (fr.argv + 4 * j) v) i w lim
  := by
  obtain ⟨t, hword, hstr, hs, he, hlim⟩ := harg
  have hline := hf.argv_line
  refine ⟨t, ?_, ?_, hs, he, hlim⟩
  · rw [read32_write32_of_disjoint _ _ (by omega), hword]
  · apply hstr.congr
    intro x hx hx'
    apply write32_of_disjoint
    omega

/-- Where the string of an argument lies. -/
theorem ArgAt.toNat (hf : fr.Apart s n) {i lim : Nat} (harg : ArgAt fr s (s + n) m i w lim) :
  StringAt m (read32 m (fr.argv + 4 * i)).toNat w ∧ s ≤ (read32 m (fr.argv + 4 * i)).toNat
    ∧ (read32 m (fr.argv + 4 * i)).toNat + w.length ≤ s + n
  := by
  obtain ⟨t, hword, hstr, hs, he, -⟩ := harg
  have hline := hf.line
  have ht : (BitVec.ofNat 32 t).toNat = t := by
    rw [BitVec.toNat_ofNat]
    apply Nat.mod_eq_of_lt
    simp only [ADDRESSES] at hline
    omega
  rw [hword, ht]
  exact ⟨hstr, hs, he⟩

/-- What is in memory when the directory was copied. -/
theorem copied_dir (fr : Frame) (m : Memory) {dir : List Byte} (hdir : 0 ∉ dir)
    (hshort : dir.length < BUFSIZ) :
  StringAt (writeBytes m fr.argv0buf (dir ++ [0])) fr.argv0buf dir
    ∧ Beside fr m (writeBytes m fr.argv0buf (dir ++ [0]))
  := by
  have hbytes := bytesAt_append.mp (bytesAt_writeBytes m fr.argv0buf (dir ++ [0]))
  constructor
  · exact ⟨hbytes.1, hbytes.2.1, hdir⟩
  · intro x hx
    apply writeBytes_of_disjoint
    rw [List.length_append, List.length_singleton]
    omega

section OneDirectory

variable (hf : fr.Apart s n) {lim : Nat} (harg : ArgAt fr s (s + n) m 0 w lim) {dir : List Byte}
  (hdir : 0 ∉ dir) (hshort : dir.length < BUFSIZ) (r : Int)
include hf harg hdir hshort

/-- The path of the program in a directory is put together if there is room for it. -/
theorem tryPath_ok (hfit : dir.length + w.length < BUFSIZ) :
  (tryPath fr dir r).Ends (fr.covers s n) m (fun b m' => b = decide (r = 0)
    ∧ ∃ m₁, Beside fr m m₁ ∧ (r ≠ 0 → m' = m₁) ∧ (r = 0 → StringAt m₁ fr.argv0buf (dir ++ w)
      ∧ m' = Bytes.write32 m₁ fr.argv (BitVec.ofNat 32 fr.argv0buf))) False
  := by
  have hmax : (0 : Nat) < MAXARGS := by decide
  obtain ⟨hstr, hbeside⟩ := copied_dir fr m hdir hshort
  have harg₁ := hbeside.argAt hf hmax harg
  obtain ⟨hname, hs, he⟩ := harg₁.toNat hf
  have hbufline := hf.buf_line
  have hlen : s + n < ADDRESSES := hf.line
  rw [tryPath, ends_bind]
  apply ends_setBytes
  · intro m' _ i hi
    rw [List.length_append, List.length_singleton] at hi
    exact Frame.covers_buf m' (by omega) (by omega)
  rw [ends_bind, ends_get32]
  refine ⟨Frame.covers_argv _ hmax, ?_⟩
  rw [ends_bind]
  apply ends_strcat hstr (by simp only [BUFSIZ, ADDRESSES] at hfit ⊢; omega) hname (by omega)
  · intro m' a ha ha'
    rw [Nat.mul_zero, Nat.add_zero] at *
    exact Frame.covers_line m' (by omega) (by omega)
  · intro m' a ha ha'
    exact Frame.covers_buf m' ha (by omega)
  · omega
  · intro m₂ hpath hsame
    have hbeside₂ : Beside fr m m₂ := by
      apply hbeside.trans
      intro x hx
      exact hsame x (by omega)
    rw [ends_ite]
    constructor
    · intro hr
      rw [ends_bind, ends_set32]
      refine ⟨Frame.covers_argv m₂ hmax, ?_⟩
      rw [ends_pure]
      refine ⟨(decide_eq_true hr).symm, m₂, hbeside₂, fun hne => (hne hr).elim, ?_⟩
      intro _
      exact ⟨hpath, rfl⟩
    · intro hr
      rw [ends_pure]
      refine ⟨(decide_eq_false hr).symm, m₂, hbeside₂, fun _ => rfl, ?_⟩
      intro hr'
      exact (hr hr').elim

/-- Putting the path together is refused if there is no room for it. -/
theorem tryPath_faults (hlong : BUFSIZ ≤ dir.length + w.length) :
  (tryPath fr dir r).Faults (fr.covers s n) m
  := by
  have hmax : (0 : Nat) < MAXARGS := by decide
  obtain ⟨hstr, hbeside⟩ := copied_dir fr m hdir hshort
  have harg₁ := hbeside.argAt hf hmax harg
  obtain ⟨hname, hs, he⟩ := harg₁.toNat hf
  have hbufline := hf.buf_line
  have hlen : s + n < ADDRESSES := hf.line
  rw [tryPath]
  apply Ends.faults (Q := fun _ m' => m' = writeBytes m fr.argv0buf (dir ++ [0]))
  · apply ends_setBytes
    · intro m' _ i hi
      rw [List.length_append, List.length_singleton] at hi
      exact Frame.covers_buf m' (by omega) (by omega)
    · rfl
  rintro _ m₁ rfl
  apply Ends.faults (Q := fun v m' => v = read32 (writeBytes m fr.argv0buf (dir ++ [0])) fr.argv
    ∧ m' = writeBytes m fr.argv0buf (dir ++ [0]))
  · rw [ends_get32]
    exact ⟨Frame.covers_argv _ hmax, rfl, rfl⟩
  rintro _ m₁ ⟨rfl, rfl⟩
  apply Faults.bind
  apply faults_strcat (k := BUFSIZ - dir.length) hstr
    (by simp only [BUFSIZ, ADDRESSES] at hshort ⊢; omega) hname (by omega)
  · intro m' a ha ha'
    exact Frame.covers_line m' (by omega) (by omega)
  · omega
  · intro m' a ha ha'
    exact Frame.covers_buf m' ha (by omega)
  · exact Frame.covers_buf _ (by omega) (by omega)
  · intro m'
    have hend : fr.argv0buf + dir.length + (BUFSIZ - dir.length) = fr.argv0buf + BUFSIZ := by omega
    rw [hend]
    exact hf.buf_end m'
  · omega

end OneDirectory

/-- The first argument names the program `w`, in the line, or it is the path `p` in the buffer. -/
def NameAt (fr : Frame) (s e : Nat) (m : Memory) (w p : List Byte) : Prop :=
  (p = w ∧ ArgAt fr s e m 0 w (e + 1)) ∨
    (p.headD 0 = SLASH ∧ read32 m fr.argv = BitVec.ofNat 32 fr.argv0buf
      ∧ StringAt m fr.argv0buf p ∧ p.length < BUFSIZ)

/-- One directory after the other is searched if there is room for the paths. The arguments
behind the first stay. -/
theorem searchPath_ok (hf : fr.Apart s n) (stats : Nat → Int)
    (harg : ArgAt fr s (s + n) m 0 w (s + n + 1)) (hfit : 5 + w.length < BUFSIZ) :
  (searchPath fr stats).Ends (fr.covers s n) m (fun _ m' =>
    NameAt fr s (s + n) m' w (inPath stats w) ∧
      ∀ i v lim, 0 < i → i < MAXARGS → ArgAt fr s (s + n) m i v lim →
        ArgAt fr s (s + n) m' i v lim) False
  := by
  have hmax : (0 : Nat) < MAXARGS := by decide
  -- what one directory leads to
  have htry : ∀ (i : Nat) (m₀ : Memory), i < 2 → Beside fr m m₀ →
      (tryPath fr (PATH.getD i []) (stats i)).Ends (fr.covers s n) m₀ (fun b m' =>
        (stats i ≠ 0 ∧ b = false ∧ Beside fr m m') ∨
        (stats i = 0 ∧ b = true ∧ NameAt fr s (s + n) m' w (PATH.getD i [] ++ w) ∧
          ∀ i v lim, 0 < i → i < MAXARGS → ArgAt fr s (s + n) m i v lim →
            ArgAt fr s (s + n) m' i v lim)) False := by
    intro i m₀ hi hbeside
    have hdir : 0 ∉ PATH.getD i [] ∧ (PATH.getD i []).length ≤ 5
        ∧ ∀ v, (PATH.getD i [] ++ v).headD 0 = SLASH := by
      obtain rfl | rfl : i = 0 ∨ i = 1 := by omega
      · exact ⟨by decide, by decide, fun _ => rfl⟩
      · exact ⟨by decide, by decide, fun _ => rfl⟩
    have harg₀ := hbeside.argAt hf hmax harg
    apply (tryPath_ok hf harg₀ hdir.1 (by omega) (stats i) (by omega)).mono _ id
    rintro b m' ⟨rfl, m₁, hbeside₁, hno, hyes⟩
    have hbeside' := hbeside.trans hbeside₁
    by_cases hr : stats i = 0
    · right
      obtain ⟨hpath, rfl⟩ := hyes hr
      refine ⟨hr, decide_eq_true hr, Or.inr ⟨hdir.2.2 w, read32_write32 _ _ _, ?_, ?_⟩, ?_⟩
      · have hbuf := hf.argv_buf
        apply hpath.congr
        intro x hx hx'
        rw [List.length_append] at hx'
        apply write32_of_disjoint
        simp only [MAXARGS] at hbuf
        omega
      · rw [List.length_append]
        omega
      · intro j v lim hj hjmax hv
        exact (hbeside'.argAt hf hjmax hv).write32 hf (by omega) hmax _
    · left
      obtain rfl := hno hr
      exact ⟨hr, decide_eq_false hr, hbeside'⟩
  have hrefl : Beside fr m m := fun _ _ => rfl
  rw [searchPath, ends_bind]
  have hlen : PATH.length = 2 := rfl
  rw [hlen, findUp, ends_bind, ends_bind]
  apply (htry 0 m (by decide) hrefl).mono _ id
  rintro _ m₁ (⟨hr, rfl, hbeside⟩ | ⟨hr, rfl, hname, hargs⟩)
  · rw [if_neg (by decide), ends_pure]
    dsimp only
    rw [findUp, ends_bind, ends_bind]
    apply (htry 1 m₁ (by decide) hbeside).mono _ id
    rintro _ m₂ (⟨hr', rfl, hbeside'⟩ | ⟨hr', rfl, hname, hargs⟩)
    · rw [if_neg (by decide), ends_pure]
      dsimp only
      rw [findUp, ends_pure, ends_pure, inPath, if_neg hr, if_neg hr']
      constructor
      · left
        exact ⟨rfl, hbeside'.argAt hf hmax harg⟩
      · intro i v lim _ hi hv
        exact hbeside'.argAt hf hi hv
    · rw [if_pos rfl, ends_pure]
      dsimp only
      rw [ends_pure, ends_pure, inPath, if_neg hr, if_pos hr']
      exact ⟨hname, hargs⟩
  · rw [if_pos rfl, ends_pure]
    dsimp only
    rw [ends_pure, ends_pure, inPath, if_pos hr]
    exact ⟨hname, hargs⟩

/-- The search is refused the buffer if there is no room for the first path. -/
theorem searchPath_faults (hf : fr.Apart s n) (stats : Nat → Int) {lim : Nat}
    (harg : ArgAt fr s (s + n) m 0 w lim) (hlong : BUFSIZ ≤ 5 + w.length) :
  (searchPath fr stats).Faults (fr.covers s n) m
  := by
  rw [searchPath]
  apply Faults.bind
  have hlen : PATH.length = 2 := rfl
  rw [hlen, findUp]
  apply Faults.bind
  apply Faults.bind
  exact tryPath_faults hf harg (by decide) (by decide) (stats 0) hlong

/-- The address of the buffer is a word. -/
theorem Frame.Apart.buf_toNat (hf : fr.Apart s n) :
  (BitVec.ofNat 32 fr.argv0buf).toNat = fr.argv0buf
  := by
  have hlt := hf.buf
  rw [BitVec.toNat_ofNat]
  apply Nat.mod_eq_of_lt
  simp only [ADDRESSES] at hlt
  omega

/-- The string of the first argument. -/
theorem NameAt.toNat (hf : fr.Apart s n) {p : List Byte} (h : NameAt fr s (s + n) m w p) :
  StringAt m (read32 m fr.argv).toNat p
  := by
  obtain ⟨rfl, harg⟩ | ⟨-, hptr, hstr, -⟩ := h
  · exact (harg.toNat hf).1
  · rw [hptr, hf.buf_toNat]
    exact hstr

/-- The first argument stays when another is stored. -/
theorem NameAt.write32 (hf : fr.Apart s n) {p : List Byte} (h : NameAt fr s (s + n) m w p)
    {j : Nat} (hj : j < MAXARGS) (hpos : 0 < j) (v : Word) :
  NameAt fr s (s + n) (Bytes.write32 m (fr.argv + 4 * j) v) w p
  := by
  obtain ⟨rfl, harg⟩ | ⟨hslash, hptr, hstr, hlen⟩ := h
  · left
    exact ⟨rfl, harg.write32 hf (by omega) hj v⟩
  · right
    have hbuf := hf.argv_buf
    refine ⟨hslash, ?_, ?_, hlen⟩
    · rw [read32_write32_of_disjoint _ _ (by omega), hptr]
    · apply hstr.congr
      intro x hx hx'
      apply write32_of_disjoint
      omega

/-- A slash is added where there is none. The other arguments stay. -/
theorem addSlash_ok (hf : fr.Apart s n) {p : List Byte} (hname : NameAt fr s (s + n) m w p)
    (hfit : 5 + w.length < BUFSIZ) :
  (addSlash fr).Ends (fr.covers s n) m (fun _ m' =>
    NameAt fr s (s + n) m' w (if p.headD 0 = SLASH then p else SLASH :: p) ∧
      ∀ i v lim, 0 < i → i < MAXARGS → ArgAt fr s (s + n) m i v lim →
        ArgAt fr s (s + n) m' i v lim) False
  := by
  have hmax : (0 : Nat) < MAXARGS := by decide
  have hstr := hname.toNat hf
  rw [addSlash, ends_bind, ends_get32]
  refine ⟨Frame.covers_argv m hmax, ?_⟩
  rw [ends_bind, ends_get8, hstr.head]
  obtain ⟨rfl, harg⟩ | ⟨hslash, hptr, hbufstr, hlen⟩ := id hname
  · obtain ⟨-, hs, he⟩ := harg.toNat hf
    rw [Nat.mul_zero, Nat.add_zero] at hs he
    refine ⟨Frame.covers_line m (by omega) (by omega), ?_⟩
    rw [ends_ite]
    constructor
    · intro hne
      have hline := hf.buf_line
      have hargv := hf.argv_buf
      have hlt : s + n < ADDRESSES := hf.line
      rw [if_neg hne, ends_bind, ends_set8]
      refine ⟨Frame.covers_buf m (Nat.le_refl _) (by simp only [BUFSIZ]; omega), ?_⟩
      have hbeside : Beside fr m (write8 m fr.argv0buf SLASH) := by
        intro x hx
        rw [write8, if_neg (by simp only [BUFSIZ] at hx; omega)]
      have hstr₁ : StringAt (write8 m fr.argv0buf SLASH) (read32 m fr.argv).toNat p := by
        apply hstr.congr
        intro x hx hx'
        apply hbeside
        omega
      rw [ends_bind]
      apply ends_strcpy hstr₁ (by omega)
      · intro m' a ha ha'
        exact Frame.covers_line m' (by omega) (by omega)
      · intro m' a ha ha'
        exact Frame.covers_buf m' (by omega) (by omega)
      · omega
      · intro m₂ hcopy hsame
        have hbeside₂ : Beside fr m m₂ := by
          apply hbeside.trans
          intro x hx
          exact hsame x (by omega)
        rw [ends_set32]
        refine ⟨Frame.covers_argv m₂ hmax, ?_⟩
        constructor
        · right
          refine ⟨rfl, read32_write32 _ _ _, ?_, ?_⟩
          · have hpath : StringAt m₂ fr.argv0buf ([SLASH] ++ p) := by
              apply StringAt.append _ (by decide) hcopy
              refine ⟨?_, trivial⟩
              rw [hsame _ (by omega), write8, if_pos rfl]
            apply hpath.congr
            intro x hx hx'
            rw [List.length_append, List.length_singleton] at hx'
            apply write32_of_disjoint
            simp only [MAXARGS] at hargv
            omega
          · rw [List.length_cons]
            omega
        · intro i v lim hi hi' hv
          exact (hbeside₂.argAt hf hi' hv).write32 hf (by omega) hmax _
    · intro heq
      rw [ends_pure, if_pos (not_not.mp heq)]
      exact ⟨hname, fun _ _ _ _ _ hv => hv⟩
  · rw [hptr, hf.buf_toNat]
    refine ⟨Frame.covers_buf m (Nat.le_refl _) (by simp only [BUFSIZ]; omega), ?_⟩
    rw [hslash, if_neg (fun hne => hne rfl), ends_pure, if_pos rfl]
    exact ⟨hname, fun _ _ _ _ _ hv => hv⟩

end Searching

/-! ### A command line -/

/-- The program that is spawned with `argv` finds the arguments `ws` there. -/
structure Passed (fr : Frame) (ws : List (List Byte)) (prog argv : Nat) (m : Memory) : Prop where
  argv_eq : argv = fr.argv
  prog_eq : prog = (read32 m fr.argv).toNat
  count : ws.length < MAXARGS
  words : ∀ i (hi : i < ws.length), StringAt m (read32 m (fr.argv + 4 * i)).toNat ws[i]
  null : read32 m (fr.argv + 4 * ws.length) = 0

/-- The outcome of a command line of the tokens `ts`: an error was reported, or nothing is to be
run, or a program is spawned with the words of the line as its arguments.  No access was
refused. -/
def Safe (fr : Frame) (ans : Answers) (ts : List Token) : Outcome Ran → Prop
  | .ret (.exited _) _ => True
  | .panic _ => True
  | .ret .returned _ => commandWords ans.opens 0 ts = some []
  | .ret (.spawned prog argv) m => ∃ w ws, commandWords ans.opens 0 ts = some (w :: ws)
      ∧ Passed fr (program ans.stats w :: ws) prog argv m
  | .fault _ => False

/-- The words of a line that is well formed, and whose files are opened, overrun an array: there
are as many words as pointers in `argv`, or the path of the program is too long for the buffer. -/
def Overruns (ans : Answers) (ts : List Token) : Prop :=
  ∃ w ws, commandWords ans.opens 0 ts = some (w :: ws) ∧ (w :: ws).length ≤ MAXARGS
    ∧ ((w :: ws).length = MAXARGS ∨ BUFSIZ ≤ 5 + w.length)

section Line

variable {fr : Frame} {s : Nat} {bs : List Byte} {m : Memory} (hf : fr.Apart s bs.length)
  (h : StringAt m s bs) (ans : Answers)
include hf h

/-- Prepared for a line, the lexer looks ahead to its first token. -/
theorem gettoken_parsing (st : Statics) :
  (gettoken st s).Ends (fr.covers s bs.length) m (fun r m' =>
    Parsing fr s (s + bs.length) m' (tokens bs) r.2.2 []) False
  := by
  have hlt := hf.line
  have hok : ∀ m a, s ≤ a → a ≤ s + bs.length → fr.covers s bs.length m a = true := by
    intro m a ha ha'
    exact Frame.covers_line m ha ha'
  rw [gettoken, if_pos hf.null, ends_bind]
  apply (_gettoken_ok hf.null h (by omega) hok st.np1 st.np2).mono _ id
  rintro ⟨nc, np1, np2⟩ m' ⟨hahead, -, -, hlater⟩
  rw [ends_pure]
  constructor
  case ahead => exact hahead
  case start => exact hlater
  case args =>
    intro i hi
    cases hi

/-- A line that does not overrun an array is run safely. -/
theorem runcmd_safe (hno : ¬ Overruns ans (tokens bs)) (st : Statics) :
  (runcmd fr ans st s).Ends (fr.covers s bs.length) m
    (fun r m' => Safe fr ans (tokens bs) (.ret r m')) True
  := by
  have hfuel : (tokens bs).length < ADDRESSES := by
    have hlen := tokens_length_le bs
    have hlt := hf.line
    omega
  rw [runcmd, ends_bind]
  apply (gettoken_parsing hf h st).mono _ False.elim
  rintro ⟨c, o, st₁⟩ m₁ hpars
  dsimp only
  rw [ends_bind]
  apply (readArgs_ok hf ans.opens hfuel hpars (Nat.zero_le _) 0).mono _ (fun _ => trivial)
  intro r m₂ hread
  cases r with
  | error msg =>
      rw [ends_pure]
      trivial
  | ok argc =>
      obtain ⟨ws, hws, rfl, hle, st₂, hargs⟩ := hread
      rw [List.nil_append] at hargs hle ⊢
      dsimp only
      cases ws with
      | nil =>
          rw [if_pos List.length_nil, ends_pure]
          exact hws
      | cons w ws =>
          have hcount : (w :: ws).length < MAXARGS := by
            by_contra hge
            exact hno ⟨w, ws, hws, hle, Or.inl (by omega)⟩
          have hfit : 5 + w.length < BUFSIZ := by
            by_contra hge
            exact hno ⟨w, ws, hws, hle, Or.inr (by omega)⟩
          have harg : ∀ i (hi : i < (w :: ws).length),
              ArgAt fr s (s + bs.length) m₂ i (w :: ws)[i] (s + bs.length + 1) := by
            intro i hi
            have hi' := hargs.args i hi
            rw [if_pos rfl] at hi'
            exact hi'
          have hpos : 0 < (w :: ws).length := Nat.succ_pos _
          rw [if_neg (Nat.ne_of_gt hpos), ends_bind]
          apply (searchPath_ok hf ans.stats (harg 0 hpos) hfit).mono _ False.elim
          rintro _ m₃ ⟨hname, hkept₃⟩
          rw [ends_bind]
          apply (addSlash_ok hf hname hfit).mono _ False.elim
          rintro _ m₄ ⟨hprog, hkept₄⟩
          rw [ends_bind, ends_set32]
          refine ⟨Frame.covers_argv m₄ hcount, ?_⟩
          rw [ends_bind, ends_get32]
          refine ⟨Frame.covers_argv _ (by decide : 0 < MAXARGS), ?_⟩
          rw [ends_pure]
          have hlen : (program ans.stats w :: ws).length = (w :: ws).length := rfl
          refine ⟨w, ws, hws, rfl, rfl, hcount, ?_, ?_⟩
          · intro i hi
            cases i with
            | zero => exact (hprog.write32 hf hcount hpos 0).toNat hf
            | succ i =>
                rw [hlen] at hi
                have hi' := hkept₄ (i + 1) _ _ (Nat.succ_pos i) (by omega)
                  (hkept₃ (i + 1) _ _ (Nat.succ_pos i) (by omega) (harg (i + 1) hi))
                exact ((hi'.write32 hf (by omega) hcount 0).toNat hf).1
          · rw [hlen, read32_write32]

/-- A line that overruns an array is refused an access. -/
theorem runcmd_faults (hover : Overruns ans (tokens bs)) (st : Statics) :
  (runcmd fr ans st s).Faults (fr.covers s bs.length) m
  := by
  obtain ⟨w, ws, hws, hle, hover⟩ := hover
  have hfits : Fits ans.opens 0 (tokens bs) ([] : List (List Byte)).length :=
    ⟨w :: ws, hws, by rw [List.length_nil, Nat.zero_add]; exact hle⟩
  have hfuel : (tokens bs).length < ADDRESSES := by
    have hlen := tokens_length_le bs
    have hlt := hf.line
    omega
  rw [runcmd]
  apply (gettoken_parsing hf h st).faults
  rintro ⟨c, o, st₁⟩ m₁ hpars
  dsimp only
  apply ((readArgs_ok hf ans.opens hfuel hpars (Nat.zero_le _) 0).mono (fun _ _ hr => hr)
    (fun hno => hno hfits)).faults
  intro r m₂ hread
  cases r with
  | error msg => exact (hread hfits).elim
  | ok argc =>
      obtain ⟨ws', hws', rfl, -, st₂, hargs⟩ := hread
      obtain rfl : w :: ws = ws' := Option.some.inj (hws.symm.trans hws')
      rw [List.nil_append] at hargs ⊢
      have hpos : 0 < (w :: ws).length := Nat.succ_pos _
      have harg := hargs.args 0 hpos
      rw [if_pos rfl] at harg
      dsimp only
      rw [if_neg (Nat.ne_of_gt hpos)]
      by_cases hlong : BUFSIZ ≤ 5 + w.length
      · apply Faults.bind
        exact searchPath_faults hf ans.stats harg hlong
      · have hcount : (w :: ws).length = MAXARGS := hover.resolve_right hlong
        have hfit : 5 + w.length < BUFSIZ := Nat.lt_of_not_le hlong
        apply (searchPath_ok hf ans.stats harg hfit).faults
        rintro _ m₃ ⟨hname, -⟩
        apply (addSlash_ok hf hname hfit).faults
        intro _ m₄ _
        rw [hcount]
        apply Faults.bind
        exact faults_set32 (hf.argv_end m₄)

/-- A command line is run safely, wherever the arrays lie and whatever the file server answers,
if and only if its words do not overrun an array. -/
theorem runcmd_safe_iff (st : Statics) :
  Safe fr ans (tokens bs) ((runcmd fr ans st s).run (fr.covers s bs.length) m)
    ↔ ¬ Overruns ans (tokens bs)
  := by
  constructor
  · intro hsafe hover
    obtain ⟨a, ha⟩ := runcmd_faults hf h ans hover st
    rw [ha] at hsafe
    exact hsafe
  · intro hno
    obtain ⟨r, m', hrun, hsafe⟩ | ⟨msg, hrun, -⟩ := (runcmd_safe hf h ans hno st).cases
    · rw [hrun]
      exact hsafe
    · rw [hrun]
      trivial

end Line

/-! ### Lines that overrun an array, and lines that do not -/

/-- The arrays at fixed places, behind the line. -/
def someFrame : Frame where
  argv := 0x2000
  argv0buf := 0x3000

theorem someFrame_apart {n : Nat} (h : n ≤ 1023) :
  someFrame.Apart 0x1000 n
  := by
  constructor
  case null => decide
  case buf_ne => decide
  case line =>
    simp only [ADDRESSES]
    omega
  case argv => decide
  case buf => decide
  case argv_buf => decide
  case argv_line =>
    right
    simp only [someFrame]
    omega
  case buf_line =>
    right
    simp only [someFrame]
    omega

/-- The file server opens every file, and there is no program in a directory of `PATH`. -/
def someAnswers : Answers where
  opens := fun _ => 3
  stats := fun _ => -1

theorem commandWords_replicate (opens : Nat → Int) (k j : Nat) (w : List Byte) :
  commandWords opens k (List.replicate j (.word w)) = some (List.replicate j w)
  := by
  induction j with
  | zero => rfl
  | succ j ih =>
      rw [List.replicate_succ, commandWords, ih, List.replicate_succ]
      rfl

/-- The line `a a ... a ` of `j` words. -/
def manyWords (j : Nat) : List Byte :=
  (List.replicate j [0x61, 0x20]).flatten

theorem tokens_manyWords (j : Nat) :
  tokens (manyWords j) = List.replicate j (.word [0x61])
  := by
  induction j with
  | zero =>
      rw [manyWords, List.replicate_zero, List.flatten_nil, tokens]
      rfl
  | succ j ih =>
      have hline : manyWords (j + 1) = [0x61] ++ ([0x20] ++ manyWords j) := by
        rw [manyWords, List.replicate_succ, List.flatten_cons]
        rfl
      have hword : ∀ c ∈ [(0x61 : Byte)], ordinary c = true := by decide
      rw [hline, tokens_word hword rfl, tokens_whitespace (by decide), ih, List.replicate_succ]

theorem line_at {bs : List Byte} (h : 0 ∉ bs) :
  StringAt (writeBytes (fun _ => 0) 0x1000 bs) 0x1000 bs
  := by
  constructor
  case bytes => exact bytesAt_writeBytes _ _ _
  case zero => exact writeBytes_of_disjoint _ (by omega)
  case notMem => exact h

/-- A line of two words is run safely. -/
theorem runcmd_safe_two :
  Safe someFrame someAnswers (tokens (manyWords 2))
    ((runcmd someFrame someAnswers {} 0x1000).run (someFrame.covers 0x1000 (manyWords 2).length)
      (writeBytes (fun _ => 0) 0x1000 (manyWords 2)))
  := by
  apply (runcmd_safe_iff (someFrame_apart (by decide)) (line_at (by decide)) someAnswers {}).mpr
  rintro ⟨w, ws, hws, -, hover⟩
  rw [tokens_manyWords, commandWords_replicate] at hws
  cases hws
  revert hover
  decide

/-- A line of sixteen words is not. -/
theorem runcmd_unsafe_sixteen :
  ¬ Safe someFrame someAnswers (tokens (manyWords 16))
    ((runcmd someFrame someAnswers {} 0x1000).run (someFrame.covers 0x1000 (manyWords 16).length)
      (writeBytes (fun _ => 0) 0x1000 (manyWords 16)))
  := by
  have hover : Overruns someAnswers (tokens (manyWords 16)) := by
    use [0x61], List.replicate 15 [0x61]
    rw [tokens_manyWords]
    exact ⟨commandWords_replicate _ 0 16 _, by decide, Or.inl (by decide)⟩
  obtain ⟨a, ha⟩ := runcmd_faults (someFrame_apart (by decide)) (line_at (by decide)) someAnswers
    hover {}
  rw [ha]
  exact id

end Sh

end Jos
