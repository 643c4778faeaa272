import Mathlib.Data.List.DropRight
import Mathlib.Data.List.GetD
import Jos.Lib.Bytes

/-!
# The shell of the root tree

`user/sh.c` takes a command line apart with three functions: `ParseLine` stores the command and the
rest of the line in two arrays of characters, `GetSz` computes the number of arguments the
program is told it has, and `CheckAnd` looks whether the shell shall wait for it.

The three do not agree on every line.  The arrays hold two strings at most, while `GetSz` counts
every space and tab of the line; and of the characters behind the last argument `ParseLine`
clears those that are `&` and leaves the spaces.
-/

namespace Jos

namespace Root

namespace Sh

open Bytes

/-! ### The source -/

def SPACE : Byte := 0x20
def TAB : Byte := 0x09
def NEWLINE : Byte := 0x0A

/-- The character `'&'`. -/
def AND : Byte := 0x26

/-- The number of characters in a row of `y1`. -/
def LINESIZE : Nat := 1024

/-- The loop of `CheckAnd` over the characters below `i`, from the last one down. -/
def checkAndFrom (inp : List Byte) : Nat → Bool
  | 0 => false
  | i + 1 =>
      if inp.getD i 0 = AND then true
      else if inp.getD i 0 = SPACE then checkAndFrom inp i
      else false

/-- Is the last character that is not a space a `&`? -/
def checkAnd (inp : List Byte) : Bool :=
  checkAndFrom inp inp.length

/-- The loop that counts spaces and tabs. -/
def countSpaces (inp : List Byte) : Int :=
  inp.foldl (fun ans c => if c = SPACE ∨ c = TAB then ans + 1 else ans) 0

/-- The number of arguments that a program is told. -/
def getSz (inp : List Byte) : Int :=
  let ans := countSpaces inp
  let ans := if checkAnd inp then ans - 1 else ans
  ans + 1

/-- The number of strings that a line is split into. -/
def getSize (inp : List Byte) : Nat :=
  if countSpaces inp = 0 then 1 else 2

/-- The array `y1`. -/
abbrev Parsed := Nat → Nat → Byte

/-- Copy the `n` characters of `inp` from `j` on to the row `i`, which starts with the character
`start`. -/
def copyChars (inp : List Byte) (start i : Nat) : Nat → Nat → Parsed → Parsed
  | 0, _, parsed => parsed
  | n + 1, j, parsed =>
      copyChars inp start i n (j + 1)
        (Function.update parsed i (Function.update (parsed i) (j - start) (inp.getD j 0)))

/-- The variables of the loop that looks for the end of the command. -/
structure Scan where
  present : Nat
  start : Nat
  stop : Nat
  parsed : Parsed

/-- One round of that loop. -/
def Scan.step (inp : List Byte) (i : Nat) (s : Scan) : Scan :=
  let c := inp.getD i 0
  let s :=
    if c = SPACE ∨ c = TAB ∨ c = NEWLINE then
      { s with
        parsed := copyChars inp s.start s.present (s.stop - s.start) s.start s.parsed
        present := s.present + 1
        start := s.stop + 1 }
    else
      s
  { s with stop := s.stop + 1 }

/-- The loop, with `n` characters left from `i` on. It ends behind the command. -/
def Scan.run (inp : List Byte) : Nat → Nat → Scan → Scan
  | 0, _, s => s
  | n + 1, i, s => if s.present = 0 then Scan.run inp n (i + 1) (s.step inp i) else s

/-- Clear every `&` among the characters below `n` of a row, from the last one down to the first that
is neither `&` nor a space. -/
def clearAnds : Nat → (Nat → Byte) → Nat → Byte
  | 0, row => row
  | j + 1, row =>
      if row j = AND then clearAnds j (Function.update row j 0)
      else if row j = 0 ∨ row j = SPACE then clearAnds j row
      else row

/-- Split a line, and return the number of strings and the array. -/
def parseLine (inp : List Byte) : Nat × Parsed :=
  let size := getSize inp
  let s := Scan.run inp inp.length 0 ⟨0, 0, 0, fun _ _ => 0⟩
  let parsed := copyChars inp s.start (size - 1) (inp.length - s.start) s.start s.parsed
  (size, Function.update parsed (size - 1) (clearAnds LINESIZE (parsed (size - 1))))

/-- The string in a row of the array. -/
def rowString (row : Nat → Byte) : List Byte :=
  ((List.range LINESIZE).map row).takeWhile (· ≠ 0)

/-- The commands, each with the number by which `sys_envreplace` knows the program. -/
def COMMANDS : List (List Byte × Nat) :=
  [([0x66, 0x61, 0x63, 0x74, 0x6F, 0x72, 0x69, 0x61, 0x6C], 1), -- factorial
    ([0x65, 0x63, 0x68, 0x6F], 5), -- echo
    ([0x76, 0x6D], 6), -- vm
    ([0x66, 0x69, 0x62, 0x6F, 0x6E, 0x61, 0x63, 0x63, 0x69], 2), -- fibonacci
    ([0x64, 0x61, 0x74, 0x65], 3), -- date
    ([0x63, 0x61, 0x6C], 4)] -- cal

/-- The string `"exit"`. -/
def EXIT : List Byte := [0x65, 0x78, 0x69, 0x74]

/-- What the shell does with a line. -/
inductive Turn where
  /-- It ends. -/
  | exits
  /-- There is no such command. -/
  | ignores
  /-- A child calls `sys_envreplace` with the number of a program, an array that holds `argv`, and
  the count `argc`. The shell waits for the child if `waits`. -/
  | runs (program : Nat) (argv : List (List Byte)) (argc : Int) (waits : Bool)

/-- One round of the loop of `umain`. -/
def turn (buf : List Byte) : Turn :=
  let needbackground := checkAnd buf
  let (x1, y1) := parseLine buf
  let actsz := getSz buf
  if rowString (y1 0) = EXIT then
    .exits
  else
    match COMMANDS.lookup (rowString (y1 0)) with
    | none => .ignores
    | some program =>
        .runs program ((List.range x1).map (fun i => rowString (y1 i))) actsz (!needbackground)

/-! ### What a line says -/

/-- Whether a character separates words. -/
def separates (c : Byte) : Bool :=
  c = SPACE ∨ c = TAB

/-- The first word of a line. -/
def firstWord (line : List Byte) : List Byte :=
  (line.dropWhile separates).takeWhile (fun c => !separates c)

/-- What follows the first word of a line, and the character that ends it. -/
def restOf (line : List Byte) : List Byte :=
  ((line.dropWhile separates).dropWhile (fun c => !separates c)).tail

/-- A space, or the character `&`. -/
def blank (c : Byte) : Bool :=
  c = SPACE ∨ c = AND

/-- The line, without the spaces at its end, ends in `&`. -/
def EndsInAnd (line : List Byte) : Prop :=
  (line.rdropWhile (· = SPACE)).getLast? = some AND

/-- The functions of the shell agree on a line, and take it for what it says. -/
structure Understood (line : List Byte) : Prop where
  /-- The program is told as many arguments as there are strings. -/
  argc : getSz line = (parseLine line).1
  /-- The first string is the first word of the line. -/
  word : rowString ((parseLine line).2 0) = firstWord line
  /-- The second one is the rest of the line, without the spaces and `&` at its end. -/
  rest : (parseLine line).1 = 2 →
    rowString ((parseLine line).2 1) = (restOf line).rdropWhile blank
  /-- A program is told no more arguments than it is given, and the shell does not wait for it if
  there is a `&` at the end of the line. -/
  child : ∀ program argv argc waits, turn line = .runs program argv argc waits →
    argc ≤ argv.length ∧ (waits = false ↔ EndsInAnd line)

/-- No separator in front of the first word; and one separator at most where the line does not end in
`&`, but two where it does, and there a `&` comes first among the spaces and `&` at the end of the
rest. -/
def Simple (line : List Byte) : Prop :=
  ((∀ c ∈ line.head?, separates c = false) ∨ line.length = 1) ∧
    ((¬ EndsInAnd line ∧ line.countP separates ≤ 1) ∨
      (EndsInAnd line ∧ line.countP separates = 2
        ∧ ((restOf line).rtakeWhile blank).head? = some AND))

/-! ### Counting -/

variable {line w rest : List Byte} {c : Byte}

theorem countSpaces_eq (inp : List Byte) :
  countSpaces inp = inp.countP separates
  := by
  have hfold : ∀ (n : Int), inp.foldl (fun ans c => if c = SPACE ∨ c = TAB then ans + 1 else ans) n
      = n + inp.countP separates := by
    induction inp with
    | nil => simp
    | cons c inp ih =>
        intro n
        rw [List.foldl_cons, ih, List.countP_cons]
        by_cases hc : c = SPACE ∨ c = TAB
        · simp [hc, separates]
          omega
        · simp [hc, separates]
  rw [countSpaces, hfold, Int.zero_add]

theorem getSz_eq (inp : List Byte) :
  getSz inp = inp.countP separates + 1 - if checkAnd inp then 1 else 0
  := by
  rw [getSz, countSpaces_eq]
  split
  · omega
  · omega

theorem getSize_eq (inp : List Byte) :
  getSize inp = if inp.countP separates = 0 then 1 else 2
  := by
  rw [getSize, countSpaces_eq]
  simp only [Int.natCast_eq_zero]

/-- The loop of `CheckAnd` looks at the first characters only. -/
theorem checkAndFrom_append (inp rest : List Byte) {n : Nat} (hn : n ≤ inp.length) :
  checkAndFrom (inp ++ rest) n = checkAndFrom inp n
  := by
  induction n with
  | zero => rfl
  | succ n ih =>
      have hget : (inp ++ rest).getD n 0 = inp.getD n 0 := by
        apply List.getD_append
        omega
      rw [checkAndFrom, checkAndFrom, hget, ih (by omega)]

theorem checkAnd_iff (inp : List Byte) :
  checkAnd inp = true ↔ EndsInAnd inp
  := by
  induction inp using List.reverseRecOn with
  | nil => simp [checkAnd, checkAndFrom, EndsInAnd]
  | append_singleton inp c ih =>
      have hget : (inp ++ [c]).getD inp.length 0 = c := by simp
      rw [checkAnd, List.length_append, List.length_singleton, checkAndFrom, hget,
        checkAndFrom_append _ _ (Nat.le_refl _), EndsInAnd, List.rdropWhile_concat]
      by_cases hand : c = AND
      · subst hand
        simp [AND, SPACE]
      · by_cases hspace : c = SPACE
        · rw [checkAnd, EndsInAnd] at ih
          rw [if_neg hand, if_pos hspace, ih]
          simp [hspace]
        · simp [hand, hspace]

/-! ### The two rows -/

/-- What is copied, and what stays. -/
theorem copyChars_eq (inp : List Byte) {start j : Nat} (h : start ≤ j) (i n : Nat) (parsed : Parsed) :
  copyChars inp start i n j parsed = Function.update parsed i (fun k =>
    if j - start ≤ k ∧ k < j - start + n then inp.getD (start + k) 0 else parsed i k)
  := by
  induction n generalizing j parsed with
  | zero =>
      rw [copyChars]
      symm
      convert Function.update_eq_self i parsed using 2
      funext k
      rw [if_neg]
      omega
  | succ n ih =>
      rw [copyChars, ih (by omega), Function.update_idem]
      congr 1
      funext k
      rw [Function.update_self]
      by_cases hk : k = j - start
      · subst hk
        rw [if_neg (by omega), Function.update_self, if_pos (by omega), Nat.add_sub_cancel' h]
      · rw [Function.update_of_ne hk]
        by_cases hin : j - start ≤ k ∧ k < j - start + (n + 1)
        · rw [if_pos hin, if_pos (by omega)]
        · rw [if_neg hin, if_neg (by omega)]

/-- A row that holds the characters of a list, and zeros behind them. -/
def rowOf (l : List Byte) : Nat → Byte :=
  fun j => l.getD j 0

/-- Copying to a row of zeros. -/
theorem copyChars_rowOf (inp : List Byte) {start i n : Nat} {parsed : Parsed}
    (hzero : parsed i = fun _ => 0) :
  copyChars inp start i n start parsed
    = Function.update parsed i (rowOf ((inp.drop start).take n))
  := by
  rw [copyChars_eq inp (Nat.le_refl start), hzero]
  congr 1
  funext k
  rw [rowOf, Nat.sub_self, Nat.zero_add, List.getD_eq_getElem?_getD, List.getD_eq_getElem?_getD,
    List.getElem?_take]
  by_cases hk : k < n
  · rw [if_pos (by omega), if_pos hk, List.getElem?_drop]
  · rw [if_neg (by omega), if_neg hk]
    rfl

/-- The loop passes characters that are no separators. -/
theorem Scan.run_pass (pre : List Byte) {w : List Byte} (hw : ∀ c ∈ w, separates c = false)
    (hn : NEWLINE ∉ w) (rest : List Byte) (n : Nat) (parsed : Parsed) :
  Scan.run (pre ++ w ++ rest) (w.length + n) pre.length ⟨0, 0, pre.length, parsed⟩
    = Scan.run (pre ++ w ++ rest) n (pre ++ w).length ⟨0, 0, (pre ++ w).length, parsed⟩
  := by
  induction w generalizing pre with
  | nil => simp
  | cons c w ih =>
      have hc := hw c List.mem_cons_self
      have hget : (pre ++ c :: w ++ rest).getD pre.length 0 = c := by simp
      have hcn : c ≠ NEWLINE := by
        rintro rfl
        exact hn List.mem_cons_self
      have hno : ¬ (c = SPACE ∨ c = TAB ∨ c = NEWLINE) := by
        rintro (h | h | h)
        · simp [separates, h] at hc
        · simp [separates, h] at hc
        · exact hcn h
      have hstep : Scan.step (pre ++ c :: w ++ rest) pre.length ⟨0, 0, pre.length, parsed⟩
          = ⟨0, 0, pre.length + 1, parsed⟩ := by
        simp only [Scan.step, hget, if_neg hno]
      have hrest := ih (pre ++ [c]) (fun d hd => hw d (List.mem_cons_of_mem c hd))
        (fun hd => hn (List.mem_cons_of_mem c hd))
      simp only [List.append_assoc, List.singleton_append, List.length_append, List.length_singleton]
        at hrest
      rw [List.length_cons, Nat.add_right_comm, Scan.run, if_pos rfl, hstep]
      simp only [List.append_assoc, List.cons_append, List.length_append, List.length_cons] at hrest ⊢
      apply hrest

/-- The loop ends with the first separator. -/
theorem Scan.run_stop (hw : ∀ c ∈ w, separates c = false) (hn : NEWLINE ∉ w)
    (hc : separates c = true) (rest : List Byte) (parsed : Parsed) :
  Scan.run (w ++ c :: rest) (w ++ c :: rest).length 0 ⟨0, 0, 0, parsed⟩
    = ⟨1, w.length + 1, w.length + 1, copyChars (w ++ c :: rest) 0 0 w.length 0 parsed⟩
  := by
  have hpass := Scan.run_pass [] hw hn (c :: rest) (rest.length + 1) parsed
  rw [List.nil_append, List.length_nil] at hpass
  have hget : (w ++ c :: rest).getD w.length 0 = c := by simp
  have hsep : c = SPACE ∨ c = TAB ∨ c = NEWLINE := by
    rw [separates, decide_eq_true_eq] at hc
    apply hc.imp_right Or.inl
  have hstep : Scan.step (w ++ c :: rest) w.length ⟨0, 0, w.length, parsed⟩
      = ⟨1, w.length + 1, w.length + 1, copyChars (w ++ c :: rest) 0 0 w.length 0 parsed⟩ := by
    simp only [Scan.step, hget, if_pos hsep, Nat.sub_zero, Nat.zero_add]
  rw [List.length_append, List.length_cons, hpass, Scan.run,
    if_pos rfl, hstep]
  cases rest.length with
  | zero => rfl
  | succ n => rw [Scan.run, if_neg Nat.one_ne_zero]

/-- A line without separators is stored in the first row. -/
theorem parseLine_single (h : ∀ c ∈ line, separates c = false) (hn : NEWLINE ∉ line) :
  parseLine line = (1, Function.update (fun _ _ => 0) 0 (clearAnds LINESIZE (rowOf line)))
  := by
  have hsize : getSize line = 1 := by
    rw [getSize_eq, if_pos]
    rw [List.countP_eq_zero]
    intro c hc
    rw [h c hc]
    decide
  have hscan := Scan.run_pass [] h hn [] 0 (fun _ _ => 0)
  rw [List.nil_append, List.append_nil, Nat.add_zero, List.length_nil] at hscan
  rw [parseLine, hsize, hscan]
  simp only [Scan.run]
  rw [copyChars_rowOf line rfl]
  simp

/-- A line with separators is stored in both rows, without the first separator. -/
theorem parseLine_split (hw : ∀ c ∈ w, separates c = false) (hn : NEWLINE ∉ w)
    (hc : separates c = true) (rest : List Byte) :
  (parseLine (w ++ c :: rest)).1 = 2
    ∧ (parseLine (w ++ c :: rest)).2 0 = rowOf w
    ∧ (parseLine (w ++ c :: rest)).2 1 = clearAnds LINESIZE (rowOf rest)
  := by
  have hsize : getSize (w ++ c :: rest) = 2 := by
    rw [getSize_eq, if_neg]
    rw [List.countP_eq_zero]
    intro hall
    apply hall c (List.mem_append_right w List.mem_cons_self) hc
  have hfirst : copyChars (w ++ c :: rest) 0 0 w.length 0 (fun _ _ => 0)
      = Function.update (fun _ _ => 0) 0 (rowOf w) := by
    rw [copyChars_rowOf _ rfl]
    simp
  have hdrop : ((w ++ c :: rest).drop (w.length + 1)).take
      ((w ++ c :: rest).length - (w.length + 1)) = rest := by
    rw [← List.drop_drop, List.drop_left, List.drop_one, List.tail_cons]
    apply List.take_of_length_le
    simp
    omega
  rw [parseLine, hsize, Scan.run_stop hw hn hc, hfirst]
  simp only
  rw [copyChars_rowOf _ (by simp), hdrop]
  simp

/-! ### The strings -/

/-- What is left of a string when every `&` in the blanks at its end was replaced by a zero. -/
def cut (l : List Byte) : List Byte :=
  l.rdropWhile blank ++ (l.rtakeWhile blank).takeWhile (· ≠ AND)

/-- The loop changes blanks only: from `k` on the row has blanks and zeros, and something else in
front of them. -/
theorem clearAnds_eq {row : Nat → Byte} {k n : Nat} (hk : k ≤ n)
    (hblank : ∀ j, k ≤ j → j < n → row j = 0 ∨ blank (row j) = true)
    (hstop : k = 0 ∨ ¬ (row (k - 1) = 0 ∨ blank (row (k - 1)) = true)) :
  clearAnds n row = fun j => if k ≤ j ∧ j < n ∧ row j = AND then 0 else row j
  := by
  induction n generalizing row with
  | zero =>
      rw [clearAnds]
      funext j
      rw [if_neg]
      omega
  | succ n ih =>
      by_cases hlast : k = n + 1
      · subst hlast
        rw [Nat.add_sub_cancel] at hstop
        rw [clearAnds, if_neg, if_neg]
        · funext j
          rw [if_neg]
          omega
        · rintro (h | h)
          · apply hstop.resolve_left (Nat.succ_ne_zero n)
            left
            apply h
          · apply hstop.resolve_left (Nat.succ_ne_zero n)
            right
            simp [blank, h]
        · intro h
          apply hstop.resolve_left (Nat.succ_ne_zero n)
          right
          simp [blank, h]
      · rw [clearAnds]
        have hkn : k ≤ n := by omega
        by_cases hand : row n = AND
        · have hsame : ∀ j, j ≠ n → Function.update row n 0 j = row j :=
            fun j hj => Function.update_of_ne hj 0 row
          rw [if_pos hand, ih hkn]
          · funext j
            by_cases hj : j = n
            · subst hj
              rw [Function.update_self, if_neg (by omega), if_pos ⟨hkn, Nat.lt_succ_self j, hand⟩]
            · rw [hsame j hj]
              by_cases hin : k ≤ j ∧ j < n ∧ row j = AND
              · rw [if_pos hin, if_pos ⟨hin.1, by omega, hin.2.2⟩]
              · rw [if_neg hin, if_neg]
                rintro ⟨h1, h2, h3⟩
                apply hin ⟨h1, by omega, h3⟩
          · intro j hj hj'
            rw [hsame j (by omega)]
            apply hblank j hj (by omega)
          · rcases hstop with h | h
            · left
              apply h
            · by_cases hzero : k = 0
              · left
                apply hzero
              · right
                rw [hsame (k - 1) (by omega)]
                apply h
        · have hrow := hblank n hkn (Nat.lt_succ_self n)
          have hspace : row n = 0 ∨ row n = SPACE := by
            simpa [blank, hand] using hrow
          rw [if_neg hand, if_pos hspace, ih hkn _ hstop]
          · funext j
            by_cases hj : j = n
            · subst hj
              rw [if_neg (by omega), if_neg]
              rintro ⟨-, -, h⟩
              apply hand h
            · congr 1
              simp only [eq_iff_iff]
              constructor
              · rintro ⟨h1, h2, h3⟩
                refine ⟨h1, by omega, h3⟩
              · rintro ⟨h1, h2, h3⟩
                refine ⟨h1, by omega, h3⟩
          · intro j hj hj'
            apply hblank j hj (by omega)

theorem takeWhile_append_zeros (l : List Byte) (n : Nat) :
  (l ++ List.replicate n 0).takeWhile (· ≠ 0) = l.takeWhile (· ≠ 0)
  := by
  induction l with
  | nil =>
      cases n with
      | zero => rfl
      | succ n => simp [List.replicate_succ]
  | cons c l ih =>
      rw [List.cons_append, List.takeWhile_cons, List.takeWhile_cons, ih]

theorem rowString_rowOf {l : List Byte} (hlen : l.length < LINESIZE) :
  rowString (rowOf l) = l.takeWhile (· ≠ 0)
  := by
  have hmap : (List.range LINESIZE).map (rowOf l) = l ++ List.replicate (LINESIZE - l.length) 0 := by
    apply List.ext_getElem
    · simp
      omega
    · intro i h1 h2
      rw [List.getElem_map, List.getElem_range, rowOf]
      by_cases hi : i < l.length
      · rw [List.getElem_append_left hi, List.getD_eq_getElem _ _ hi]
      · rw [List.getElem_append_right (by omega), List.getElem_replicate,
          List.getD_eq_default _ _ (by omega)]
  rw [rowString, hmap, takeWhile_append_zeros]

/-- What is stored in a row is a string again. -/
theorem rowString_self {l : List Byte} (h0 : 0 ∉ l) (hlen : l.length < LINESIZE) :
  rowString (rowOf l) = l
  := by
  rw [rowString_rowOf hlen, List.takeWhile_eq_self_iff]
  intro c hc
  rw [decide_eq_true_eq]
  rintro rfl
  apply h0 hc

/-- What becomes of a blank. -/
def clearAnd (c : Byte) : Byte :=
  if c = AND then 0 else c

/-- The loop clears the blanks at the end of what is in the row. -/
theorem clearAnds_append {t r : List Byte} {n : Nat} (hr : ∀ c ∈ r, blank c = true)
    (ht : ∀ h : t ≠ [], ¬ blank (t.getLast h) = true) (h0 : 0 ∉ t) (hn : (t ++ r).length ≤ n) :
  clearAnds n (rowOf (t ++ r)) = rowOf (t ++ r.map clearAnd)
  := by
  rw [List.length_append] at hn
  have hback : ∀ j, t.length ≤ j → rowOf (t ++ r) j = r.getD (j - t.length) 0 :=
    fun j hj => List.getD_append_right _ _ _ _ hj
  rw [@clearAnds_eq _ t.length _ (by omega)]
  · funext j
    by_cases hj : j < t.length
    · rw [if_neg (by omega), rowOf, rowOf, List.getD_append _ _ _ _ hj, List.getD_append _ _ _ _ hj]
    · rw [Nat.not_lt] at hj
      rw [hback j hj, rowOf, List.getD_append_right _ _ _ _ hj]
      by_cases hin : j - t.length < r.length
      · rw [List.getD_eq_getElem _ _ hin, List.getD_eq_getElem _ _ (by simpa using hin),
          List.getElem_map, clearAnd]
        congr 1
        simp only [eq_iff_iff]
        constructor
        · rintro ⟨-, -, h⟩
          apply h
        · intro h
          refine ⟨hj, ?_, h⟩
          omega
      · have hzero : (0 : Byte) ≠ AND := by decide
        rw [List.getD_eq_default _ _ (by omega), List.getD_eq_default _ _ (by simpa using hin),
          if_neg]
        rintro ⟨-, -, h⟩
        apply hzero h
  · intro j hj _
    rw [hback j hj]
    by_cases hin : j - t.length < r.length
    · right
      rw [List.getD_eq_getElem _ _ hin]
      apply hr _ (List.getElem_mem hin)
    · left
      apply List.getD_eq_default
      omega
  · by_cases hnil : t = []
    · left
      rw [hnil]
      rfl
    · right
      have hpos := List.length_pos_iff.mpr hnil
      have hlast : rowOf (t ++ r) (t.length - 1) = t.getLast hnil := by
        rw [rowOf, List.getD_append _ _ _ _ (by omega), List.getLast_eq_getElem,
          List.getD_eq_getElem]
      rw [hlast]
      rintro (h | h)
      · apply h0
        rw [← h]
        apply List.getLast_mem
      · apply ht hnil h

theorem takeWhile_map_clearAnd {r : List Byte} (h0 : 0 ∉ r) :
  (r.map clearAnd).takeWhile (· ≠ 0) = r.takeWhile (· ≠ AND)
  := by
  induction r with
  | nil => rfl
  | cons c r ih =>
      rw [List.mem_cons, not_or] at h0
      rw [List.map_cons, List.takeWhile_cons, List.takeWhile_cons, ih h0.2, clearAnd]
      by_cases hand : c = AND
      · simp [hand]
      · have hc : ¬ c = 0#8 := Ne.symm h0.1
        simp [hand, hc]

/-- A row whose `&` were cleared holds the string up to the first of them. -/
theorem rowString_clearAnds {l : List Byte} (h0 : 0 ∉ l) (hlen : l.length < LINESIZE) :
  rowString (clearAnds LINESIZE (rowOf l)) = cut l
  := by
  have happend : l.rdropWhile blank ++ l.rtakeWhile blank = l := List.rdropWhile_append_rtakeWhile
  have hlens := congrArg List.length happend
  have hfront : 0 ∉ l.rdropWhile blank :=
    fun h => h0 ((List.rdropWhile_prefix blank l).subset h)
  have hback : 0 ∉ l.rtakeWhile blank :=
    fun h => h0 ((List.rtakeWhile_suffix blank l).subset h)
  have hle : (l.rdropWhile blank ++ l.rtakeWhile blank).length ≤ LINESIZE := by
    rw [happend]
    omega
  have hclear := clearAnds_append (fun c hc => List.mem_rtakeWhile_imp hc)
    (List.rdropWhile_last_not blank l) hfront hle
  rw [happend] at hclear
  have hzero : ∀ c ∈ l.rdropWhile blank, decide (c ≠ 0) = true := by
    intro c hc
    rw [decide_eq_true_eq]
    rintro rfl
    apply hfront hc
  rw [List.length_append] at hlens
  rw [hclear, rowString_rowOf, List.takeWhile_append_of_pos hzero, takeWhile_map_clearAnd hback, cut]
  rw [List.length_append, List.length_map]
  omega

/-- Nothing is left of the blanks at the end if and only if there are none, or a `&` comes first. -/
theorem cut_eq_iff (l : List Byte) :
  cut l = l.rdropWhile blank ↔
    l.rtakeWhile blank = [] ∨ (l.rtakeWhile blank).head? = some AND
  := by
  rw [cut, List.append_right_eq_self]
  cases l.rtakeWhile blank with
  | nil => simp
  | cons c r => simp [List.takeWhile_cons]

/-! ### Lines -/

/-- A line has no separators, or one that comes first. -/
theorem line_cases (line : List Byte) :
  (∀ c ∈ line, separates c = false) ∨
    ∃ w c rest, line = w ++ c :: rest ∧ (∀ c ∈ w, separates c = false) ∧ separates c = true
  := by
  induction line with
  | nil => simp
  | cons b line ih =>
      cases hb : separates b with
      | true =>
          right
          use [], b, line
          simp [hb]
      | false =>
          rcases ih with h | ⟨w, c, rest, rfl, hw, hc⟩
          · left
            simpa [hb] using h
          · right
            use b :: w, c, rest
            simpa [hb, hc] using hw

theorem countP_single (h : ∀ c ∈ line, separates c = false) :
  line.countP separates = 0
  := by
  rw [List.countP_eq_zero]
  intro c hc
  rw [h c hc]
  decide

theorem countP_split (hw : ∀ c ∈ w, separates c = false) (hc : separates c = true) (rest : List Byte) :
  (w ++ c :: rest).countP separates = rest.countP separates + 1
  := by
  rw [List.countP_append, countP_single hw, List.countP_cons_of_pos hc, Nat.zero_add]

/-- The words of a line that starts with one. -/
theorem firstWord_split (hw : ∀ c ∈ w, separates c = false) (hne : w ≠ []) (hc : separates c = true)
    (rest : List Byte) :
  firstWord (w ++ c :: rest) = w ∧ restOf (w ++ c :: rest) = rest
  := by
  have hdrop : (w ++ c :: rest).dropWhile separates = w ++ c :: rest := by
    cases w with
    | nil => apply (hne rfl).elim
    | cons b w => simp [hw b List.mem_cons_self]
  have hw' : ∀ c ∈ w, (!separates c) = true := by
    intro b hb
    rw [hw b hb]
    rfl
  constructor
  · rw [firstWord, hdrop, List.takeWhile_append_of_pos hw', List.takeWhile_cons, hc]
    simp
  · rw [restOf, hdrop, List.dropWhile_append_of_pos hw', List.dropWhile_cons, hc]
    simp

theorem firstWord_single (h : ∀ c ∈ line, separates c = false) :
  firstWord line = line
  := by
  have hdrop : line.dropWhile separates = line := by
    cases line with
    | nil => rfl
    | cons b w => simp [h b List.mem_cons_self]
  rw [firstWord, hdrop, List.takeWhile_eq_self_iff]
  intro c hc
  rw [h c hc]
  rfl

/-- The shell tells a program the number that `GetSz` computed, and does not wait for it if the line
ends in `&`. -/
theorem turn_child {program : Nat} {argv : List (List Byte)} {argc : Int} {waits : Bool}
    (h : turn line = .runs program argv argc waits) :
  argc = getSz line ∧ argv.length = (parseLine line).1 ∧ (waits = false ↔ EndsInAnd line)
  := by
  rw [← checkAnd_iff]
  simp only [turn] at h
  split at h
  · cases h
  · split at h
    · cases h
    · cases h
      simp

/-- A line that ends in `&` has blanks at its end. -/
theorem EndsInAnd.blanks (h : EndsInAnd line) :
  line ≠ [] ∧ ∀ hne : line ≠ [], blank (line.getLast hne) = true
  := by
  induction line using List.reverseRecOn with
  | nil => simp [EndsInAnd] at h
  | append_singleton l c _ =>
      constructor
      · simp
      · intro _
        rw [EndsInAnd, List.rdropWhile_concat] at h
        rw [List.getLast_append_singleton]
        by_cases hspace : c = SPACE
        · simp [blank, hspace]
        · simp only [hspace, decide_false, Bool.false_eq_true, if_false, List.getLast?_concat,
            Option.some.injEq] at h
          simp [blank, h]

theorem EndsInAnd.mem (h : EndsInAnd line) :
  AND ∈ line
  := (List.rdropWhile_prefix _ line).subset (List.mem_of_getLast? h)

/-- A line that starts with a separator has no first word if and only if nothing else is in it. -/
theorem firstWord_eq_nil_iff (hc : separates c = true) (rest : List Byte) :
  firstWord (c :: rest) = [] ↔ ∀ b ∈ rest, separates b = true
  := by
  rw [firstWord, List.dropWhile_cons, if_pos hc]
  constructor
  · intro hnil b hb
    by_contra hno
    have hdrop : rest.dropWhile separates ≠ [] := by
      rw [ne_eq, List.dropWhile_eq_nil_iff]
      intro hall
      apply hno (hall b hb)
    have hhead := List.head_dropWhile_not separates hdrop
    rw [List.takeWhile_eq_nil_iff] at hnil
    apply hnil (List.length_pos_iff.mpr hdrop)
    rw [List.get_eq_getElem, ← List.head_eq_getElem hdrop, hhead]
    rfl
  · intro hall
    rw [List.dropWhile_eq_nil_iff.mpr hall]
    rfl

/-- Without separators a line ends in `&` if and only if it has blanks at its end. -/
theorem blanks_single (h : ∀ c ∈ line, separates c = false) :
  (EndsInAnd line ↔ line.rtakeWhile blank ≠ [])
    ∧ (line.rtakeWhile blank = [] ∨ (line.rtakeWhile blank).head? = some AND)
  := by
  have hspace : ∀ c ∈ line, c ≠ SPACE := by
    rintro c hc rfl
    have hno := h SPACE hc
    revert hno
    decide
  constructor
  · constructor
    · intro hand
      rw [ne_eq, List.rtakeWhile_eq_nil_iff]
      intro hall
      apply hall hand.blanks.1 (hand.blanks.2 hand.blanks.1)
    · intro hne
      induction line using List.reverseRecOn with
      | nil => apply (hne rfl).elim
      | append_singleton l c _ =>
          have hc := hspace c (by simp)
          have hb : blank c = true := by
            by_contra hb
            apply hne
            apply List.rtakeWhile_concat_neg _ _ _ hb
          have hand : c = AND := by simpa [blank, hc] using hb
          rw [EndsInAnd, List.rdropWhile_concat]
          simp [hand, AND, SPACE]
  · cases hr : line.rtakeWhile blank with
    | nil => simp
    | cons c r =>
        right
        have hmem : c ∈ line.rtakeWhile blank := by simp [hr]
        have hb := List.mem_rtakeWhile_imp hmem
        have hc := hspace c ((List.rtakeWhile_suffix blank line).subset hmem)
        have hand : c = AND := by simpa [blank, hc] using hb
        rw [hand, List.head?_cons]

/-- The number of arguments is right in two cases. -/
theorem argc_split (hw : ∀ c ∈ w, separates c = false) (hc : separates c = true) (rest : List Byte) :
  getSz (w ++ c :: rest) = 2 ↔
    (¬ EndsInAnd (w ++ c :: rest) ∧ rest.countP separates = 0)
      ∨ (EndsInAnd (w ++ c :: rest) ∧ rest.countP separates = 1)
  := by
  rw [getSz_eq, countP_split hw hc, ← checkAnd_iff]
  cases checkAnd (w ++ c :: rest) with
  | true =>
      simp only [if_true, not_true, false_and, false_or, true_and]
      omega
  | false =>
      simp only [Bool.false_eq_true, if_false, not_false_eq_true, true_and, false_and, or_false]
      omega

section Understood

variable (h0 : 0 ∉ line) (hn : NEWLINE ∉ line) (hlen : line.length < LINESIZE)
include h0 hn hlen

theorem understood_single (h : ∀ c ∈ line, separates c = false) :
  Understood line ↔ ¬ EndsInAnd line
  := by
  have hparse := parseLine_single h hn
  have hcount := countP_single h
  constructor
  · intro hu
    have hargc := hu.argc
    rw [hparse, getSz_eq, hcount] at hargc
    rw [← checkAnd_iff]
    intro hand
    rw [hand] at hargc
    simp at hargc
  · intro hand
    have hargc : getSz line = (parseLine line).1 := by
      rw [hparse, getSz_eq, hcount, if_neg]
      · rfl
      · rw [checkAnd_iff]
        apply hand
    constructor
    case argc => apply hargc
    case word =>
      have hblanks := (blanks_single h).1.not.mp hand
      rw [not_not] at hblanks
      rw [hparse]
      simp only [Function.update_self]
      rw [rowString_clearAnds h0 hlen, firstWord_single h, (cut_eq_iff line).mpr (.inl hblanks),
        List.rdropWhile_eq_self_iff]
      apply List.rtakeWhile_eq_nil_iff.mp hblanks
    case rest =>
      rw [hparse]
      intro htwo
      cases htwo
    case child =>
      intro program argv argc waits hturn
      obtain ⟨rfl, hnum, hwaits⟩ := turn_child hturn
      refine ⟨?_, hwaits⟩
      rw [← hnum] at hargc
      apply Int.le_of_eq hargc

end Understood

/-- A line with a first word in front of its first separator. -/
theorem understood_split (h0 : 0 ∉ w ++ c :: rest) (hn : NEWLINE ∉ w ++ c :: rest)
    (hlen : (w ++ c :: rest).length < LINESIZE) (hw : ∀ c ∈ w, separates c = false)
    (hc : separates c = true) :
  Understood (w ++ c :: rest) ↔
    getSz (w ++ c :: rest) = 2 ∧ firstWord (w ++ c :: rest) = w
      ∧ cut rest = (restOf (w ++ c :: rest)).rdropWhile blank
  := by
  rw [List.mem_append, List.mem_cons, not_or, not_or] at h0
  rw [List.mem_append, List.mem_cons, not_or, not_or] at hn
  rw [List.length_append, List.length_cons] at hlen
  obtain ⟨hsize, hfirst, hsecond⟩ := parseLine_split hw hn.1 hc rest
  have hword : rowString ((parseLine (w ++ c :: rest)).2 0) = w := by
    rw [hfirst, rowString_self h0.1 (by omega)]
  have hrest : rowString ((parseLine (w ++ c :: rest)).2 1) = cut rest := by
    rw [hsecond, rowString_clearAnds h0.2.2 (by omega)]
  constructor
  · intro hu
    refine ⟨?_, ?_, ?_⟩
    · rw [hu.argc, hsize]
      rfl
    · rw [← hu.word, hword]
    · rw [← hu.rest hsize, hrest]
  · rintro ⟨h1, h2, h3⟩
    have hargc : getSz (w ++ c :: rest) = (parseLine (w ++ c :: rest)).1 := by
      rw [h1, hsize]
      rfl
    constructor
    case argc => apply hargc
    case word => rw [hword, h2]
    case rest =>
      intro _
      rw [hrest, h3]
    case child =>
      intro program argv argc waits hturn
      obtain ⟨rfl, hnum, hwaits⟩ := turn_child hturn
      refine ⟨?_, hwaits⟩
      rw [← hnum] at hargc
      apply Int.le_of_eq hargc

/-- With a separator in front the first row is empty. -/
theorem understood_leading (hc : separates c = true) (rest : List Byte) :
  (((¬ EndsInAnd (c :: rest) ∧ rest.countP separates = 0)
      ∨ (EndsInAnd (c :: rest) ∧ rest.countP separates = 1))
    ∧ firstWord (c :: rest) = [] ∧ cut rest = (restOf (c :: rest)).rdropWhile blank)
    ↔ Simple (c :: rest)
  := by
  constructor
  · rintro ⟨⟨hand, hcount⟩ | ⟨hand, -⟩, hnil, -⟩
    · have hrest : rest = [] := by
        apply List.eq_nil_iff_forall_not_mem.mpr
        intro b hb
        apply List.countP_eq_zero.mp hcount b hb ((firstWord_eq_nil_iff hc rest).mp hnil b hb)
      subst hrest
      refine ⟨.inr rfl, .inl ⟨hand, ?_⟩⟩
      simp [hc]
    · have hsep : separates AND = true := by
        rcases List.mem_cons.mp hand.mem with h | h
        · rw [h, hc]
        · apply (firstWord_eq_nil_iff hc rest).mp hnil AND h
      have hno : separates AND = false := by decide
      rw [hno] at hsep
      cases hsep
  · rintro ⟨hhead | hone, hcount⟩
    · have hno := hhead c rfl
      rw [hc] at hno
      cases hno
    · have hrest : rest = [] := by simpa using hone
      subst hrest
      refine ⟨?_, (firstWord_eq_nil_iff hc []).mpr (by simp), ?_⟩
      · rcases hcount with ⟨hand, -⟩ | ⟨-, htwo, -⟩
        · left
          refine ⟨hand, rfl⟩
        · simp [hc] at htwo
      · simp [cut, restOf, hc]

/-- With a word in front the two rows are the word and the rest. -/
theorem understood_word (hw : ∀ c ∈ w, separates c = false) (hne : w ≠ [])
    (hc : separates c = true) (rest : List Byte) :
  (((¬ EndsInAnd (w ++ c :: rest) ∧ rest.countP separates = 0)
      ∨ (EndsInAnd (w ++ c :: rest) ∧ rest.countP separates = 1))
    ∧ firstWord (w ++ c :: rest) = w
    ∧ cut rest = (restOf (w ++ c :: rest)).rdropWhile blank)
    ↔ Simple (w ++ c :: rest)
  := by
  obtain ⟨hfirst, hrest⟩ := firstWord_split hw hne hc rest
  have hhead : ∀ b ∈ (w ++ c :: rest).head?, separates b = false := by
    intro b hb
    rw [List.head?_append_of_ne_nil _ hne] at hb
    apply hw b (List.mem_of_mem_head? hb)
  rw [Simple, hfirst, hrest, cut_eq_iff, countP_split hw hc]
  constructor
  · rintro ⟨⟨hand, hcount⟩ | ⟨hand, hcount⟩, -, hcut⟩
    · refine ⟨.inl hhead, .inl ⟨hand, ?_⟩⟩
      omega
    · refine ⟨.inl hhead, .inr ⟨hand, ?_, hcut.resolve_left ?_⟩⟩
      · omega
      · -- the blank at the end of the line is one of the rest
        have hnil : rest ≠ [] := by
          rintro rfl
          cases hcount
        have hlast := hand.blanks.2 hand.blanks.1
        rw [List.getLast_append_of_ne_nil _ (List.cons_ne_nil c rest), List.getLast_cons hnil]
          at hlast
        rw [List.rtakeWhile_eq_nil_iff]
        intro hall
        apply hall hnil hlast
  · rintro ⟨-, ⟨hand, hcount⟩ | ⟨hand, hcount, hand'⟩⟩
    · have hzero : rest.countP separates = 0 := by omega
      have hnone : ∀ b ∈ rest, separates b = false := by
        intro b hb
        simpa using List.countP_eq_zero.mp hzero b hb
      refine ⟨.inl ⟨hand, hzero⟩, rfl, (blanks_single hnone).2⟩
    · refine ⟨.inr ⟨hand, ?_⟩, rfl, .inr hand'⟩
      omega

/-- The shell understands the simple lines, and no others. -/
theorem understood_iff (h0 : 0 ∉ line) (hn : NEWLINE ∉ line) (hlen : line.length < LINESIZE) :
  Understood line ↔ Simple line
  := by
  rcases line_cases line with h | ⟨w, c, rest, rfl, hw, hc⟩
  · rw [understood_single h0 hn hlen h, Simple, countP_single h]
    constructor
    · intro hand
      constructor
      · left
        intro c hc
        apply h c (List.mem_of_mem_head? hc)
      · left
        simp [hand]
    · rintro ⟨-, ⟨hand, -⟩ | ⟨-, htwo, -⟩⟩
      · apply hand
      · cases htwo
  · rw [understood_split h0 hn hlen hw hc, argc_split hw hc]
    by_cases hne : w = []
    · subst hne
      apply understood_leading hc rest
    · apply understood_word hw hne hc rest

instance (line : List Byte) : Decidable (EndsInAnd line) :=
  inferInstanceAs (Decidable (_ = _))

instance (line : List Byte) : Decidable (Simple line) :=
  inferInstanceAs (Decidable (_ ∧ _))

/-- The line `cal 2014&`, which has too few separators for its `&`. -/
def calAnd : List Byte :=
  [0x63, 0x61, 0x6C, 0x20, 0x32, 0x30, 0x31, 0x34, 0x26]

/-- The line `echo a b`. -/
def echoTwo : List Byte :=
  [0x65, 0x63, 0x68, 0x6F, 0x20, 0x61, 0x20, 0x62]

/-- The line `echo a b&`, with two separators. -/
theorem understood_echo :
  Simple (echoTwo ++ [AND]) ∧ Understood (echoTwo ++ [AND]) ∧ ¬ Understood calAnd
  := by
  have hsimple : Simple (echoTwo ++ [AND]) := by decide
  refine ⟨hsimple, ?_, ?_⟩
  · apply (understood_iff _ _ _).mpr hsimple
    · decide
    · decide
    · decide
  · rw [understood_iff]
    · decide
    · decide
    · decide
    · decide

/-- For the line `echo a b` the program is told three arguments, and given two. -/
theorem not_understood :
  ¬ ∀ line, 0 ∉ line → NEWLINE ∉ line → line.length < LINESIZE → Understood line
  := by
  intro hall
  have hargc := (hall echoTwo (by decide) (by decide) (by decide)).argc
  revert hargc
  decide

end Sh

end Root

end Jos
