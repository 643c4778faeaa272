import Jos.User.Strings

/-!
# The lexer of the shell

`gettoken` of `user/sh.c` splits a command line into tokens, one a call.  It looks one token
ahead: a word is terminated, by a zero byte in place of what follows it, when the token behind
it is looked for.  The look-ahead is kept in static variables.

A reference lexer says what the tokens of a line are.  The calls return them in order, a
string returned for a word stays there, and only the line is accessed.

What `gettoken` prints for debugging is left out.
-/

namespace Jos

namespace Sh

open Bytes Io

/-! ### The source -/

/-- The string `" \t\r\n"`. -/
def WHITESPACE : List Byte := [0x20, 0x09, 0x0D, 0x0A]

/-- The string `"<|>&;()"`. -/
def SYMBOLS : List Byte := [0x3C, 0x7C, 0x3E, 0x26, 0x3B, 0x28, 0x29]

/-- What `gettoken` returns for a word, the character `'w'`. -/
def WORD : Word := 0x77

/-- Overwrite the whitespace at `s` with zero bytes, up to where it ends. -/
def skipWhitespace (s : Nat) : Io Nat :=
  skipUp s ADDRESSES (fun s => do
    let ch ← get8 s
    if strchr WHITESPACE ch then
      set8 s 0
      pure true
    else
      pure false)

/-- Where the word at `s` ends. -/
def skipWord (s : Nat) : Io Nat :=
  skipUp s ADDRESSES (fun s => do
    let ch ← get8 s
    pure (ch ≠ 0 ∧ !strchr (WHITESPACE ++ SYMBOLS) ch))

/-- Get the next token from the string at `s`, and the beginning of the token and the end of it
in place of `p1` and `p2`. -/
def _gettoken (s p1 p2 : Nat) : Io (Word × Nat × Nat) :=
  if s = 0 then
    pure (0, p1, p2)
  else do
    let s ← skipWhitespace s
    let ch ← get8 s
    if ch = 0 then
      pure (0, 0, 0)
    else if strchr SYMBOLS ch then do
      set8 s 0
      pure (ch.signExtend 32, s, s + 1)
    else do
      let p2 ← skipWord s
      pure (WORD, s, p2)

/-- The static variables of `gettoken`. -/
structure Statics where
  c : Word := 0
  nc : Word := 0
  np1 : Nat := 0
  np2 : Nat := 0

/-- Prepare for the string at `s` and return `0`, or, if `s` is `0`, return the next token.
Besides what is returned this gives the beginning of the token, if it is stored. -/
def gettoken (st : Statics) (s : Nat) : Io (Word × Option Nat × Statics) :=
  if s ≠ 0 then do
    let (nc, np1, np2) ← _gettoken s st.np1 st.np2
    pure (0, none, { st with nc := nc, np1 := np1, np2 := np2 })
  else do
    let c := st.nc
    let p1 := st.np1
    let (nc, np1, np2) ← _gettoken st.np2 st.np1 st.np2
    pure (c, some p1, { c := c, nc := nc, np1 := np1, np2 := np2 })

/-! ### The reference lexer -/

/-- A token of a command line. -/
inductive Token where
  | symbol (b : Byte)
  | word (bs : List Byte)
  deriving DecidableEq

/-- What `gettoken` returns for a token. -/
def Token.code : Token → Word
  | symbol b => b.signExtend 32
  | word _ => WORD

/-- Whether words consist of the character `b`. -/
def ordinary (b : Byte) : Bool :=
  !WHITESPACE.contains b && !SYMBOLS.contains b

/-- The tokens of a line: the maximal runs of ordinary characters, and the symbols. Whitespace
separates tokens. -/
def tokens : List Byte → List Token
  | [] => []
  | b :: bs =>
      if WHITESPACE.contains b then
        tokens bs
      else if SYMBOLS.contains b then
        .symbol b :: tokens bs
      else
        .word (b :: bs.takeWhile ordinary) :: tokens (bs.dropWhile ordinary)
  termination_by bs => bs.length
  decreasing_by
    · simp
    · simp
    · have := (List.dropWhile_sublist ordinary (l := bs)).length_le
      simp
      omega

/-! ### Tokens -/

theorem tokens_whitespace {ws bs : List Byte} (h : ∀ b ∈ ws, strchr WHITESPACE b = true) :
  tokens (ws ++ bs) = tokens bs
  := by
  induction ws with
  | nil => rfl
  | cons b ws ih =>
      have hb : WHITESPACE.contains b = true := h b List.mem_cons_self
      rw [List.cons_append, tokens, if_pos hb]
      apply ih
      intro c hc
      exact h c (List.mem_cons_of_mem b hc)

theorem tokens_symbol {b : Byte} (bs : List Byte) (h : strchr SYMBOLS b = true) :
  tokens (b :: bs) = .symbol b :: tokens bs
  := by
  have hw : WHITESPACE.contains b = false := by
    have hmem : b ∈ SYMBOLS := List.contains_iff_mem.mp h
    revert b
    decide
  have hs : SYMBOLS.contains b = true := h
  rw [tokens, hw, if_neg (by decide), if_pos hs]

theorem ordinary_eq (b : Byte) :
  ordinary b = !strchr (WHITESPACE ++ SYMBOLS) b
  := by
  rw [ordinary, strchr, List.contains_append, Bool.not_or]

theorem tokens_word {b : Byte} {w bs : List Byte} (hw : ∀ c ∈ b :: w, ordinary c = true)
    (hbs : ordinary (bs.headD 0x20) = false) :
  tokens (b :: w ++ bs) = .word (b :: w) :: tokens bs
  := by
  have hb := hw b List.mem_cons_self
  rw [ordinary, Bool.and_eq_true, Bool.not_eq_true', Bool.not_eq_true'] at hb
  have hw' : ∀ c ∈ w, ordinary c = true := fun c hc => hw c (List.mem_cons_of_mem b hc)
  rw [List.cons_append, tokens, hb.1, hb.2, if_neg (by decide), if_neg (by decide),
    List.takeWhile_append_of_pos hw', List.dropWhile_append_of_pos hw']
  cases bs with
  | nil => simp
  | cons c cs =>
      rw [List.headD_cons] at hbs
      rw [List.takeWhile_cons, List.dropWhile_cons, hbs, if_neg (by decide), if_neg (by decide),
        List.append_nil]

/-- The code of a token is that of no token. -/
theorem code_ne_zero {bs : List Byte} {t : Token} (h : t ∈ tokens bs) :
  t.code ≠ 0
  := by
  induction bs using tokens.induct with
  | case1 => simp [tokens] at h
  | case2 b bs hb ih =>
      rw [tokens, if_pos hb] at h
      exact ih h
  | case3 b bs hb hs ih =>
      rw [tokens, if_neg hb, if_pos hs] at h
      obtain rfl | h := List.mem_cons.mp h
      · have hmem : b ∈ SYMBOLS := List.contains_iff_mem.mp hs
        clear ih hb hs h
        revert b
        decide
      · exact ih h
  | case4 b bs hb hs ih =>
      rw [tokens, if_neg hb, if_neg hs] at h
      obtain rfl | h := List.mem_cons.mp h
      · change WORD ≠ 0
        decide
      · exact ih h

theorem tokens_length_le (bs : List Byte) :
  (tokens bs).length ≤ bs.length
  := by
  induction bs using tokens.induct with
  | case1 => simp [tokens]
  | case2 b bs hb ih =>
      rw [tokens, if_pos hb, List.length_cons]
      omega
  | case3 b bs hb hs ih =>
      rw [tokens, if_neg hb, if_pos hs, List.length_cons, List.length_cons]
      omega
  | case4 b bs hb hs ih =>
      have hle := (List.dropWhile_sublist ordinary (l := bs)).length_le
      rw [tokens, if_neg hb, if_neg hs, List.length_cons, List.length_cons]
      omega

/-! ### One token -/

section Scanning

variable {ok : Memory → Nat → Bool} {m : Memory} {p : Nat} {E : Prop} {Q : Nat → Memory → Prop}

/-- The first loop of `_gettoken` clears the whitespace in front of the next token. -/
theorem ends_skipWhitespace {ws rest : List Byte} (h : StringAt m p (ws ++ rest))
    (hws : ∀ b ∈ ws, strchr WHITESPACE b = true) (hrest : strchr WHITESPACE (rest.headD 0) = false)
    (hlt : ws.length < ADDRESSES)
    (hok : ∀ m a, p ≤ a → a ≤ p + ws.length → ok m a = true)
    (hQ : ∀ m', (∀ x, x < p ∨ p + ws.length ≤ x → m' x = m x) →
      (∀ x, p ≤ x → x < p + ws.length → m' x = 0) → Q (p + ws.length) m') :
  (skipWhitespace p).Ends ok m Q E
  := by
  have hbytes := (bytesAt_append.mp h.bytes).1
  apply ends_skipUp (fun i m' => (∀ x, x < p ∨ i ≤ x → m' x = m x)
    ∧ ∀ x, p ≤ x → x < i → m' x = 0) (Nat.le_add_right p ws.length) (by omega)
  · rintro i m' hi hi' ⟨hsame, hzero⟩
    rw [ends_bind, ends_get8]
    refine ⟨hok m' i hi (by omega), ?_⟩
    rw [if_pos]
    · rw [ends_bind, ends_set8]
      refine ⟨hok m' i hi (by omega), ?_⟩
      rw [ends_pure]
      refine ⟨rfl, ?_, ?_⟩
      · intro x hx
        rw [write8, if_neg (by omega), hsame x (by omega)]
      · intro x hx hx'
        rw [write8]
        split
        · rfl
        · exact hzero x hx (by omega)
    · rw [hsame i (by omega)]
      apply hws
      exact hbytes.mem hi hi'
  · rintro m' ⟨hsame, hzero⟩
    rw [ends_bind, ends_get8]
    refine ⟨hok m' _ (by omega) (by omega), ?_⟩
    rw [if_neg]
    · rw [ends_pure]
      exact ⟨rfl, hQ m' hsame hzero⟩
    · rw [hsame _ (by omega), h.drop.head, hrest]
      decide
  · refine ⟨fun _ _ => rfl, ?_⟩
    intro x hx hx'
    omega

/-- The second loop of `_gettoken` stops where the word ends. -/
theorem ends_skipWord {w rest : List Byte} (h : StringAt m p (w ++ rest))
    (hw : ∀ b ∈ w, ordinary b = true) (hrest : ordinary (rest.headD 0x20) = false)
    (hlt : w.length < ADDRESSES) (hok : ∀ m a, p ≤ a → a ≤ p + w.length → ok m a = true)
    (hQ : Q (p + w.length) m) :
  (skipWord p).Ends ok m Q E
  := by
  have hbytes := (bytesAt_append.mp h.bytes).1
  apply ends_skipUp (fun _ m' => m' = m) (Nat.le_add_right p w.length) (by omega)
  · rintro i m' hi hi' rfl
    have hmem := hbytes.mem hi hi'
    rw [ends_bind, ends_get8]
    refine ⟨hok m' i hi (by omega), ?_⟩
    rw [ends_pure, ← ordinary_eq, hw _ hmem]
    refine ⟨?_, rfl⟩
    apply decide_eq_true
    refine ⟨?_, rfl⟩
    intro hzero
    apply h.notMem
    rw [← hzero]
    exact List.mem_append_left rest hmem
  · rintro m' rfl
    rw [ends_bind, ends_get8]
    refine ⟨hok m' _ (by omega) (by omega), ?_⟩
    rw [ends_pure, ← ordinary_eq]
    refine ⟨?_, hQ⟩
    apply decide_eq_false
    rintro ⟨hne, hord⟩
    cases rest with
    | nil => exact hne h.drop.zero
    | cons b rest =>
        rw [h.drop.head, List.headD_cons] at hord
        rw [List.headD_cons] at hrest
        rw [hrest] at hord
        cases hord
  · rfl

end Scanning

/-! ### The look-ahead -/

/-- The look-ahead `nc`, `np1`, `np2` of `gettoken` when the tokens `ts` are left, in a line that
ends at `e`. What follows the token is still as it was in the line. -/
inductive Ahead (e : Nat) (m : Memory) : List Token → Word → Nat → Nat → Prop
  | ended : Ahead e m [] 0 0 0
  | symbol {b : Byte} {p : Nat} {rest : List Byte} (hb : strchr SYMBOLS b = true)
      (h : StringAt m (p + 1) rest) (he : p + 1 + rest.length = e) :
      Ahead e m (.symbol b :: tokens rest) (b.signExtend 32) p (p + 1)
  | word {w : List Byte} {p : Nat} {rest : List Byte} (hne : w ≠ []) (h : StringAt m p (w ++ rest))
      (he : p + w.length + rest.length = e) (hend : ordinary (rest.headD 0x20) = false) :
      Ahead e m (.word w :: tokens rest) WORD p (p + w.length)

/-- Whether a token is left or not, `_gettoken` looks ahead to it. It terminates a word that ends
where it starts to look. -/
theorem _gettoken_ok {ok : Memory → Nat → Bool} {m : Memory} {p : Nat} {bs : List Byte}
    (hp : p ≠ 0) (h : StringAt m p bs) (hlt : bs.length < ADDRESSES)
    (hok : ∀ m a, p ≤ a → a ≤ p + bs.length → ok m a = true) (p1 p2 : Nat) :
  (_gettoken p p1 p2).Ends ok m (fun r m' => Ahead (p + bs.length) m' (tokens bs) r.1 r.2.1 r.2.2
    ∧ (∀ x, x < p ∨ p + bs.length < x → m' x = m x)
    ∧ (ordinary (bs.headD 0x20) = false → m' p = 0)
    ∧ (tokens bs ≠ [] → p ≤ r.2.1 ∧ p < r.2.2)) False
  := by
  have hzero : strchr WHITESPACE 0 = false := by decide
  obtain ⟨ws, rest, rfl, hws, hrest⟩ := exists_span (strchr WHITESPACE) hzero bs
  rw [List.length_append] at hlt hok
  rw [_gettoken, if_neg hp, tokens_whitespace hws, List.length_append]
  rw [ends_bind]
  apply ends_skipWhitespace h hws hrest (by omega)
  · intro m' a ha ha'
    exact hok m' a ha (by omega)
  intro m₁ hsame hzero
  have hs₁ : StringAt m₁ (p + ws.length) rest := by
    apply h.drop.congr
    intro x hx _
    exact hsame x (Or.inr hx)
  have hsame' : ∀ x, x < p ∨ p + (ws.length + rest.length) < x → m₁ x = m x :=
    fun x hx => hsame x (by omega)
  -- a word that ends at `p` is terminated, by whitespace or by what is done next
  have hterm : ws ≠ [] → m₁ p = 0 := by
    intro hne
    have hpos := List.length_pos_iff.mpr hne
    exact hzero p (Nat.le_refl p) (by omega)
  rw [ends_bind, ends_get8]
  refine ⟨hok m₁ _ (by omega) (by omega), ?_⟩
  cases rest with
  | nil =>
      have hend : m₁ (p + ws.length) = 0 := hs₁.zero
      rw [if_pos hend, ends_pure]
      refine ⟨?_, hsame', ?_, ?_⟩
      · rw [tokens]
        exact .ended
      · intro _
        cases ws with
        | nil => exact hs₁.zero
        | cons b ws => exact hterm (List.cons_ne_nil b ws)
      · intro hne
        rw [tokens] at hne
        exact (hne rfl).elim
  | cons b rest =>
      have hb : m₁ (p + ws.length) = b := hs₁.bytes.1
      have hb0 : b ≠ 0 := by
        rintro rfl
        exact hs₁.notMem List.mem_cons_self
      rw [hb, if_neg hb0]
      have hrest₁ : StringAt m₁ (p + ws.length + 1) rest := by
        have hcons : StringAt m₁ (p + ws.length) ([b] ++ rest) := hs₁
        exact hcons.drop
      have hlen : p + (ws.length + (b :: rest).length) = p + ws.length + 1 + rest.length := by
        rw [List.length_cons]
        omega
      rw [List.length_cons] at hok hlt
      cases hsym : strchr SYMBOLS b with
      | true =>
          rw [if_pos rfl, ends_bind, ends_set8]
          refine ⟨hok m₁ _ (by omega) (by omega), ?_⟩
          rw [ends_pure, tokens_symbol rest hsym, hlen]
          refine ⟨?_, ?_, ?_, ?_⟩
          · refine .symbol hsym (hrest₁.congr ?_) rfl
            intro x hx _
            rw [write8, if_neg (by omega)]
          · intro x hx
            rw [write8, if_neg (by omega), hsame x (by omega)]
          · intro _
            rw [write8]
            split
            case isTrue => rfl
            case isFalse hne =>
              apply hterm
              rintro rfl
              exact hne rfl
          · intro _
            change p ≤ p + ws.length ∧ p < p + ws.length + 1
            omega
      | false =>
          have hord : ordinary b = true := by
            have hwhite : WHITESPACE.contains b = false := hrest
            have hsymb : SYMBOLS.contains b = false := hsym
            rw [ordinary, hwhite, hsymb]
            rfl
          have hblank : ordinary 0x20 = false := by decide
          obtain ⟨w, rest', rfl, hw', hend⟩ := exists_span ordinary hblank rest
          have hw : ∀ c ∈ b :: w, ordinary c = true := by
            intro c hc
            obtain rfl | hc := List.mem_cons.mp hc
            · exact hord
            · exact hw' c hc
          have hs₂ : StringAt m₁ (p + ws.length) ((b :: w) ++ rest') := hs₁
          rw [List.length_append] at hok hlt
          rw [if_neg (by decide), ends_bind]
          apply ends_skipWord hs₂ hw hend
          · rw [List.length_cons]
            omega
          · intro m' a ha ha'
            rw [List.length_cons] at ha'
            exact hok m' a (by omega) (by omega)
          rw [ends_pure]
          have htok : tokens (b :: (w ++ rest')) = .word (b :: w) :: tokens rest' :=
            tokens_word hw hend
          rw [htok]
          refine ⟨?_, hsame', ?_, ?_⟩
          · refine .word (List.cons_ne_nil b w) hs₂ ?_ hend
            simp only [List.length_cons, List.length_append]
            omega
          · intro hhead
            apply hterm
            rintro rfl
            have hhead' : ordinary b = false := hhead
            rw [hord] at hhead'
            cases hhead'
          · intro _
            change p ≤ p + ws.length ∧ p < p + ws.length + (b :: w).length
            rw [List.length_cons]
            omega

/-! ### All tokens -/

/-- What a call returned, and the beginning it stored, stand for the token, or for the end if
there is none. -/
def Returned (m : Memory) (r : Word × Nat) : Option Token → Prop
  | none => r.1 = 0
  | some (.symbol b) => r.1 = (Token.symbol b).code ∧ r.1 ≠ 0
  | some (.word w) => r.1 = (Token.word w).code ∧ r.1 ≠ 0 ∧ StringAt m r.2 w

/-- Call `gettoken(0, &t)` for `n` tokens. -/
def nextTokens (st : Statics) : Nat → Io (List (Word × Nat))
  | 0 => pure []
  | n + 1 => do
      let (c, t, st) ← gettoken st 0
      let rs ← nextTokens st n
      pure ((c, t.getD 0) :: rs)

/-- Prepare `gettoken` for the string at `s`, and call it for `n` tokens. -/
def lexLine (st : Statics) (s n : Nat) : Io (List (Word × Nat)) := do
  let (_, _, st) ← gettoken st s
  nextTokens st n

variable {ok : Memory → Nat → Bool} {m m' : Memory} {e : Nat} {ts : List Token} {st : Statics}

/-- What a call returned is not changed where the token lies. -/
theorem Returned.congr {r : Word × Nat} {o : Option Token} (h : Returned m r o)
    (hm : ∀ w, o = some (.word w) → ∀ x ≤ r.2 + w.length, m' x = m x) :
  Returned m' r o
  := by
  cases o with
  | none => exact h
  | some t =>
      cases t with
      | symbol b => exact h
      | word w =>
          refine ⟨h.1, h.2.1, h.2.2.congr ?_⟩
          intro x _ hx
          exact hm w rfl x hx

/-- The token that was looked ahead to ends in the line. -/
theorem Ahead.np2_le {nc : Word} {np1 np2 : Nat} (h : Ahead e m ts nc np1 np2) (hne : ts ≠ []) :
  np2 ≤ e
  := by
  cases h with
  | ended => exact (hne rfl).elim
  | symbol hb h he => exact Nat.le.intro he
  | word hw h he hend => exact Nat.le.intro he

/-- The look-ahead does not change when the rest of the line does not. -/
theorem Ahead.congr {nc : Word} {np1 np2 : Nat} (h : Ahead e m ts nc np1 np2)
    (hm : ts ≠ [] → ∀ x, np1 ≤ x → x ≤ e → m' x = m x) :
  Ahead e m' ts nc np1 np2
  := by
  cases h with
  | ended => exact .ended
  | symbol hb h he =>
      have hm' := hm (List.cons_ne_nil _ _)
      refine .symbol hb (h.congr ?_) he
      intro x hx hx'
      exact hm' x (by omega) (by omega)
  | word hw h he hend =>
      have hm' := hm (List.cons_ne_nil _ _)
      refine .word hw (h.congr ?_) he hend
      intro x hx hx'
      rw [List.length_append] at hx'
      exact hm' x hx (by omega)

theorem Ahead.symbol_mem {b : Byte} {nc : Word} {np1 np2 : Nat}
    (h : Ahead e m (.symbol b :: ts) nc np1 np2) :
  b ∈ SYMBOLS
  := by
  cases h with
  | symbol hb => exact List.contains_iff_mem.mp hb

/-- One call returns the token that was looked ahead to, terminated if it is a word, and looks
ahead to the next. It changes nothing in front of what is left of the line. -/
theorem gettoken_ok {nc : Word} {np1 np2 : Nat} (h : Ahead e m ts nc np1 np2)
    (hlt : e < ADDRESSES) (hok : ts ≠ [] → ∀ m a, np2 ≤ a → a ≤ e → ok m a = true) (c : Word) :
  (gettoken { c := c, nc := nc, np1 := np1, np2 := np2 } 0).Ends ok m (fun r m' =>
    (r.2.1 = some np1 ∧ Returned m' (r.1, np1) ts.head?
      ∧ ∀ w, ts.head? = some (.word w) → np1 + w.length = np2)
    ∧ Ahead e m' ts.tail r.2.2.nc r.2.2.np1 r.2.2.np2
    ∧ (∀ x, x < np2 ∨ e < x ∨ ts = [] → m' x = m x)
    ∧ (ts.tail ≠ [] → np2 ≤ r.2.2.np1 ∧ np2 < r.2.2.np2)) False
  := by
  rw [gettoken, if_neg (by decide), ends_bind]
  cases h with
  | ended =>
      rw [_gettoken, if_pos rfl, ends_pure, ends_pure]
      refine ⟨⟨rfl, rfl, ?_⟩, .ended, fun _ _ => rfl, fun hne => (hne rfl).elim⟩
      intro w hw
      cases hw
  | @symbol b _ rest hb hs he =>
      have hok' := hok (List.cons_ne_nil _ _)
      apply (_gettoken_ok (Nat.succ_ne_zero np1) hs (by omega) (he ▸ hok') np1 (np1 + 1)).mono _ id
      rw [he]
      rintro r m' ⟨hahead, hsame, -, hlater⟩
      rw [ends_pure]
      refine ⟨⟨rfl, ⟨rfl, ?_⟩, ?_⟩, hahead, ?_, hlater⟩
      · have hmem : Token.symbol b ∈ tokens [b] := by
          rw [tokens_symbol [] hb]
          exact List.mem_cons_self
        exact code_ne_zero hmem
      · intro w hw
        cases hw
      · rintro x (hx | hx | hx)
        · exact hsame x (Or.inl hx)
        · exact hsame x (Or.inr hx)
        · cases hx
  | @word w _ rest hne hs he hend =>
      have hpos := List.length_pos_iff.mpr hne
      have hok' := hok (List.cons_ne_nil _ _)
      apply (_gettoken_ok (by omega) hs.drop (by omega) (he ▸ hok') np1 (np1 + w.length)).mono _ id
      rw [he]
      rintro r m' ⟨hahead, hsame, hterm, hlater⟩
      rw [ends_pure]
      have hcode : WORD ≠ 0 := by decide
      refine ⟨⟨rfl, ⟨rfl, hcode, ?_⟩, ?_⟩, hahead, ?_, hlater⟩
      · constructor
        case bytes =>
          apply (bytesAt_append.mp hs.bytes).1.congr
          intro x _ hx
          exact hsame x (Or.inl hx)
        case zero => exact hterm hend
        case notMem =>
          intro hmem
          exact hs.notMem (List.mem_append_left rest hmem)
      · intro w' hw'
        cases hw'
        rfl
      · rintro x (hx | hx | hx)
        · exact hsame x (Or.inl hx)
        · exact hsame x (Or.inr hx)
        · cases hx

/-- The calls return the tokens that are left, and then `0`. What is in front of the rest of the
line is not changed, and nothing is when no token is left. -/
theorem nextTokens_ok (h : Ahead e m ts st.nc st.np1 st.np2) (hlt : e < ADDRESSES)
    (hok : ts ≠ [] → ∀ m a, st.np2 ≤ a → a ≤ e → ok m a = true) (n : Nat) :
  (nextTokens st n).Ends ok m (fun rs m' => rs.length = n
    ∧ (∀ i (hi : i < rs.length), Returned m' rs[i] ts[i]?)
    ∧ ∀ x, x < st.np2 ∨ ts = [] → m' x = m x) False
  := by
  induction n generalizing m ts st with
  | zero =>
      rw [nextTokens, ends_pure]
      refine ⟨rfl, ?_, fun _ _ => rfl⟩
      intro i hi
      cases hi
  | succ n ih =>
      rw [nextTokens, ends_bind]
      apply (gettoken_ok h hlt hok st.c).mono _ id
      rintro ⟨c, o, st'⟩ m₁ ⟨⟨rfl, hret, hend⟩, hahead, hsame, hlater⟩
      have hnp2 : ts.tail ≠ [] → st.np2 < st'.np2 := fun hne => (hlater hne).2
      have hok' : ts.tail ≠ [] → ∀ m a, st'.np2 ≤ a → a ≤ e → ok m a = true := by
        intro hne m a ha ha'
        have hlt' := hnp2 hne
        apply hok _ m a (by omega) ha'
        rintro rfl
        exact hne rfl
      rw [ends_bind]
      apply (ih hahead hok').mono _ id
      rintro rs m₂ ⟨hlen, hrets, hsame'⟩
      rw [ends_pure]
      -- the later calls leave what is in front of their part of the line
      have hkept : ∀ x, x ≤ st.np2 ∨ ts = [] → m₂ x = m₁ x := by
        intro x hx
        apply hsame'
        by_cases htail : ts.tail = []
        · right
          exact htail
        · left
          change x < st'.np2
          have hlt' := hnp2 htail
          obtain hx | rfl := hx
          · omega
          · exact (htail rfl).elim
      refine ⟨?_, ?_, ?_⟩
      · rw [List.length_cons, hlen]
      · intro i hi
        cases i with
        | zero =>
            rw [← List.head?_eq_getElem?]
            apply hret.congr
            intro w hw x hx
            have hw' := hend w hw
            exact hkept x (Or.inl (by omega))
        | succ i =>
            have htail : ts[i + 1]? = ts.tail[i]? := by rw [List.getElem?_tail]
            rw [htail]
            exact hrets i (Nat.lt_of_succ_lt_succ hi)
      · intro x hx
        rw [hkept x (hx.imp Nat.le_of_lt id), hsame x (hx.imp id Or.inr)]

/-! ### A line -/

/-- Whether `a` is an address of the string of `n` bytes at `s`. -/
def inLine (s n : Nat) (_ : Memory) (a : Nat) : Bool :=
  s ≤ a ∧ a ≤ s + n

/-- Prepared for a line, whatever was looked at before, `gettoken` returns the tokens of the
line in order, and then `0` as often as it is called.  The strings it returned for words are
there after all calls.  No call accesses memory outside the line. -/
theorem lexLine_tokens {s : Nat} {bs : List Byte} (hs : s ≠ 0) (h : StringAt m s bs)
    (hlt : s + bs.length < ADDRESSES) (st : Statics) (n : Nat) :
  ∃ rs m', (lexLine st s n).run (inLine s bs.length) m = .ret rs m' ∧ rs.length = n
    ∧ (∀ i (hi : i < rs.length), Returned m' rs[i] (tokens bs)[i]?)
    ∧ ∀ x, ¬ (s ≤ x ∧ x ≤ s + bs.length) → m' x = m x
  := by
  have hok : ∀ m a, s ≤ a → a ≤ s + bs.length → inLine s bs.length m a = true := by
    intro m a ha ha'
    exact decide_eq_true ⟨ha, ha'⟩
  have hends : (lexLine st s n).Ends (inLine s bs.length) m (fun rs m' => rs.length = n
      ∧ ∀ i (hi : i < rs.length), Returned m' rs[i] (tokens bs)[i]?) False := by
    rw [lexLine, ends_bind, gettoken, if_pos hs, ends_bind]
    apply (_gettoken_ok hs h (by omega) hok st.np1 st.np2).mono _ id
    rintro ⟨nc, np1, np2⟩ m₁ ⟨hahead, -, -, hlater⟩
    rw [ends_pure]
    have hok' : tokens bs ≠ [] → ∀ m a, np2 ≤ a → a ≤ s + bs.length →
        inLine s bs.length m a = true := by
      intro hne m a ha ha'
      have hlt' : s < np2 := (hlater hne).2
      exact hok m a (by omega) ha'
    have hnext := @nextTokens_ok _ m₁ _ _ { st with nc := nc, np1 := np1, np2 := np2 } hahead hlt
      hok' n
    apply hnext.mono _ id
    rintro rs m₂ ⟨hlen, hrets, -⟩
    exact ⟨hlen, hrets⟩
  obtain ⟨rs, m', hrun, hlen, hrets⟩ := hends.returns id
  refine ⟨rs, m', hrun, hlen, hrets, ?_⟩
  intro x hx
  apply run_outside (R := fun x => s ≤ x ∧ x ≤ s + bs.length) _ _ hrun hx
  · intro m a ha
    exact of_decide_eq_true ha
  · intro m a i ha hi
    rw [okWord, Bool.and_eq_true] at ha
    have h₁ := of_decide_eq_true ha.1
    have h₂ := of_decide_eq_true ha.2
    omega

/-- The line `cat <a`. -/
def redirected : List Byte := [0x63, 0x61, 0x74, 0x20, 0x3C, 0x61]

theorem redirected_at :
  StringAt (writeBytes (fun _ => 0) 0x1000 redirected) 0x1000 redirected
  := by
  constructor
  case bytes => exact bytesAt_writeBytes _ _ _
  case zero => decide
  case notMem => decide

/-- Four calls for the line `cat <a`. -/
theorem lexLine_tokens_redirected :
  ∃ rs m', (lexLine {} 0x1000 4).run (inLine 0x1000 6)
      (writeBytes (fun _ => 0) 0x1000 redirected) = .ret rs m' ∧ rs.length = 4
    ∧ (∀ i (hi : i < rs.length), Returned m' rs[i] (tokens redirected)[i]?)
    ∧ ∀ x, ¬ (0x1000 ≤ x ∧ x ≤ 0x1000 + 6) → m' x = writeBytes (fun _ => 0) 0x1000 redirected x
  := lexLine_tokens (by decide) redirected_at (by decide) {} 4

example : tokens redirected = [.word [0x63, 0x61, 0x74], .symbol 0x3C, .word [0x61]] := by
  simp [redirected, tokens, WHITESPACE, SYMBOLS, ordinary]

end Sh

end Jos
