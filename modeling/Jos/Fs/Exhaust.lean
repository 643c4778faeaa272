import Jos.Fs.RoundTrip

/-!
# Allocating every block

What `alloc_block` does to the block cache and the disk: the first block that it finds free is
taken, and the block of the bitmap with its bit is written to the disk.  Blocks whose bits are
in an incomplete last word of the bitmap are never found.
-/

namespace Jos.Fs

open Bytes Io

variable {α β : Type} {s s' s'' : Cache}

/-! ### Runs on the cache that return -/

/-- The run of `p` on the cache `s` returns, with `Q`. -/
def Execs (p : Io α) (s : Cache) (Q : α → Cache → Prop) : Prop :=
  ∃ a s', exec p s = (.ok a, s') ∧ Q a s'

/-- A run on the cache goes on where its first part is done. -/
theorem exec_bind (p : Io α) (f : α → Io β) (s : Cache) :
  exec (p >>= f) s = match exec p s with
    | (.ok a, s') => exec (f a) s'
    | (.error msg, s') => (.error msg, s')
  := by
  change exec (p.bind f) s = _
  induction p generalizing s with
  | done a => rfl
  | panic msg => rfl
  | load8 a k ih =>
      simp only [Io.bind, exec]
      split
      · exact ih _ _
      · rfl
  | load32 a k ih =>
      simp only [Io.bind, exec]
      split
      · exact ih _ _
      · rfl
  | store8 a b k ih =>
      simp only [Io.bind, exec]
      split
      · exact ih _
      · rfl
  | store32 a w k ih =>
      simp only [Io.bind, exec]
      split
      · exact ih _
      · rfl
  | flush a k ih =>
      simp only [Io.bind, exec]
      split
      · exact ih _
      · rfl

/-- A run of two parts that returns is a run of the first that returns, and then one of the second. -/
theorem exec_bind_ok {p : Io α} {f : α → Io β} {b : β} (h : exec (p >>= f) s = (.ok b, s')) :
  ∃ a s₁, exec p s = (.ok a, s₁) ∧ exec (f a) s₁ = (.ok b, s')
  := by
  rw [exec_bind] at h
  split at h
  case h_1 a s₁ heq => exact ⟨a, s₁, heq, h⟩
  case h_2 => cases h

theorem exec_pure_ok {a b : α} (h : exec (pure a) s = (.ok b, s')) :
  b = a
  := by
  cases h
  rfl

theorem execs_pure {Q : α → Cache → Prop} {a : α} (h : Q a s) :
  Execs (pure a) s Q
  := ⟨a, s, rfl, h⟩

theorem execs_bind {p : Io α} {f : α → Io β} {Q : β → Cache → Prop}
    (h : Execs p s (fun a s' => Execs (f a) s' Q)) :
  Execs (p >>= f) s Q
  := by
  obtain ⟨a, s', heq, b, s'', heq', hQ⟩ := h
  use b, s''
  constructor
  · rw [exec_bind, heq]
    exact heq'
  · exact hQ

theorem Execs.mono {p : Io α} {Q Q' : α → Cache → Prop} (h : Execs p s Q)
    (hQ : ∀ a s', Q a s' → Q' a s') :
  Execs p s Q'
  := by
  obtain ⟨a, s', heq, hQa⟩ := h
  exact ⟨a, s', heq, hQ a s' hQa⟩

/-- What is said of a run that returns holds of what it returned. -/
theorem Execs.of_eq {p : Io α} {Q : α → Cache → Prop} {a : α} (h : Execs p s Q)
    (heq : exec p s = (.ok a, s')) :
  Q a s'
  := by
  obtain ⟨b, s'', heq', hQ⟩ := h
  rw [heq] at heq'
  cases heq'
  exact hQ

theorem execs_get32 {Q : Word → Cache → Prop} {x : Nat} (h : s.accessWord x = .ok s')
    (hQ : Q (read32 s'.mem x) s') :
  Execs (get32 x) s Q
  := by
  refine ⟨_, s', ?_, hQ⟩
  rw [get32, exec, h]
  rfl

theorem execs_set32 {Q : Unit → Cache → Prop} {x : Nat} {w : Word} (h : s.accessWord x = .ok s')
    (hQ : Q () (s'.store x (x + 3) (write32 s'.mem x w))) :
  Execs (set32 x w) s Q
  := by
  refine ⟨(), _, ?_, hQ⟩
  rw [set32, exec, h]
  rfl

theorem execs_sync {Q : Unit → Cache → Prop} {x : Nat} (h : s.flushBlock x = .ok s')
    (hQ : Q () s') :
  Execs (sync x) s Q
  := by
  refine ⟨(), s', ?_, hQ⟩
  rw [sync, exec, h]
  rfl

/-- A search loop on the cache keeps what its body keeps until the body gives a result. -/
theorem execs_findUp {body : Nat → Io (Option β)} (I : Nat → Cache → Prop)
    (R : β → Cache → Prop) {lo n : Nat}
    (step : ∀ i s, lo ≤ i → i < lo + n → I i s →
      Execs (body i) s (fun r s' => (r = none → I (i + 1) s') ∧ ∀ b, r = some b → R b s'))
    (h : I lo s) :
  Execs (findUp lo n body) s
    (fun r s' => (r = none → I (lo + n) s') ∧ ∀ b, r = some b → R b s')
  := by
  induction n generalizing lo s with
  | zero =>
      rw [findUp]
      apply execs_pure
      constructor
      · intro _
        exact h
      · intro b hb
        cases hb
  | succ n ih =>
      rw [findUp]
      apply execs_bind
      apply (step lo s (by omega) (by omega) h).mono
      intro r s' h'
      cases r with
      | some b =>
          apply execs_pure
          constructor
          · intro hb
            cases hb
          · exact h'.2
      | none =>
          rw [show lo + (n + 1) = lo + 1 + n by omega]
          apply ih _ (h'.1 rfl)
          intro i s hi hi'
          exact step i s (by omega) (by omega)

/-! ### Accesses to blocks that are mapped -/

theorem accessWord_of_mapped {x : Nat} (h : s.mapped (x / BLKSIZE) = true)
    (h' : s.mapped ((x + 3) / BLKSIZE) = true) :
  s.accessWord x = .ok s
  := by
  unfold Cache.accessWord Cache.access
  rw [touch_of_mapped h]
  exact touch_of_mapped h'

/-- The number of blocks is read from a block that is mapped. -/
theorem execs_nblocks {Q : Word → Cache → Prop} (hs : Coherent s)
    (hQ : ∀ n : Word, n.toNat = nblocks s.view → Q n s) :
  Execs (get32 s_nblocks) s Q
  := by
  apply execs_get32 (accessWord_of_mapped hs.super hs.super)
  apply hQ
  rw [← nblocks_view hs.super]
  rfl

/-- `diskaddr` gives the address of an existing block, and loads nothing. -/
theorem execs_diskaddr {Q : Nat → Cache → Prop} {blockno : Word} (hs : Coherent s)
    (hne : blockno ≠ 0) (hlt : blockno.toNat < nblocks s.view)
    (hQ : Q (blockno.toNat * BLKSIZE) s) :
  Execs (diskaddr blockno) s Q
  := by
  unfold diskaddr
  rw [if_neg hne]
  apply execs_bind
  apply execs_nblocks hs
  intro n hn
  rw [if_neg]
  · apply execs_pure hQ
  · rw [BitVec.le_def, hn]
    omega

/-! ### Taking a block -/

/-- What taking the block `b` leaves: its bit is cleared, and the block of the bitmap with the
bit is written to the disk, and nothing else. -/
structure Took (s : Cache) (b : Nat) (s' : Cache) : Prop where
  coherent : Coherent s'
  view : s'.view = takeBlock s.view b
  disk : s'.disk = copyBlock s.disk s'.view (2 + b / BLKBITSIZE)
  log : s'.log = s'.disk :: s.log

theorem Loaded.took {b : Nat} (h : Loaded s s') (h' : Took s' b s'') :
  Took s b s''
  where
  coherent := h'.coherent
  view := by rw [h'.view, h.view]
  disk := by rw [h'.disk, h.disk]
  log := by rw [h'.log, h.log]

/-- A block of the bitmap that was stored to is written to the disk. -/
theorem took_flush {b x : Nat} {w : Word} (hs : Coherent s) (hb : b < nblocks s.view)
    (hsmall : nblocks s.view ≤ DISKSIZE / BLKSIZE)
    (hx : x = bitmapWord b) (hw : w = read32 s.view x &&& ~~~ bitmapMask b)
    (hm : s.mapped (x / BLKSIZE) = true) (hm' : s.mapped ((x + 3) / BLKSIZE) = true) :
  ∃ s', (s.store x (x + 3) (write32 s.mem x w)).flushBlock ((2 + b / BLKBITSIZE) * BLKSIZE)
      = .ok s' ∧ Took s b s'
  := by
  obtain ⟨hview, hcoh⟩ := store32_view hs hm hm' w
  have hblk : (2 + b / BLKBITSIZE) * BLKSIZE / BLKSIZE = 2 + b / BLKBITSIZE :=
    Nat.mul_div_cancel _ (by decide)
  have hxblk : x / BLKSIZE = 2 + b / BLKBITSIZE := by rw [hx, bitmapWord_div]
  have hlt : (2 + b / BLKBITSIZE) * BLKSIZE < DISKSIZE := by
    have hlt : b < DISKSIZE / BLKSIZE := by omega
    simp only [DISKSIZE, BLKSIZE, BLKBITSIZE] at hlt ⊢
    omega
  obtain ⟨s', heq, hcoh', hview', hdisk, -⟩ := flushBlock_ok hcoh hlt
  refine ⟨s', heq, ?_⟩
  have hv : s'.view = takeBlock s.view b := by
    rw [hview', hview, takeBlock, hw, hx]
  constructor
  case coherent => apply hcoh'
  case view => apply hv
  case disk =>
    rw [hdisk, writeBack, hblk, hview']
    rfl
  case log =>
    -- the block is dirty, so that it is written
    have hdirty : ((s.store x (x + 3) (write32 s.mem x w)).mapped (2 + b / BLKBITSIZE)
        && (s.store x (x + 3) (write32 s.mem x w)).dirty (2 + b / BLKBITSIZE)) = true := by
      rw [← hxblk]
      simp [Cache.store, hm]
    unfold Cache.flushBlock at heq
    rw [if_neg (by omega), hblk, if_pos hdirty] at heq
    cases heq
    rfl

/-- The super block is one that `fs_init` accepts, and the bitmap marks the reserved blocks in
use. -/
structure Sized (m : Memory) : Prop where
  small : nblocks m ≤ DISKSIZE / BLKSIZE
  reserved : ∀ b, Reserved m b → isFree m b = false

/-- Where the bitmap has a complete word, its blocks exist. -/
theorem Sized.bitmapOk {m : Memory} (h : Sized m) (hlarge : 2 < nblocks m) :
  BitmapOk m
  := ⟨h.small, hlarge, h.reserved⟩

/-- The bit of block `32 * i + j` is looked at, and the block is taken if it is free. -/
theorem execs_allocBit {Q : Option Word → Cache → Prop} {i j : Nat} (hs : Coherent s)
    (hm : BitmapOk s.view) (hj : j < 32) (hlt : 32 * i + j < nblocks s.view)
    (htake : isFree s.view (32 * i + j) = true →
      ∀ s', Took s (32 * i + j) s' → Q (some (BitVec.ofNat 32 (32 * i + j))) s')
    (hskip : isFree s.view (32 * i + j) = false → ∀ s', Loaded s s' → Q none s') :
  Execs (allocBit i j) s Q
  := by
  have hword : bitmap + 4 * i = bitmapWord (32 * i + j) := by
    rw [bitmapWord]
    omega
  have hmask : 1#32 <<< j = bitmapMask (32 * i + j) := by
    rw [bitmapMask, Nat.mul_add_mod, Nat.mod_eq_of_lt hj]
  obtain ⟨b, hb⟩ : ∃ b, b = 32 * i + j := ⟨_, rfl⟩
  unfold allocBit
  rw [or_eq_add hj, hword, hmask]
  rw [← hb] at hlt htake hskip ⊢
  obtain ⟨s1, hacc, hl, hmap, hmap'⟩ := accessWord_ok hs (hm.okWord_bitmapWord hlt)
  have hs1 := hl.coherent hs
  apply execs_bind
  apply execs_get32 hacc
  rw [read32_view hmap hmap', hl.view]
  by_cases hbit : read32 s.view (bitmapWord b) &&& bitmapMask b ≠ 0
  · rw [if_pos hbit]
    have hfree : isFree s.view b = true := by simpa [isFree, hlt] using hbit
    have hb1 : b < nblocks s1.view := by rw [hl.view]; exact hlt
    have hsmall1 : nblocks s1.view ≤ DISKSIZE / BLKSIZE := by rw [hl.view]; exact hm.small
    obtain ⟨s2, hflush, htook⟩ := took_flush hs1 hb1 hsmall1 rfl
      (w := read32 s.view (bitmapWord b) &&& ~~~ bitmapMask b) (by rw [hl.view]) hmap hmap'
    obtain ⟨hview, hcoh⟩ := store32_view hs1 hmap hmap'
      (read32 s.view (bitmapWord b) &&& ~~~ bitmapMask b)
    have hv : (s1.store (bitmapWord b) (bitmapWord b + 3) (write32 s1.mem (bitmapWord b)
        (read32 s.view (bitmapWord b) &&& ~~~ bitmapMask b))).view = takeBlock s.view b := by
      rw [hview, hl.view]
      rfl
    have hblock : (BitVec.ofNat 32 (b / BLKBITSIZE + 2)).toNat = 2 + b / BLKBITSIZE := by
      have hsmall := hm.small
      rw [BitVec.toNat_ofNat]
      simp only [DISKSIZE, BLKSIZE, BLKBITSIZE] at hsmall ⊢
      omega
    apply execs_bind
    apply execs_set32 (accessWord_of_mapped hmap hmap')
    apply execs_bind
    apply execs_diskaddr hcoh
    · intro hzero
      rw [hzero] at hblock
      have hpos : 2 + b / BLKBITSIZE = 0 := hblock.symm
      rw [Nat.add_eq_zero_iff] at hpos
      cases hpos.1
    · rw [hblock, hv, nblocks_takeBlock]
      exact hm.reserved_lt (reserved_of_lt hlt)
    · rw [hblock]
      apply execs_bind
      apply execs_sync hflush
      apply execs_pure
      exact htake hfree s2 (hl.took htook)
  · rw [if_neg hbit]
    apply execs_pure
    apply hskip _ s1 hl
    rw [isFree, Decidable.not_not.mp hbit]
    simp

/-- The first free block that `alloc_block` looks at was taken. -/
def TookFirst (s : Cache) (r : Word) (s' : Cache) : Prop :=
  r.toNat < scanned s.view ∧ isFree s.view r.toNat = true ∧ Took s r.toNat s'

theorem execs_allocWord {i : Nat} (hs : Coherent s) (hm : BitmapOk s.view)
    (hi : i < nblocks s.view / 32) (hbefore : ∀ c < 32 * i, isFree s.view c = false) :
  Execs (findUp 0 32 (fun j => allocBit i j)) s
    (fun r s' => (r = none → Loaded s s' ∧ ∀ c < 32 * i + (0 + 32), isFree s.view c = false)
      ∧ ∀ b, r = some b → TookFirst s b s')
  := by
  have hsmall := hm.small
  -- before bit `j`, no block was found free
  apply execs_findUp (fun j s' => Loaded s s' ∧ ∀ c < 32 * i + j, isFree s.view c = false)
    (TookFirst s)
  · rintro j s1 - hj ⟨hl, hnone⟩
    rw [Nat.zero_add] at hj
    have hlt : 32 * i + j < scanned s.view := by
      rw [scanned]
      omega
    have hlt' : 32 * i + j < nblocks s1.view := by
      rw [hl.view]
      rw [scanned] at hlt
      omega
    apply execs_allocBit (hl.coherent hs) (by rw [hl.view]; exact hm) hj hlt'
    · intro hfree s2 htook
      refine ⟨by rintro ⟨⟩, ?_⟩
      rintro b hb
      cases hb
      have htoNat : (BitVec.ofNat 32 (32 * i + j)).toNat = 32 * i + j := by
        rw [BitVec.toNat_ofNat]
        simp only [DISKSIZE, BLKSIZE] at hsmall
        rw [hl.view] at hlt'
        omega
      rw [TookFirst, htoNat]
      rw [hl.view] at hfree
      exact ⟨hlt, hfree, hl.took htook⟩
    · intro hfree s2 hl2
      refine ⟨?_, by rintro b ⟨⟩⟩
      rintro -
      refine ⟨hl.trans hl2, ?_⟩
      intro c hc
      rcases Nat.lt_or_eq_of_le (Nat.le_of_lt_succ hc) with hc | rfl
      · exact hnone c hc
      · rw [← hl.view]
        exact hfree
  · exact ⟨Loaded.refl s, hbefore⟩

/-- `alloc_block` takes a free block, or no block that it looks at is free and nothing is
changed. -/
theorem execs_allocBlock (hs : Coherent s) (hm : Sized s.view) :
  Execs allocBlock s (fun r s' => TookFirst s r s' ∨
    (r = -E_NO_DISK ∧ (∀ c < scanned s.view, isFree s.view c = false) ∧ Loaded s s'))
  := by
  have hloop : Execs (findUp 0 (nblocks s.view / 32) (fun i => findUp 0 32 (fun j => allocBit i j)))
      s (fun r s' => (r = none → Loaded s s'
          ∧ ∀ c < 32 * (0 + nblocks s.view / 32), isFree s.view c = false)
        ∧ ∀ b, r = some b → TookFirst s b s') := by
    -- before word `i`, no block was found free
    apply execs_findUp (fun i s' => Loaded s s' ∧ ∀ c < 32 * i, isFree s.view c = false)
      (TookFirst s)
    · rintro i s1 - hi ⟨hl, hbefore⟩
      rw [Nat.zero_add] at hi
      have hlarge : 2 < nblocks s.view := by omega
      rw [← hl.view] at hi hbefore hlarge
      have hm1 : BitmapOk s1.view := by
        apply Sized.bitmapOk _ hlarge
        rw [hl.view]
        exact hm
      apply (execs_allocWord (hl.coherent hs) hm1 hi hbefore).mono
      rintro r s2 ⟨hnone, hsome⟩
      rw [hl.view] at hnone
      constructor
      · intro hr
        obtain ⟨hl2, hall⟩ := hnone hr
        exact ⟨hl.trans hl2, hall⟩
      · intro b hb
        obtain ⟨hlt, hfree, htook⟩ := hsome b hb
        rw [hl.view] at hlt hfree
        exact ⟨hlt, hfree, hl.took htook⟩
    · exact ⟨Loaded.refl s, fun c hc => absurd hc (by omega)⟩
  unfold allocBlock
  apply execs_bind
  apply execs_nblocks hs
  intro n hn
  rw [hn]
  apply execs_bind
  apply hloop.mono
  rintro r s' ⟨hnone, hsome⟩
  apply execs_pure
  cases r with
  | none =>
      right
      obtain ⟨hl, hall⟩ := hnone rfl
      rw [Nat.zero_add] at hall
      exact ⟨rfl, hall, hl⟩
  | some b => exact .inl (hsome b rfl)

/-! ### What allocating is for -/

/-- One call of `alloc_block` is exact.  It returns `-E_NO_DISK` and changes nothing if no block
is free, and else it takes a free block and returns it. -/
structure AllocExact (s : Cache) : Prop where
  none : (∀ b, isFree s.view b = false) → ∃ s', exec allocBlock s = (.ok (-E_NO_DISK), s')
    ∧ s'.view = s.view ∧ s'.disk = s.disk ∧ s'.log = s.log
  some : (∃ b, isFree s.view b = true) → ∃ r s', exec allocBlock s = (.ok r, s')
    ∧ isFree s.view r.toNat = true ∧ Took s r.toNat s'

/-- Call `alloc_block` `n` times. -/
def allocBlocks : Nat → Io (List Word)
  | 0 => pure []
  | n + 1 => do
      let r ← allocBlock
      let rs ← allocBlocks n
      pure (r :: rs)

/-- As many calls of `alloc_block` as there are blocks return every free block once, and
otherwise `-E_NO_DISK`, and leave no block free. -/
def Exhausts (s : Cache) : Prop :=
  ∃ rs s', exec (allocBlocks (nblocks s.view)) s = (.ok rs, s')
    ∧ (∀ b, isFree s.view b = true → rs.count (BitVec.ofNat 32 b) = 1)
    ∧ (∀ r ∈ rs, r = -E_NO_DISK ∨ isFree s.view r.toNat = true)
    ∧ ∀ b, isFree s'.view b = false

/-! ### When it is exact -/

/-- The number of a block is not an error code. -/
theorem Sized.ne_noDisk (h : Sized s.view) {b : Nat} (hb : b < nblocks s.view) :
  BitVec.ofNat 32 b ≠ -E_NO_DISK ∧ (BitVec.ofNat 32 b).toNat = b
  := by
  have hsmall := h.small
  have htoNat : (BitVec.ofNat 32 b).toNat = b := by
    rw [BitVec.toNat_ofNat]
    simp only [DISKSIZE, BLKSIZE] at hsmall
    omega
  constructor
  · intro heq
    rw [heq] at htoNat
    have hcode : (-E_NO_DISK).toNat = 2 ^ 32 - 9 := by decide
    simp only [DISKSIZE, BLKSIZE] at hsmall
    omega
  · exact htoNat

theorem scanned_le (m : Memory) :
  scanned m ≤ nblocks m
  := by
  rw [scanned]
  omega

/-- One call is exact if it looks at a free block, or if no block is free. -/
theorem allocExact_of_scanned (hs : Coherent s) (hm : Sized s.view)
    (h : ∀ b, isFree s.view b = true → b < scanned s.view) :
  AllocExact s
  := by
  obtain ⟨r, s', heq, hres⟩ := execs_allocBlock hs hm
  constructor
  case none =>
    intro hnone
    obtain ⟨-, hfree, -⟩ | ⟨rfl, -, hl⟩ := hres
    · rw [hnone] at hfree
      cases hfree
    · exact ⟨s', heq, hl.view, hl.disk, hl.log⟩
  case some =>
    rintro ⟨b, hfree⟩
    obtain ⟨-, hr, htook⟩ | ⟨-, hall, -⟩ := hres
    · exact ⟨r, s', heq, hr, htook⟩
    · rw [hall b (h b hfree)] at hfree
      cases hfree

/-- The blocks that `n` calls return, and what they leave. -/
structure Handed (s : Cache) (n : Nat) (bs : List Nat) (rs : List Word) (s' : Cache) : Prop where
  coherent : Coherent s'
  nodup : bs.Nodup
  le : bs.length ≤ n
  free : ∀ b ∈ bs, b < scanned s.view ∧ isFree s.view b = true
  results : rs = bs.map (BitVec.ofNat 32) ++ List.replicate (n - bs.length) (-E_NO_DISK)
  all : bs.length < n → ∀ b < scanned s.view, isFree s.view b = true → b ∈ bs
  left : ∀ b, isFree s'.view b = (isFree s.view b && decide (b ∉ bs))

/-- Calling `alloc_block` again and again hands out the blocks that it looks at. -/
theorem execs_allocBlocks (hs : Coherent s) (hm : Sized s.view) (n : Nat) :
  Execs (allocBlocks n) s (fun rs s' => ∃ bs, Handed s n bs rs s')
  := by
  induction n generalizing s with
  | zero =>
      rw [allocBlocks]
      apply execs_pure
      use []
      constructor
      · exact hs
      · exact List.nodup_nil
      · exact Nat.le_refl 0
      · rintro b ⟨⟩
      · rfl
      · intro hlt
        exact (Nat.lt_irrefl 0 hlt).elim
      · simp
  | succ n ih =>
      rw [allocBlocks]
      apply execs_bind
      apply (execs_allocBlock hs hm).mono
      rintro r s1 (⟨hlt, hfree, htook⟩ | ⟨rfl, hnone, hl⟩)
      · -- the block is free no longer, so that it is not handed out again
        have hfree1 : ∀ c, isFree s1.view c = (isFree s.view c && c != r.toNat) := by
          intro c
          rw [htook.view, isFree_takeBlock]
        have hn1 : nblocks s1.view = nblocks s.view := by rw [htook.view, nblocks_takeBlock]
        have hscan1 : scanned s1.view = scanned s.view := by rw [scanned, scanned, hn1]
        have hm1 : Sized s1.view := by
          constructor
          · rw [hn1]
            exact hm.small
          · intro b hb
            rw [Reserved.congr hn1] at hb
            rw [hfree1, hm.reserved b hb, Bool.false_and]
        apply execs_bind
        apply (ih htook.coherent hm1).mono
        rintro rs s2 ⟨bs, hh⟩
        have hr : r.toNat ∉ bs := by
          intro hmem
          have hgone := (hh.free _ hmem).2
          rw [hfree1, bne_self_eq_false, Bool.and_false] at hgone
          cases hgone
        apply execs_pure
        use r.toNat :: bs
        constructor
        case coherent => exact hh.coherent
        case nodup => exact List.nodup_cons.mpr ⟨hr, hh.nodup⟩
        case le =>
          rw [List.length_cons]
          exact Nat.succ_le_succ hh.le
        case free =>
          intro b hb
          obtain rfl | hb := List.mem_cons.mp hb
          · exact ⟨hlt, hfree⟩
          · obtain ⟨hb1, hb2⟩ := hh.free b hb
            rw [hscan1] at hb1
            rw [hfree1, Bool.and_eq_true] at hb2
            exact ⟨hb1, hb2.1⟩
        case results =>
          rw [hh.results, List.length_cons, Nat.add_sub_add_right, List.map_cons,
            List.cons_append, BitVec.ofNat_toNat, BitVec.setWidth_eq]
        case all =>
          intro hlen b hb hbfree
          rw [List.length_cons] at hlen
          by_cases hbr : b = r.toNat
          · rw [hbr]
            exact List.mem_cons_self
          · apply List.mem_cons_of_mem
            apply hh.all (by omega) b
            · rw [hscan1]
              exact hb
            · rw [hfree1, hbfree]
              simpa using hbr
        case left =>
          intro b
          rw [hh.left, hfree1, Bool.and_assoc]
          congr 1
          by_cases hbr : b = r.toNat
          · simp [hbr]
          · simp [hbr]
      · -- nothing that is looked at is free, now and later
        have hm1 : Sized s1.view := by
          rw [hl.view]
          exact hm
        apply execs_bind
        apply (ih (hl.coherent hs) hm1).mono
        rintro rs s2 ⟨bs, hh⟩
        obtain rfl : bs = [] := by
          apply List.eq_nil_iff_forall_not_mem.mpr
          intro b hb
          obtain ⟨hb1, hb2⟩ := hh.free b hb
          rw [hl.view] at hb1 hb2
          rw [hnone b hb1] at hb2
          cases hb2
        apply execs_pure
        use []
        constructor
        case coherent => exact hh.coherent
        case nodup => exact List.nodup_nil
        case le => exact Nat.zero_le _
        case free =>
          rintro b ⟨⟩
        case results =>
          rw [hh.results]
          rfl
        case all =>
          intro _ b hb hbfree
          rw [hnone b hb] at hbfree
          cases hbfree
        case left =>
          intro b
          rw [hh.left, hl.view]

/-- There are more blocks than `alloc_block` hands out, since block 0 is never free. -/
theorem Handed.length_lt {n : Nat} {bs : List Nat} {rs : List Word} (hm : Sized s.view)
    (h : Handed s n bs rs s') :
  bs.length < nblocks s.view ∨ scanned s.view = 0
  := by
  obtain hzero | hpos := Nat.eq_zero_or_pos (scanned s.view)
  · right
    exact hzero
  · left
    have hsub : bs.toFinset ⊆ Finset.Ico 1 (scanned s.view) := by
      intro b hb
      rw [List.mem_toFinset] at hb
      obtain ⟨hlt, hfree⟩ := h.free b hb
      rw [Finset.mem_Ico]
      constructor
      · rw [Nat.one_le_iff_ne_zero]
        rintro rfl
        have hres := hm.reserved 0 (by rw [Reserved]; omega)
        rw [hres] at hfree
        cases hfree
      · exact hlt
    have hcard := Finset.card_le_card hsub
    rw [List.toFinset_card_of_nodup h.nodup, Nat.card_Ico] at hcard
    have hle := scanned_le s.view
    omega

/-- As many calls as there are blocks hand out every free block that is looked at. -/
theorem Handed.exhausts {bs : List Nat} {rs : List Word} (hm : Sized s.view)
    (h : Handed s (nblocks s.view) bs rs s') {b : Nat} (hb : b < scanned s.view)
    (hfree : isFree s.view b = true) :
  b ∈ bs
  := by
  obtain hlt | hzero := h.length_lt hm
  · exact h.all hlt b hb hfree
  · omega

/-- The blocks are exhausted if and only if no free block has its bit in an incomplete word. -/
theorem exhausts_iff (hs : Coherent s) (hm : Sized s.view) :
  Exhausts s ↔ ∀ b, isFree s.view b = true → b < scanned s.view
  := by
  obtain ⟨rs, s', heq, bs, hh⟩ := execs_allocBlocks hs hm (nblocks s.view)
  have hlt : ∀ b ∈ bs, b < nblocks s.view := fun b hb =>
    Nat.lt_of_lt_of_le (hh.free b hb).1 (scanned_le s.view)
  -- a block is among the results if and only if it was handed out
  have hmem : ∀ b < nblocks s.view, BitVec.ofNat 32 b ∈ rs ↔ b ∈ bs := by
    intro b hb
    rw [hh.results, List.mem_append, List.mem_map]
    constructor
    · rintro (⟨c, hc, hcb⟩ | hcode)
      · have heq := congrArg BitVec.toNat hcb
        rw [(hm.ne_noDisk (hlt c hc)).2, (hm.ne_noDisk hb).2] at heq
        rw [← heq]
        exact hc
      · exact ((hm.ne_noDisk hb).1 (List.eq_of_mem_replicate hcode)).elim
    · intro hbs
      left
      exact ⟨b, hbs, rfl⟩
  constructor
  · rintro ⟨rs', s'', heq', hcount, -, -⟩ b hfree
    rw [heq] at heq'
    cases heq'
    have hin : BitVec.ofNat 32 b ∈ rs := by
      rw [← List.one_le_count_iff, hcount b hfree]
    exact (hh.free b ((hmem b (lt_of_isFree hfree)).mp hin)).1
  · intro hall
    refine ⟨rs, s', heq, ?_, ?_, ?_⟩
    · intro b hfree
      have hb := lt_of_isFree hfree
      have hbs := hh.exhausts hm (hall b hfree) hfree
      have hcode : (List.replicate (nblocks s.view - bs.length) (-E_NO_DISK)).count
          (BitVec.ofNat 32 b) = 0 := by
        rw [List.count_eq_zero]
        intro hmem
        exact (hm.ne_noDisk hb).1 (List.eq_of_mem_replicate hmem)
      rw [hh.results, List.count_append, hcode, Nat.add_zero]
      apply List.count_eq_one_of_mem
      · apply List.Nodup.map_on _ hh.nodup
        intro c hc d hd hcd
        have heq := congrArg BitVec.toNat hcd
        rw [(hm.ne_noDisk (hlt c hc)).2, (hm.ne_noDisk (hlt d hd)).2] at heq
        exact heq
      · exact List.mem_map_of_mem hbs
    · intro r hr
      rw [hh.results, List.mem_append, List.mem_map] at hr
      obtain ⟨b, hb, rfl⟩ | hcode := hr
      · right
        rw [(hm.ne_noDisk (hlt b hb)).2]
        exact (hh.free b hb).2
      · left
        exact List.eq_of_mem_replicate hcode
    · intro b
      rw [hh.left]
      cases hfree : isFree s.view b with
      | false => rfl
      | true =>
          have hbs := hh.exhausts hm (hall b hfree) hfree
          simpa using hbs

/-- `alloc_block` is exact, and as many calls as there are blocks exhaust the free blocks, if and
only if no free block has its bit in an incomplete last word of the bitmap. -/
theorem allocBlock_exact_iff (hs : Coherent s) (hsmall : nblocks s.view ≤ DISKSIZE / BLKSIZE)
    (hreserved : ∀ b, Reserved s.view b → isFree s.view b = false) :
  AllocExact s ∧ Exhausts s ↔ ∀ b, isFree s.view b = true → b < 32 * (nblocks s.view / 32)
  := by
  have hm : Sized s.view := ⟨hsmall, hreserved⟩
  constructor
  · rintro ⟨-, hex⟩
    exact (exhausts_iff hs hm).mp hex
  · intro hall
    constructor
    · exact allocExact_of_scanned hs hm hall
    · exact (exhausts_iff hs hm).mpr hall

/-- The bits of a disk on which block 8 is free. -/
def oneFree : Memory :=
  fun a => if a = 8193 then 1 else 0

/-- The free block of a small disk is handed out once. -/
theorem allocBlock_exact_tiny :
  AllocExact (Cache.booted (tiny oneFree (fun _ => 0)))
    ∧ Exhausts (Cache.booted (tiny oneFree (fun _ => 0)))
  := by
  have hm : BitmapOk (tiny oneFree (fun _ => 0)) := (owned_tiny (by decide)).bitmap
  have hn : nblocks (tiny oneFree (fun _ => 0)) = 35 := nblocks_tiny
  have hlast : ∀ b < 35, 32 ≤ b → isFree (tiny oneFree (fun _ => 0)) b = false := by decide
  rw [← view_booted (tiny oneFree (fun _ => 0))] at hm hn hlast
  apply (allocBlock_exact_iff (coherent_booted _) hm.small hm.reserved).mpr
  intro b hfree
  have hlt := lt_of_isFree hfree
  rw [hn] at hlt ⊢
  by_contra hge
  rw [hlast b hlt (by omega)] at hfree
  cases hfree

/-- On a disk of 35 blocks of which block 34 is the only free one, `alloc_block` finds no free
block. -/
theorem not_allocExact :
  ¬ AllocExact (Cache.booted (tiny lastFree (fun _ => 0)))
  := by
  have hm : BitmapOk (tiny lastFree (fun _ => 0)) := (owned_tiny (by decide)).bitmap
  have hn : nblocks (tiny lastFree (fun _ => 0)) = 35 := nblocks_tiny
  have hfree : isFree (tiny lastFree (fun _ => 0)) 34 = true := by
    decide
  have hnone : ∀ c < scanned (tiny lastFree (fun _ => 0)),
      isFree (tiny lastFree (fun _ => 0)) c = false := by
    rw [scanned, hn]
    decide
  rw [← view_booted (tiny lastFree (fun _ => 0))] at hm hfree hnone
  intro hexact
  obtain ⟨r, s', heq, hr, -⟩ := hexact.some ⟨34, hfree⟩
  obtain ⟨hlt, hr', -⟩ | ⟨rfl, -, -⟩ := (execs_allocBlock (coherent_booted _)
    ⟨hm.small, hm.reserved⟩).of_eq heq
  · rw [hnone _ hlt] at hr'
    cases hr'
  · have hlt := lt_of_isFree hr
    rw [view_booted, hn] at hlt
    revert hlt
    decide

end Jos.Fs
