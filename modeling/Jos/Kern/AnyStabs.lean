import Jos.Kern.Kdebug

/-!
# Stabs that nobody vouches for

The table of a user program may contain anything.  Whatever it contains, `stab_binsearch` reads
stabs of its range only, and its results are in the range as well, or just in front of it: that is
where it ends if it goes down to the first stab of the range, each stab it meets on the way being
behind the address.  So `debuginfo_eip`, which searches again from a result, stays in the table unless
the search for the source file goes down to the first stab of all.

The address grows with each exact hit.  Two hits, one after the other, leave half of what was there
before them, so that there are fewer hits than stabs: the address of a user program does not become
zero before the search ends.
-/

namespace Jos

open Bytes Prog Stab

variable {σ : Type} {stabs : Stabs σ} {I : σ → Prop} {tab : Int → Stab} {a b : Int} {type : Byte}
  {addr : Word} {g g' : Region}

/-! ### Searches in any table -/

/-- The address has room to grow for three of four stabs from `a` to `b`. -/
def HasRoom (a b : Int) (addr : Word) : Prop :=
  0 ≤ a ∧ 4 * addr.toNat + 3 * (b - a + 1).toNat + 36 < 2 ^ 34

/-- A search from `a` to `b` that finds every stab behind the address goes down to the first one. -/
inductive Sinks (tab : Int → Stab) (type : Byte) (a : Int) (addr : Word) : Int → Prop where
  | front : Sinks tab type a addr (a - 1)
  | down (b m : Int) (hb : a ≤ b) (hm : LastIn (Typed tab type) a ((a + b).tdiv 2) m)
      (hlt : addr < (tab m).n_value) (h : Sinks tab type a addr (m - 1)) : Sinks tab type a addr b

/-- Where a search from `a` to `b` ends. -/
inductive Lands (tab : Int → Stab) (type : Byte) (a b : Int) (addr : Word) : Int × Int → Prop where
  /-- There is no stab of the type. -/
  | absent : Lands tab type a b addr (a, a - 1)
  | inside (left right : Int) (ha : a ≤ left) (hle : left ≤ right) (hb : right ≤ b)
      (htype : HasRoom a b addr → left = a ∨ Typed tab type left) :
      Lands tab type a b addr (left, right)
  /-- The search has gone down to the first stab. -/
  | before (htype : Typed tab type a) (hsinks : HasRoom a b addr → Sinks tab type a addr b) :
      Lands tab type a b addr (a - 1, a - 1)

/-- What is known during any search from `a` to `b`. -/
structure Roams (tab : Int → Stab) (type : Byte) (a b : Int) (g : Region) : Prop where
  lo : a ≤ g.l
  hi : g.r ≤ b
  le : g.l ≤ g.r + 1
  right : g.region_right = g.r
  left_lo : a ≤ g.region_left
  left_hi : g.region_left ≤ b
  first : a ≤ g.r ∨ Typed tab type a
  none : g.any_matches = false → g.region_left = a

/-- Behind `g.l` there is no stab of the type up to `t`, so that the next hit leaves what is behind
`t` at most. The address has room to grow for what is left. -/
structure Grows (tab : Int → Stab) (type : Byte) (g : Region) (t : Int) : Prop where
  lo : g.l ≤ t
  hi : t ≤ g.r + 1
  none : NoneIn (Typed tab type) (g.l + 1) t
  -- of the stabs that are left at most eight count more than the others
  room : 4 * g.addr.toNat + 2 * g.left + (g.r - t) + 4 * (8 - (8 - g.left) : Nat)
    + 4 * g.fresh tab type < (2 ^ 34 : Nat)

/-- What is known besides if the address has room to grow. -/
structure Climbs (tab : Int → Stab) (type : Byte) (a b : Int) (addr : Word) (g : Region) :
    Prop where
  sought : addr ≤ g.addr
  room : ∃ t, Grows tab type g t
  left : g.region_left = a ∨ (Typed tab type g.region_left
    ∧ (tab g.region_left).n_value < g.addr ∧ g.region_left ≤ g.l ∧ g.region_left ≤ g.r)
  first : a ≤ g.r ∨ addr < (tab a).n_value
  sinks : g.l = a → (tab a).n_value = addr
    ∨ (g.addr = addr ∧ (Sinks tab type a addr g.r → Sinks tab type a addr b))

theorem Grows.succ {t : Int} (h : Grows tab type g t) (hle : g.l ≤ g.r) :
  (g.addr + 1).toNat = g.addr.toNat + 1
  := by
  have hone : (1 : Word).toNat = 1 := rfl
  have hhi := h.hi
  have hroom := h.room
  have hpos : 0 < g.left := by
    rw [Region.left]
    omega
  rw [BitVec.toNat_add, hone]
  omega

/-- The middle is in the middle. -/
theorem Region.true_m_half (h : 0 ≤ g.l) (hle : g.l ≤ g.r) :
  2 * g.true_m ≤ g.l + g.r ∧ g.l + g.r ≤ 2 * g.true_m + 1
  := by
  rw [Region.true_m, Int.tdiv_eq_ediv_of_nonneg (by omega)]
  omega

/-- A round without a hit leaves half, and after a hit the next one leaves half. -/
theorem Step.grows {t : Int} (h : Step tab type g g') (hpos : 0 ≤ g.l) (hle : g.l ≤ g.r)
    (hg : Grows tab type g t) :
  ∃ t', Grows tab type g' t'
  := by
  rcases Region.true_m_mem hle with ⟨hlo, hhi⟩
  rcases Region.true_m_half hpos hle with ⟨hbelow, habove⟩
  have hfresh := g'.fresh_le tab type
  have hlt := hg.lo
  have htr := hg.hi
  have hroom := hg.room
  rw [Region.left] at hroom
  cases h with
  | skip hnone =>
      use g.true_m + 1
      constructor
      case lo => apply Int.le_refl
      case hi => apply Int.add_le_add_right hhi 1
      case none => apply noneIn_of_lt (Int.lt_succ _)
      case room =>
        simp only [Region.left]
        omega
  | below m hm hv =>
      use g.true_m + 1
      constructor
      case lo => apply Int.le_refl
      case hi => apply Int.add_le_add_right hhi 1
      case none => apply noneIn_of_lt (Int.lt_succ _)
      case room =>
        simp only [Region.left]
        omega
  | above m hm hv =>
      have hml := hm.lo
      have hmr := hm.hi
      use g.l
      constructor
      case lo => apply Int.le_refl
      case hi => exact Int.le_trans hml (Int.le_of_eq (Int.sub_add_cancel m 1).symm)
      case none => apply noneIn_of_lt (Int.lt_succ _)
      case room =>
        simp only [Region.left]
        omega
  | hit m hm hv =>
      have hml := hm.lo
      have hmr := hm.hi
      have hafter := Region.fresh_after g hm.holds hv
      rcases Int.lt_or_eq_of_le hml with hlt' | heq
      · use g.true_m
        constructor
        case lo => apply hmr
        case hi => exact Int.le_trans hhi (Int.le_of_lt (Int.lt_succ _))
        case none => apply hm.after
        case room =>
          have hbehind : t < m := by
            rcases Int.lt_or_le t m with hlt | hge
            · apply hlt
            · apply (hg.none m hlt' hge hm.holds).elim
          rw [hafter]
          simp only [Region.left, hg.succ hle]
          omega
      · use t
        rw [← heq] at hafter ⊢
        constructor
        case lo => apply hlt
        case hi => apply htr
        case none => apply hg.none
        case room =>
          rw [← heq] at hv
          rw [hafter]
          rw [Region.fresh_before hv] at hroom
          simp only [Region.left, hg.succ hle]
          omega

theorem Step.roams (h : Step tab type g g') (hle : g.l ≤ g.r) (hg : Roams tab type a b g) :
  Roams tab type a b g'
  := by
  rcases Region.true_m_mem hle with ⟨hlo, hhi⟩
  have ha := hg.lo
  have hb := hg.hi
  have hnext : a ≤ g.true_m + 1 := by omega
  have hle' := Int.add_le_add_right hhi 1
  have hfound : ∀ {m}, LastIn (Typed tab type) g.l g.true_m m → a ≤ m ∧ m ≤ g.r ∧ m ≤ b := by
    intro m hm
    have hml := hm.lo
    have hmr := hm.hi
    omega
  cases h with
  | skip hnone =>
      exact ⟨hnext, hb, hle', hg.right, hg.left_lo, hg.left_hi, hg.first, hg.none⟩
  | below m hm hv =>
      rcases hfound hm with ⟨ham, -, hmb⟩
      exact ⟨hnext, hb, hle', hg.right, ham, hmb, hg.first, nofun⟩
  | above m hm hv =>
      rcases hfound hm with ⟨ham, -, hmb⟩
      have hend : m - 1 ≤ b := by omega
      have hcancel : g.l ≤ m - 1 + 1 := Int.le_trans hm.lo (Int.le_of_eq (Int.sub_add_cancel m 1).symm)
      refine ⟨ha, hend, hcancel, rfl, hg.left_lo, hg.left_hi, ?_, nofun⟩
      rcases Int.lt_or_eq_of_le ham with hlt | heq
      · left
        apply Int.le_sub_one_of_lt hlt
      · right
        rw [heq]
        apply hm.holds
  | hit m hm hv =>
      rcases hfound hm with ⟨ham, hmr, hmb⟩
      have hcancel : m ≤ g.r + 1 := Int.le_trans hmr (Int.le_of_lt (Int.lt_succ _))
      exact ⟨ham, hb, hcancel, hg.right, ham, hmb, hg.first, nofun⟩

theorem Step.climbs (h : Step tab type g g') (hle : g.l ≤ g.r) (h0 : 0 ≤ a)
    (hg : Roams tab type a b g) (hc : Climbs tab type a b addr g) :
  Climbs tab type a b addr g'
  := by
  rcases Region.true_m_mem hle with ⟨hlo, hhi⟩
  rcases hc.room with ⟨t, ht⟩
  have hsought := hc.sought
  have hgrow := h.grows (Int.le_trans h0 hg.lo) hle ht
  have hoff : g.true_m + 1 ≠ a := by
    have hlo' := hg.lo
    omega
  cases h with
  | skip hnone =>
      refine ⟨hsought, hgrow, ?_, hc.first, fun heq => (hoff heq).elim⟩
      rcases hc.left with hstart | ⟨htype, hlt, hl, hr⟩
      · left
        apply hstart
      · right
        exact ⟨htype, hlt, Int.le_trans hl (Int.le_trans hlo (Int.le_of_lt (Int.lt_succ _))), hr⟩
  | below m hm hv =>
      refine ⟨hsought, hgrow, ?_, hc.first, fun heq => (hoff heq).elim⟩
      right
      have hmt := hm.hi
      exact ⟨hm.holds, hv, Int.le_trans hmt (Int.le_of_lt (Int.lt_succ _)), Int.le_trans hmt hhi⟩
  | above m hm hv =>
      have ham := Int.le_trans hg.lo hm.lo
      refine ⟨hsought, hgrow, ?_, ?_, ?_⟩
      · rcases hc.left with hstart | ⟨htype, hlt, hl, hr⟩
        · left
          apply hstart
        · right
          refine ⟨htype, hlt, hl, Int.le_sub_one_of_lt ?_⟩
          have hne : g.region_left ≠ m := by
            intro heq
            rw [heq] at hlt
            apply BitVec.lt_irrefl _ (BitVec.lt_trans hlt hv)
          apply Int.lt_iff_le_and_ne.mpr ⟨Int.le_trans hl hm.lo, hne⟩
      · rcases Int.lt_or_eq_of_le ham with hlt | heq
        · left
          apply Int.le_sub_one_of_lt hlt
        · right
          rw [heq]
          rw [BitVec.lt_def] at hv ⊢
          apply Nat.lt_of_le_of_lt hsought hv
      · intro heq
        rcases hc.sinks heq with hexact | ⟨haddr, hback⟩
        · left
          apply hexact
        · right
          refine ⟨haddr, fun hs => hback ?_⟩
          rw [haddr] at hv
          have heq' : g.l = a := heq
          apply Sinks.down g.r m (by omega) _ hv hs
          rw [← heq']
          apply hm
  | hit m hm hv =>
      have hnext := ht.succ hle
      have hmt := hm.hi
      refine ⟨?_, hgrow, ?_, hc.first, ?_⟩
      · rw [BitVec.le_def] at hsought ⊢
        rw [hnext]
        omega
      · right
        refine ⟨hm.holds, ?_, Int.le_refl m, Int.le_trans hmt hhi⟩
        rw [BitVec.lt_def, hnext, hv]
        apply Nat.lt_succ_self
      · intro heq
        left
        have hl : g.l = a := by
          have hml := hm.lo
          have hlo' := hg.lo
          have heq' : m = a := heq
          omega
        rcases hc.sinks hl with hexact | ⟨haddr, -⟩
        · apply hexact
        · rw [← haddr, ← hv]
          exact congrArg (fun i => (tab i).n_value) heq.symm

/-- What `stab_binsearch` makes of the range when the search has ended. -/
theorem Roams.finish (hshows : stabs.Shows I tab a b) (hg : Roams tab type a b g)
    (hc : HasRoom a b addr → Climbs tab type a b addr g) :
  (if g.any_matches = false then pure (g.region_left, g.region_left - 1)
    else do
      let l ← scanDown stabs type (g.region_right - g.region_left).toNat g.region_right
      pure (l, g.region_right) : Prog σ (Int × Int)).Gives I (Lands tab type a b addr)
  := by
  have hleft := hg.left_lo
  have hl := hg.lo
  have hle := hg.le
  apply gives_ite
  · intro hany
    rw [hg.none hany]
    apply gives_pure
    apply Lands.absent
  · intro _
    rw [hg.right]
    apply (scanDown_gives hshows (g.r - g.region_left).toNat hg.hi (by omega)).bind
    intro k hk
    apply gives_pure
    have hplace : k ≤ g.r ∧ (g.region_left ≤ k ∨ k = g.r)
        ∧ (Typed tab type k ∨ k = g.region_left ∨ g.r < g.region_left) := by
      rcases hk with hk | ⟨hk, -⟩
      · have hlo := hk.lo
        have hhi := hk.hi
        exact ⟨hhi, by omega, Or.inl hk.holds⟩
      · omega
    rcases Int.lt_or_le g.r a with hlt | hge
    · have hr : g.r = a - 1 := by omega
      have hk' : k = a - 1 := by omega
      rw [hk', hr]
      apply Lands.before
      · rcases hg.first with hge | htype
        · omega
        · apply htype
      · intro hroom
        have hbehind : addr < (tab a).n_value := by
          rcases (hc hroom).first with hge | hbehind
          · omega
          · apply hbehind
        rcases (hc hroom).sinks (by omega) with hexact | ⟨-, hback⟩
        · rw [hexact] at hbehind
          apply (BitVec.lt_irrefl addr hbehind).elim
        · apply hback
          rw [show g.r = a - 1 by omega]
          apply Sinks.front
    · apply Lands.inside k g.r (by omega) hplace.1 hg.hi
      intro hroom
      rcases hplace.2.2 with htype | heq | hlt
      · right
        apply htype
      · rcases (hc hroom).left with hstart | ⟨htype, -⟩
        · left
          rw [heq, hstart]
        · right
          rw [heq]
          apply htype
      · rcases (hc hroom).left with hstart | ⟨-, -, -, hr⟩
        · omega
        · omega

/-- In any table the search ends, in the range or just in front of it. -/
theorem stabBinsearch_lands (hshows : stabs.Shows I tab a b) :
  (stabBinsearch stabs a b type addr).Gives I (Lands tab type a b addr)
  := by
  rcases Int.lt_or_le b a with hempty | hab
  · rw [stabBinsearch_empty hempty]
    apply gives_pure
    apply Lands.absent
  · apply (searchLoop_gives
      (P := fun g => Roams tab type a b g ∧ (HasRoom a b addr → Climbs tab type a b addr g)) hshows
      (fun g hg => ⟨hg.1.lo, hg.1.hi⟩)
      (fun g g' hg hle hs =>
        ⟨hs.roams hle hg.1, fun hroom => hs.climbs hle hroom.1 hg.1 (hg.2 hroom)⟩)
      _ (measure_start rfl rfl)).bind
    · rintro g ⟨⟨hg, hc⟩, hend⟩
      apply hg.finish hshows hc
    · constructor
      · exact ⟨Int.le_refl a, Int.le_refl b, Int.le_add_one hab, rfl, Int.le_refl a, hab, Or.inl hab,
          fun _ => rfl⟩
      · intro hroom
        refine ⟨BitVec.le_refl addr, ⟨a, ?_⟩, Or.inl rfl, Or.inl hab, fun _ => Or.inr ⟨rfl, id⟩⟩
        have hfresh := Region.fresh_le tab type
          { l := a, r := b, region_left := a, region_right := b, any_matches := false, addr := addr }
        constructor
        case lo => apply Int.le_refl
        case hi => apply Int.le_add_one hab
        case none => apply noneIn_of_lt (Int.lt_succ a)
        case room =>
          rw [HasRoom] at hroom
          simp only [Region.left]
          omega

/-! ### What is filled in from any table -/

/-- Both names are unknown, or begin in the table of strings. -/
structure NamedIn (d : StabData) (info : Eipdebuginfo) : Prop where
  file : InStrings d info.eip_file
  fn_name : InStrings d info.eip_fn_name

section Any

variable {ops : DebugOps σ} {mem : Word → Byte} {d : StabData} {info : Eipdebuginfo} {n : Int}
  {eip : Word} {end_of : Int × Int → Int} (hshows : stabs.Shows I tab 0 (n - 1))
  (hstrings : Strings ops.load I mem d) (hend : ∀ q, end_of q = q.1 ∨ end_of q = q.2)
include hshows hstrings hend

/-- The search for the line stays in a bracket that does not begin with a stab of a line. -/
theorem lineInfo_named {lfile lfun rfun left right : Int} {addr : Word} (hfile : 0 ≤ lfile)
    (hlfun : 0 ≤ lfun) (hrfun : rfun ≤ n) (hleft : lfile ≤ left) (hright : right ≤ n - 1)
    (htype : ¬ Typed tab N_SLINE left) (hnamed : NamedIn d info) :
  (lineInfo ops stabs d end_of lfile lfun rfun (left, right) addr info).Gives I
    (fun r => NamedIn d r.2)
  := by
  have hshow : stabs.Shows I tab left right := hshows.within (Int.le_trans hfile hleft) hright
  apply (lineInfo_gives hshows hstrings hend hfile hlfun hrfun hnamed.fn_name
    (stabBinsearch_lands hshow) _).mono
  · rintro r ⟨-, hname, heq⟩
    constructor
    case file => apply hname hnamed.file
    case fn_name =>
      rw [heq]
      apply hnamed.fn_name
  · intro q hq hle
    cases hq with
    | absent => omega
    | inside l r ha hle' hb _ =>
        change 0 ≤ l ∧ lfile ≤ l + 1 ∧ r ≤ n - 1
        omega
    | before htype' => apply (htype htype').elim

/-- The search stays in the table, unless the search for the file goes down to the first stab. -/
theorem searchStabs_named (hcount : (d.count - 1).toInt = n - 1) (hroom : HasRoom 0 (n - 1) eip)
    (hhead : ¬ Sinks tab N_SO 0 eip (n - 1)) (hnamed : NamedIn d info) :
  (searchStabs ops stabs d end_of eip info).Gives I (fun r => r.1 = -1 ∨ NamedIn d r.2)
  := by
  rw [searchStabs, hcount]
  apply (stabBinsearch_lands hshows).bind
  intro file hfile
  cases hfile with
  | absent =>
      apply gives_pure
      left
      rfl
  | before htype hsinks => apply (hhead (hsinks hroom)).elim
  | inside left right ha hle hb htype =>
      apply gives_ite
      · intro _
        apply gives_pure
        left
        rfl
      · intro hne
        have hso : Typed tab N_SO left := (htype hroom).resolve_left hne
        have hroom' : HasRoom left right eip := by
          rw [HasRoom] at hroom ⊢
          omega
        apply (stabBinsearch_lands (hshows.within ha hb)).bind
        intro func hfunc
        have hline : ∀ {i}, Typed tab N_SO i ∨ Typed tab N_FUN i → ¬ Typed tab N_SLINE i := by
          rintro i (h | h) h'
          · apply h.ne h' (by decide) rfl
          · apply h.ne h' (by decide) rfl
        cases hfunc with
        | absent =>
            apply gives_ite
            · intro hlt
              omega
            · intro _
              have hrfun : left - 1 ≤ n := by omega
              have hnamed' : NamedIn d { info with eip_fn_addr := eip } :=
                ⟨hnamed.file, hnamed.fn_name⟩
              apply (lineInfo_named hshows hstrings hend ha ha hrfun (Int.le_refl left) hb
                (hline (Or.inl hso)) hnamed').mono
              exact fun r hr => Or.inr hr
        | before htype' => apply (hso.ne htype' (by decide) rfl).elim
        | inside lfun rfun ha' hle' hb' htype' =>
            have hlfun : ¬ Typed tab N_SLINE lfun := by
              apply hline
              rcases htype' hroom' with heq | hfun
              · left
                rw [heq]
                apply hso
              · right
                apply hfun
            apply gives_ite
            · intro _
              apply (functionInfo_gives hshows (by omega) (by omega)).bind
              rintro _ rfl
              have hnamed' : NamedIn d { info with
                  eip_fn_name := stringOr d (tab lfun).n_strx info.eip_fn_name
                  eip_fn_addr := (tab lfun).n_value } :=
                ⟨hnamed.file, inStrings_stringOr _ hnamed.fn_name⟩
              have hrfun : rfun ≤ n - 1 := Int.le_trans hb' hb
              apply (lineInfo_named hshows hstrings hend ha (Int.le_trans ha ha') (by omega) ha' hrfun
                hlfun hnamed').mono
              exact fun r hr => Or.inr hr
            · intro hgt
              apply (hgt hle').elim

end Any

/-! ### The tables of a user program -/

/-- The checks that a kernel makes pass, and the table of strings is not empty. -/
structure Asked (pass : Word → Word → Prop) (d : StabData) : Prop where
  usd : pass USTABDATA sizeofUserStabData
  stabs : pass d.stabs d.count
  strings : pass d.stabstr (d.stabstr_end - d.stabstr)
  lt : d.stabstr < d.stabstr_end

/-- What a kernel that goes on behind its checks relies on: the table is there as a whole, and the
search for the file does not go down to the first stab. -/
structure Sound (load : Word → Prog σ Byte) (I : σ → Prop) (mem : Word → Byte) (d : StabData)
    (eip : Word) : Prop where
  bytes : ∀ i, 0 ≤ i → i ≤ (d.count - 1).toInt → ∀ o < 12,
    Holds load I mem (stabAddr d.stabs i + BitVec.ofNat 32 o)
  room : HasRoom 0 (d.count - 1).toInt eip
  head : ¬ Sinks (tableAt mem d.stabs) N_SO 0 eip (d.count - 1).toInt

section User

variable {ops : DebugOps σ} {mem : Word → Byte} {d : StabData} {eip : Word}
  {end_of : Int × Int → Int} {failed : Word → Bool} {pass : Word → Word → Prop}

/-- The call returns a negative value, or all checks have passed and the names are in the table. -/
theorem debuginfoEip_named (hd : d = dataAt ops mem eip) (hlow : eip.toNat < ULIM)
    (hend : ∀ q, end_of q = q.1 ∨ end_of q = q.2)
    (hcheck : ∀ va len, (ops.user_mem_check va len).Gives I (fun r => failed r = false ↔ pass va len))
    (husd : pass USTABDATA sizeofUserStabData →
      ∀ i < 16, Holds ops.load I mem (USTABDATA + BitVec.ofNat 32 i))
    (hstrings : Asked pass d → ∀ j < (d.stabstr_end - d.stabstr).toNat,
      Holds ops.load I mem (d.stabstr + BitVec.ofNat 32 j))
    (hsound : Asked pass d → mem (d.stabstr_end - 1) = 0 → 0 ≤ (d.count - 1).toInt →
      Sound ops.load I mem d eip) :
  (debuginfoEip ops failed end_of eip).Gives I (fun r => r.1 = -1
    ∨ (Asked pass d ∧ mem (d.stabstr_end - 1) = 0 ∧ 0 ≤ (d.count - 1).toInt
      ∧ Strings ops.load I mem d ∧ NamedIn d r.2))
  := by
  have hno : ∀ info : Eipdebuginfo, (pure (-1, info) : Prog σ (Word × Eipdebuginfo)).Gives I
      (fun r => r.1 = -1 ∨ (Asked pass d ∧ mem (d.stabstr_end - 1) = 0
        ∧ 0 ≤ (d.count - 1).toInt ∧ Strings ops.load I mem d ∧ NamedIn d r.2)) :=
    fun info => gives_pure (Or.inl rfl)
  apply (stabTables_user hd hlow (hcheck _ _) (hcheck _ _) (hcheck _ _) husd).bind
  rintro t (⟨rfl, -⟩ | ⟨rfl, hpass, hpass', hpass''⟩)
  · apply hno
  · apply gives_ite
    · exact fun _ => hno _
    · intro hlt
      have hasked : Asked pass d := ⟨hpass, hpass', hpass'', BitVec.not_le.mp hlt⟩
      have hlast := StabData.holds_last hasked.lt (hstrings hasked)
      apply hlast.bind
      rintro _ rfl
      apply gives_ite
      · exact fun _ => hno _
      · intro hzero
        have hzero' := not_not.mp hzero
        have hs : Strings ops.load I mem d := ⟨hasked.lt, hstrings hasked, hzero'⟩
        rcases Int.lt_or_le (d.count - 1).toInt 0 with hneg | hpos
        · rw [searchStabs, stabBinsearch_empty hneg, pure_bind]
          apply hno
        · have h := hsound hasked hzero' hpos
          have hshows : (stabsAt ops.load d.stabs).Shows I (tableAt mem d.stabs) 0
              ((d.count - 1).toInt + 1 - 1) := by
            rw [Int.add_sub_cancel]
            apply stabsAt_shows h.bytes
          have hroom : HasRoom 0 ((d.count - 1).toInt + 1 - 1) eip := by
            rw [Int.add_sub_cancel]
            apply h.room
          have hhead : ¬ Sinks (tableAt mem d.stabs) N_SO 0 eip ((d.count - 1).toInt + 1 - 1) := by
            rw [Int.add_sub_cancel]
            apply h.head
          apply (searchStabs_named hshows hs hend (Int.add_sub_cancel _ _).symm hroom hhead _).mono
          · rintro r (heq | hnamed)
            · left
              apply heq
            · right
              exact ⟨hasked, hzero', hpos, hs, hnamed⟩
          · exact ⟨trivial, trivial⟩

end User

end Jos
