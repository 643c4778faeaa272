import Jos.Lib.Frame
import Jos.Lib.View
import Jos.User.World

/-!
# What the accesses and system calls of a user program do

An access through a mapping reads or writes the byte of the page that is mapped.  A system call
changes one mapping and nothing else, or refuses and changes nothing.  Strings are measured and
copied as a view of the memory shows them, as long as nothing is written to what the view shows.
-/

namespace Jos

namespace User

open Bytes Prog View

variable {w w' : World} {e va : Word}

/-! ### Views -/

/-- What the environment `e` reads. -/
def World.view (w : World) (e : Word) : View :=
  fun va => (w.translate e PTE_U va).map w.mem

theorem view_eq_some {b : Byte} :
  w.view e va = some b ↔ ∃ pa, w.translate e PTE_U va = some pa ∧ w.mem pa = b
  := Option.map_eq_some_iff

theorem translate_eq_some {perm : Word} {pa : Nat} :
  w.translate e perm va = some pa ↔
    ∃ m, w.entry e va = some m ∧ m.perm &&& perm = perm ∧ m.page * PGSIZE + PGOFF va = pa
  := by
  rw [World.translate]
  cases w.entry e va with
  | none => simp
  | some m =>
      simp only [Option.some.injEq, exists_eq_left']
      split
      case isTrue h => simp [h]
      case isFalse h => simp [h]

/-- What may be written may be read. -/
theorem translate_of_writable {pa : Nat} (h : w.translate e (PTE_U ||| PTE_W) va = some pa) :
  w.translate e PTE_U va = some pa
  := by
  rw [translate_eq_some] at h ⊢
  obtain ⟨m, hm, hperm, hpa⟩ := h
  use m, hm, and_of_and_or hperm

/-! ### Mappings -/

/-- The addresses of a page. -/
theorem off_page {o : Nat} (hva : va.toNat % PGSIZE = 0) (ho : o < PGSIZE) :
  PGNUM (off va o) = PGNUM va ∧ PGOFF (off va o) = o
  := by
  have h := va.isLt
  simp only [PGSIZE] at hva ho
  rw [PGNUM_eq, PGNUM_eq, PGOFF_eq, off_toNat]
  omega

@[simp]
theorem entry_setMem (m : Memory) :
  (w.setMem m).entry = w.entry
  := rfl

@[simp]
theorem translate_setMem (m : Memory) :
  (w.setMem m).translate = w.translate
  := rfl

@[simp]
theorem entry_asked :
  w.asked.entry = w.entry
  := rfl

@[simp]
theorem entry_askedTable :
  w.askedTable.entry = w.entry
  := rfl

@[simp]
theorem entry_alloc (perm : Word) :
  (w.alloc e va perm).entry = (w.setEntry e va (some ⟨w.next, perm⟩)).entry
  := rfl

theorem procs_setEntry (m : Option Mapped) :
  (w.setEntry e va m).procs e
    = (w.procs e).map (fun p => { p with maps := Function.update p.maps (PGNUM va) m })
  := by
  simp only [World.setEntry, Function.update_self]

theorem procs_setEntry_of_ne {e' : Word} (h : e' ≠ e) (m : Option Mapped) :
  (w.setEntry e va m).procs e' = w.procs e'
  := by
  simp only [World.setEntry, Function.update_of_ne h]

/-- The mapping that was set. -/
theorem entry_setEntry {va' : Word} (he : (w.procs e).isSome) (h : PGNUM va' = PGNUM va)
    (m : Option Mapped) :
  (w.setEntry e va m).entry e va' = m
  := by
  obtain ⟨p, hp⟩ := Option.isSome_iff_exists.mp he
  rw [World.entry, procs_setEntry, hp, h]
  apply Function.update_self

/-- The mappings that were not set. -/
theorem entry_setEntry_of_ne {e' va' : Word} (h : e' = e → PGNUM va' ≠ PGNUM va)
    (m : Option Mapped) :
  (w.setEntry e va m).entry e' va' = w.entry e' va'
  := by
  rw [World.entry, World.entry]
  by_cases he : e' = e
  · subst he
    rw [procs_setEntry]
    cases w.procs e' with
    | none => rfl
    | some p => apply Function.update_of_ne (h rfl)
  · rw [procs_setEntry_of_ne he]

/-- Setting a mapping creates and destroys no environments. -/
@[simp]
theorem isSome_setEntry (e' : Word) (m : Option Mapped) :
  ((w.setEntry e va m).procs e').isSome = (w.procs e').isSome
  := by
  by_cases he : e' = e
  · subst he
    rw [procs_setEntry, Option.isSome_map]
  · rw [procs_setEntry_of_ne he]

/-- The pages that are mapped were handed out. -/
structure World.Wf (w : World) : Prop where
  self_ne : w.self ≠ 0
  running : (w.procs w.self).isSome
  fresh : ∀ e va m, w.entry e va = some m → m.page < w.next

namespace World.Wf

theorem asked (h : w.Wf) :
  w.asked.Wf
  := ⟨h.self_ne, h.running, h.fresh⟩

theorem askedTable (h : w.Wf) :
  w.askedTable.Wf
  := ⟨h.self_ne, h.running, h.fresh⟩

theorem setMem (h : w.Wf) (m : Memory) :
  (w.setMem m).Wf
  := ⟨h.self_ne, h.running, h.fresh⟩

theorem setEntry (h : w.Wf) {m : Option Mapped} (hm : ∀ m', m = some m' → m'.page < w.next) :
  (w.setEntry e va m).Wf
  := by
  constructor
  case self_ne => exact h.self_ne
  case running =>
    have hrun := h.running
    rw [← @isSome_setEntry w e va _ m] at hrun
    exact hrun
  case fresh =>
    intro e' va' m' hm'
    by_cases heq : e' = e ∧ PGNUM va' = PGNUM va
    · obtain ⟨rfl, hnum⟩ := heq
      have hsome : (w.procs e').isSome := by
        rw [← @isSome_setEntry w e' va _ m]
        cases hp : (w.setEntry e' va m).procs e' with
        | none =>
            rw [World.entry, hp] at hm'
            cases hm'
        | some p => rfl
      rw [entry_setEntry hsome hnum] at hm'
      exact hm m' hm'
    · rw [entry_setEntry_of_ne (fun h1 h2 => heq ⟨h1, h2⟩)] at hm'
      exact h.fresh _ _ _ hm'

theorem alloc (h : w.Wf) (perm : Word) :
  (w.alloc e va perm).Wf
  := by
  have hnext : Wf { w with next := w.next + 1 } :=
    ⟨h.self_ne, h.running, fun e va m hm => Nat.lt_succ_of_lt (h.fresh e va m hm)⟩
  have hset := @setEntry _ e va hnext (some ⟨w.next, perm⟩)
    (fun m' hm' => by
      obtain rfl := Option.some.inj hm'
      exact Nat.lt_succ_self _)
  exact ⟨hset.self_ne, hset.running, hset.fresh⟩

/-- The environment that runs, under its other name. -/
theorem find_zero (h : w.Wf) :
  ∃ p, w.find 0 = some p
  := by
  obtain ⟨p, hp⟩ := Option.isSome_iff_exists.mp h.running
  use p
  rw [World.find, World.key, if_pos rfl, hp]

end World.Wf

/-! ### System calls -/

@[simp]
theorem key_self (h : w.self ≠ 0) :
  w.key w.self = w.self ∧ w.key 0 = w.self
  := by
  constructor
  · rw [World.key, if_neg h]
  · rw [World.key, if_pos rfl]

section Calls

variable {envid perm : Word} {p : Proc}

/-- `sys_page_alloc` where all depends on the memory there is. -/
theorem sysPageAlloc_eq (hva : UserPageAddr va) (hperm : ProperPerm perm)
    (hfind : w.find envid = some p) :
  sysPageAlloc envid va perm w =
    if isError (w.fate 0) then .ok (-E_NO_MEM, w.asked)
    else .ok (0, w.asked.alloc (w.key envid) va perm)
  := by
  rw [sysPageAlloc, if_neg (not_not.mpr hva), if_neg (not_not.mpr hperm), get_bind, hfind]
  simp only
  rw [request, bind_assoc, get_bind, bind_assoc, set_bind, pure_bind]
  split
  case isTrue h => rfl
  case isFalse h => rfl

/-- `sys_page_map` where all depends on the memory there is. -/
theorem sysPageMap_eq {srcva dstenvid dstva : Word} {p' : Proc} {m : Mapped}
    (hsrc : UserPageAddr srcva) (hdst : UserPageAddr dstva) (hperm : ProperPerm perm)
    (hfind : w.find envid = some p) (hfind' : w.find dstenvid = some p')
    (hm : w.entry (w.key envid) srcva = some m)
    (hw : ¬ (perm &&& PTE_W ≠ 0 ∧ m.perm &&& PTE_W = 0)) :
  sysPageMap envid srcva dstenvid dstva perm w =
    if isError (w.tables 0) ∧ (w.entry (w.key dstenvid) dstva).isNone then .ok (-E_NO_MEM, w.askedTable)
    else .ok (0, w.askedTable.setEntry (w.key dstenvid) dstva (some ⟨m.page, perm⟩))
  := by
  rw [sysPageMap, get_bind, hfind]
  simp only
  rw [hfind']
  simp only
  rw [if_neg (not_or.mpr ⟨not_not.mpr hsrc, not_not.mpr hdst⟩), if_neg (not_not.mpr hperm), hm]
  simp only
  rw [if_neg hw, requestTable, bind_assoc, get_bind, bind_assoc, set_bind, pure_bind]
  split
  case isTrue h => rfl
  case isFalse h => rfl

theorem sysPageUnmap_eq (hva : UserPageAddr va) (hfind : w.find envid = some p) :
  sysPageUnmap envid va w = .ok (0, w.setEntry (w.key envid) va none)
  := by
  rw [sysPageUnmap, if_neg (not_not.mpr hva), get_bind, hfind]
  rfl

end Calls

/-! ### Accesses -/

theorem load_eq {b : Byte} (h : w.view w.self va = some b) :
  load va w = .ok (b, w)
  := by
  obtain ⟨pa, hpa, rfl⟩ := view_eq_some.mp h
  rw [load, get_bind, hpa]
  rfl

theorem store_eq {pa : Nat} (h : w.translate w.self (PTE_U ||| PTE_W) va = some pa) (b : Byte) :
  store va b w = .ok ((), w.setMem (write8 w.mem pa b))
  := by
  rw [store, get_bind, h]
  rfl

theorem load32_eq {x : Word} (h : (w.view w.self).word va = some x) :
  load32 va w = .ok (x, w)
  := by
  obtain ⟨b0, b1, b2, b3, h0, h1, h2, h3, rfl⟩ := word_eq_some.mp h
  rw [load32, bind_of_eq (load_eq h0), bind_of_eq (load_eq h1), bind_of_eq (load_eq h2),
    bind_of_eq (load_eq h3)]
  rfl

/-- A word is stored byte by byte. -/
theorem store32_eq {pa : Nat}
    (h : ∀ i < 4, w.translate w.self (PTE_U ||| PTE_W) (off va i) = some (pa + i)) (x : Word) :
  store32 va x w = .ok ((), w.setMem (write32 w.mem pa x))
  := by
  have h0 := h 0 (by omega)
  rw [off_zero, Nat.add_zero] at h0
  have hstore : ∀ i < 4, ∀ m b, store (off va i) b (w.setMem m)
      = .ok ((), w.setMem (write8 m (pa + i) b)) :=
    fun i hi m b => store_eq (w := w.setMem m) (h i hi) b
  rw [store32, bind_of_eq (store_eq h0 _), bind_of_eq (hstore 1 (by omega) _ _),
    bind_of_eq (hstore 2 (by omega) _ _), ← write8_bytes]
  exact hstore 3 (by omega) _ _

/-- The length of a string is returned, and nothing changes. -/
theorem strlen_eq {s : Word} {bs : List Byte} (h : (w.view w.self).Str s bs) :
  strlen s w = .ok (BitVec.ofNat 32 bs.length, w)
  := by
  have hlen := h.length_lt
  have hends : (strlen s).Ends w (fun n w' => n = BitVec.ofNat 32 bs.length ∧ w' = w)
      (fun _ => False) := by
    rw [strlen, ends_bind]
    apply ends_skipUp (fun _ w' => w' = w) (Nat.zero_le bs.length)
    · rw [ADDRESSES]
      omega
    · rintro i _ _ hi rfl
      rw [ends_bind, ends_of_eq (load_eq (h.bytes i hi)), ends_pure]
      exact ⟨decide_eq_true (h.ne_zero hi), rfl⟩
    · rintro _ rfl
      rw [ends_bind, ends_of_eq (load_eq h.zero), ends_pure, ends_pure]
      exact ⟨rfl, rfl, rfl⟩
    · rfl
  obtain ⟨n, w', heq, rfl, rfl⟩ := hends.returns
  exact heq

/-! ### What accesses leave alone -/

/-- From `w` to `w'` only memory changed. -/
def OnlyMem (w w' : World) : Prop :=
  ∃ m, w' = w.setMem m

theorem OnlyMem.composes :
  Composes OnlyMem
  := by
  constructor
  case refl => exact fun w => ⟨w.mem, rfl⟩
  case trans =>
    rintro w _ _ ⟨m, rfl⟩ ⟨m', rfl⟩
    exact ⟨m', rfl⟩

theorem load_keeps (va : Word) :
  Keeps OnlyMem (load va)
  := by
  apply keeps_bind OnlyMem.composes (keeps_get OnlyMem.composes)
  intro w
  apply keeps_bind OnlyMem.composes (keeps_orElse OnlyMem.composes _ (keeps_fault _))
  exact fun _ => keeps_pure OnlyMem.composes _

theorem store_keeps (va : Word) (b : Byte) :
  Keeps OnlyMem (store va b)
  := by
  apply keeps_bind OnlyMem.composes (keeps_get OnlyMem.composes)
  intro w
  apply keeps_bind OnlyMem.composes (keeps_orElse OnlyMem.composes _ (keeps_fault _))
  exact fun _ => keeps_modify (fun w => ⟨_, rfl⟩)

theorem load32_keeps (va : Word) :
  Keeps OnlyMem (load32 va)
  := by
  apply keeps_bind OnlyMem.composes (load_keeps _)
  intro _
  apply keeps_bind OnlyMem.composes (load_keeps _)
  intro _
  apply keeps_bind OnlyMem.composes (load_keeps _)
  intro _
  apply keeps_bind OnlyMem.composes (load_keeps _)
  exact fun _ => keeps_pure OnlyMem.composes _

theorem store32_keeps (va x : Word) :
  Keeps OnlyMem (store32 va x)
  := by
  apply keeps_bind OnlyMem.composes (store_keeps _ _)
  intro _
  apply keeps_bind OnlyMem.composes (store_keeps _ _)
  intro _
  apply keeps_bind OnlyMem.composes (store_keeps _ _)
  exact fun _ => store_keeps _ _

theorem strlen_keeps (s : Word) :
  Keeps OnlyMem (strlen s)
  := by
  apply keeps_bind OnlyMem.composes
  · apply keeps_skipUp OnlyMem.composes
    intro i
    apply keeps_bind OnlyMem.composes (load_keeps _)
    exact fun _ => keeps_pure OnlyMem.composes _
  · exact fun _ => keeps_pure OnlyMem.composes _

theorem strcpy_keeps (dst src : Word) :
  Keeps OnlyMem (strcpy dst src)
  := by
  apply keeps_bind OnlyMem.composes
  · apply keeps_skipUp OnlyMem.composes
    intro i
    apply keeps_bind OnlyMem.composes (load_keeps _)
    intro _
    apply keeps_bind OnlyMem.composes (store_keeps _ _)
    exact fun _ => keeps_pure OnlyMem.composes _
  · exact fun _ => keeps_pure OnlyMem.composes _

/-! ### Writing to one page -/

/-- The page `p` is mapped at `va` for writing, and `v` shows bytes of other pages only. -/
structure Room (w : World) (v : View) (va : Word) (p : Nat) : Prop where
  writable : ∀ o < PGSIZE,
    w.translate w.self (PTE_U ||| PTE_W) (off va o) = some (p * PGSIZE + o)
  shown : ∀ a b, v a = some b → ∃ pa, w.translate w.self PTE_U a = some pa ∧ w.mem pa = b
    ∧ (pa < p * PGSIZE ∨ p * PGSIZE + PGSIZE ≤ pa)

/-- The two memories differ in the bytes from `o` to `o + n` of the page `p` only. -/
def SameBut (p o n : Nat) (m m' : Memory) : Prop :=
  ∀ x, x < p * PGSIZE + o ∨ p * PGSIZE + o + n ≤ x → m' x = m x

namespace Room

variable {v : View} {p : Nat}

theorem within (h : Room w v va p) :
  v.Within (w.view w.self)
  := by
  intro a b hab
  obtain ⟨pa, hpa, hb, -⟩ := h.shown a b hab
  rw [view_eq_some]
  use pa

theorem setMem {m : Memory} (h : Room w v va p) (hm : SameBut p 0 PGSIZE w.mem m) :
  Room (w.setMem m) v va p
  := by
  constructor
  case writable => exact h.writable
  case shown =>
    intro a b hab
    obtain ⟨pa, hpa, hb, hout⟩ := h.shown a b hab
    use pa, hpa
    constructor
    · rw [← hb]
      apply hm
      omega
    · exact hout

/-- A page that was just handed out gives room, and what was read outside of it is still shown. -/
theorem alloc {perm : Word} (hw : w.Wf) (hva : va.toNat % PGSIZE = 0)
    (hperm : perm &&& (PTE_U ||| PTE_W) = PTE_U ||| PTE_W) :
  Room (w.alloc w.self va perm) ((w.view w.self).on (fun a => PGNUM a ≠ PGNUM va)) va w.next
  := by
  constructor
  case writable =>
    intro o ho
    obtain ⟨hnum, hoff⟩ := off_page hva ho
    rw [translate_eq_some]
    use ⟨w.next, perm⟩
    constructor
    · exact entry_setEntry hw.running hnum _
    · rw [hoff]
      exact ⟨hperm, rfl⟩
  case shown =>
    intro a b hab
    rw [on] at hab
    split at hab
    case isFalse => cases hab
    case isTrue hne =>
      obtain ⟨pa, hpa, hb⟩ := view_eq_some.mp hab
      obtain ⟨m, hm, hperm', rfl⟩ := translate_eq_some.mp hpa
      have hfresh := hw.fresh _ _ _ hm
      have hlt := PGOFF_lt a
      simp only [PGSIZE] at hlt
      use m.page * PGSIZE + PGOFF a
      constructor
      · rw [translate_eq_some]
        use m
        constructor
        · rw [← hm]
          exact entry_setEntry_of_ne (fun _ => hne) _
        · exact ⟨hperm', rfl⟩
      · constructor
        · rw [← hb]
          change fill w.mem _ _ _ _ = _
          rw [fill, if_neg]
          simp only [PGSIZE]
          omega
        · simp only [PGSIZE]
          omega

/-- A string is copied to where it fits. -/
theorem strcpy_eq {src : Word} {bs : List Byte} {o : Nat} (h : Room w v va p) (hs : v.Str src bs)
    (hfit : o + bs.length < PGSIZE) :
  ∃ m, strcpy (off va o) src w = .ok ((), w.setMem m)
    ∧ StringAt m (p * PGSIZE + o) bs ∧ SameBut p o (bs.length + 1) w.mem m
  := by
  have hbyte : ∀ {m : Memory} {i : Nat} {b : Byte}, SameBut p o i w.mem m → o + i < PGSIZE →
      v (off src i) = some b →
      (load (off src i) >>= fun ch => store (off (off va o) i) ch >>= fun _ =>
        (pure (ch ≠ 0) : Prog World Bool)) (w.setMem m)
      = .ok (b ≠ 0, w.setMem (write8 m (p * PGSIZE + o + i) b)) := by
    intro m i b hm hi hb
    have hroom : Room (w.setMem m) v va p := by
      apply h.setMem
      intro x hx
      apply hm
      omega
    have hpa := hroom.writable (o + i) hi
    rw [← off_off, ← Nat.add_assoc] at hpa
    rw [bind_of_eq (load_eq (hroom.within _ _ hb)), bind_of_eq (store_eq hpa _)]
    rfl
  have hnext : ∀ {m : Memory} {i : Nat} (b : Byte), SameBut p o i w.mem m →
      SameBut p o (i + 1) w.mem (write8 m (p * PGSIZE + o + i) b) := by
    intro m i b hm x hx
    rw [write8, if_neg (by omega)]
    apply hm
    omega
  have hends : (strcpy (off va o) src).Ends w (fun _ w' => ∃ m, w' = w.setMem m
      ∧ StringAt m (p * PGSIZE + o) bs ∧ SameBut p o (bs.length + 1) w.mem m)
      (fun _ => False) := by
    rw [strcpy, ends_bind]
    apply ends_skipUp (fun i w' => ∃ m, w' = w.setMem m ∧ SameBut p o i w.mem m
      ∧ ∀ j < i, ∀ hj : j < bs.length, m (p * PGSIZE + o + j) = bs[j]) (Nat.zero_le bs.length)
    · rw [ADDRESSES]
      simp only [PGSIZE] at hfit
      omega
    · rintro i _ - hi ⟨m, rfl, hm, hbytes⟩
      rw [ends_of_eq (hbyte hm (by omega) (hs.bytes i hi))]
      refine ⟨decide_eq_true (hs.ne_zero hi), _, rfl, hnext _ hm, ?_⟩
      intro j hj hj'
      rw [write8]
      split
      case isTrue heq =>
        obtain rfl : j = i := by omega
        rfl
      case isFalse hne => exact hbytes j (by omega) hj'
    · rintro _ ⟨m, rfl, hm, hbytes⟩
      rw [ends_of_eq (hbyte hm hfit hs.zero), ends_pure]
      refine ⟨rfl, _, rfl, ?_, hnext _ hm⟩
      constructor
      case bytes =>
        rw [bytesAt_iff]
        intro j hj
        rw [write8, if_neg (by omega)]
        exact hbytes j hj hj
      case zero => rw [write8, if_pos rfl]
      case notMem => exact hs.notMem
    · refine ⟨w.mem, rfl, fun _ _ => rfl, ?_⟩
      intro j hj
      cases hj
  obtain ⟨_, _, heq, m, rfl, hstr, hm⟩ := hends.returns
  exact ⟨m, heq, hstr, hm⟩

end Room

end User

end Jos
