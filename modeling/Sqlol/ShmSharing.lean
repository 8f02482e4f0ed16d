/-
Who sees which wal-index: the lock table, the arena and the two-step
`shm_unmap` import together, driven by any connections on any files.

SQLite's side is part of the runs: a connection is at `SHARED` or above from
before its first `shm_map` until its `shm_unmap` is over, and unmaps with a
delete flag only at `EXCLUSIVE`. Under that discipline all mapped pointers
of a region agree with the table, with one gap: `dropFile(name)` forgets every
key that starts with `"name#"`, and a file of another name may start so too.
`shared_iff_noneBelow` says that this is the only gap.
-/
import Sqlol.FileLevels
import Sqlol.ArenaFacts

namespace Sqlol

variable {M : Type}

/-- Where a connection is with the wal-index of its file. -/
inductive ShmUse where
  | detached
  | attached
  /-- Inside `shm_unmap`, behind `locks.shmUnmap` and before `dropFile`. -/
  | unmapping (deleteFlag : Int)
  deriving DecidableEq

/-- The tables of a runtime, and what each connection got from `shm_map`. -/
structure ShmVfs (M : Type) where
  vfs : Vfs := {}
  arena : ShmArena M
  use : Int → ShmUse := fun _ => .detached
  mapped : Int → Int → Option Int := fun _ _ => none

/-- The calls of the handles `conn`. -/
inductive ShmEvent where
  | file (c : VfsCall)
  | shmMap (conn iRegion szRegion bExtend : Int)
  | shmLock (conn offset n : Int) (flags : BitVec 32)
  | shmUnmap (conn deleteFlag : Int)
  | dropFile (conn : Int)

/-- The handle of a call. -/
def VfsCall.conn : VfsCall → Int
  | .open conn _ | .lock conn _ | .unlock conn _ | .close conn => conn

/-- The file calls a connection may make: none while it is inside
`shm_unmap`, and no `unlock` to `NONE` while it has the wal-index. -/
def ShmUse.Allows : ShmUse → VfsCall → Prop
  | .detached, _ => True
  | .attached, .unlock _ target => target ≠ NONE
  | .attached, _ => True
  | .unmapping _, _ => False

instance : ∀ (u : ShmUse) (c : VfsCall), Decidable (u.Allows c)
  | .detached, _ => inferInstanceAs (Decidable True)
  | .attached, .unlock _ target => inferInstanceAs (Decidable (target ≠ NONE))
  | .attached, .open .. | .attached, .lock .. | .attached, .close .. => inferInstanceAs (Decidable True)
  | .unmapping _, _ => inferInstanceAs (Decidable False)

/-- The handle is inside its `xShmUnmap`. -/
def ShmUse.inUnmap : ShmUse → Bool
  | .unmapping _ => true
  | _ => false

namespace ShmVfs

/-- The VFS with other locks. -/
def setLocks (s : ShmVfs M) (locks : JvmVfsLocks) : ShmVfs M := { s with vfs := { s.vfs with locks } }

/-- `*pp = ptr`; 0 is no region. -/
def keep (s : ShmVfs M) (conn iRegion : Int) : Option Int → Int → Int → Option Int
  | none => s.mapped
  | some p =>
    if p = 0 then s.mapped
    else Function.update s.mapped conn (Function.update (s.mapped conn) iRegion (some p))

/-- A call that SQLite makes where the handle is; none elsewhere. -/
def step (memory : Memory M) (s : ShmVfs M) : ShmEvent → Option (ShmVfs M)
  | .file c => if (s.use c.conn).Allows c then (s.vfs.step c).map fun vfs => { s with vfs } else none
  | .shmMap conn iRegion szRegion bExtend =>
    match s.vfs.handles.lookup conn with
    | none => none
    | some name =>
      if (s.use conn).inUnmap = false ∧ SHARED ≤ s.vfs.locks.level name conn then
        let (arena, ptr) := s.arena.map memory name iRegion szRegion bExtend
        some { s with arena, use := Function.update s.use conn .attached, mapped := s.keep conn iRegion ptr }
      else none
  | .shmLock conn offset n flags =>
    match s.vfs.handles.lookup conn with
    | none => none
    | some name =>
      if (s.use conn).inUnmap = false then some (s.setLocks (s.vfs.locks.shmLock conn name offset n flags).1)
      else none
  | .shmUnmap conn deleteFlag =>
    match s.vfs.handles.lookup conn with
    | none => none
    | some name =>
      if (s.use conn).inUnmap = false ∧ (deleteFlag ≠ 0 → s.vfs.locks.level name conn = EXCLUSIVE) then
        some { s.setLocks (s.vfs.locks.shmUnmap conn name).1 with
          use := Function.update s.use conn (.unmapping deleteFlag) }
      else none
  | .dropFile conn =>
    match s.vfs.handles.lookup conn, s.use conn with
    | some name, .unmapping deleteFlag =>
      some { s with
        arena := if deleteFlag ≠ 0 then s.arena.dropFile name else s.arena
        use := Function.update s.use conn .detached
        mapped := Function.update s.mapped conn fun _ => none }
    | _, _ => none

/-- The file a `dropFile` step of this connection deletes. -/
def deletes (s : ShmVfs M) (conn : Int) : Option String :=
  match s.use conn with
  | .unmapping deleteFlag => if deleteFlag ≠ 0 then s.vfs.handles.lookup conn else none
  | _ => none

/-- A runtime with its arena allocated and nothing open. -/
def start (base : Int) (mem : M) : ShmVfs M := { arena := { base, mem } }

/-- All holders of a region have one pointer, and `map` would answer it now. -/
structure Shared (memory : Memory M) (s : ShmVfs M) : Prop where
  same : ∀ c d n r p q, s.vfs.handles.lookup c = some n → s.vfs.handles.lookup d = some n →
    s.mapped c r = some p → s.mapped d r = some q → p = q
  current : ∀ c r p, s.mapped c r = some p → ∃ n, s.vfs.handles.lookup c = some n ∧
    ∀ szRegion bExtend, (s.arena.map memory n r szRegion bExtend).2 = some p

/-- A deleting unmap forgets its own file's regions and no others. -/
def DropsExactly (memory : Memory M) (s : ShmVfs M) : ShmEvent → Prop
  | .dropFile conn => ∀ name s', s.deletes conn = some name → step memory s (.dropFile conn) = some s' →
      ∀ m r, s'.arena.regions.lookup (regionKey m r) =
        if m = name then none else s.arena.regions.lookup (regionKey m r)
  | _ => True

/-- No other file whose name starts with the deleted one's and a `#` has a
region in the table. -/
def NoneBelow (s : ShmVfs M) : ShmEvent → Prop
  | .dropFile conn => ∀ name, s.deletes conn = some name → ∀ m r, m ≠ name →
      startsWith m (name ++ "#") = true → s.arena.regions.lookup (regionKey m r) = none
  | _ => True

/-! ## What a file call leaves alone -/

theorem shmLock_files (t : JvmVfsLocks) (conn : Int) (name : String) (offset n : Int) (flags : BitVec 32) :
    (t.shmLock conn name offset n flags).1.files = t.files := by
  simp only [JvmVfsLocks.shmLock]
  split
  · rfl
  · split <;> split <;> rfl

theorem shmUnmap_files (t : JvmVfsLocks) (conn : Int) (name : String) :
    (t.shmUnmap conn name).1.files = t.files := rfl

theorem level_of_files {t t' : JvmVfsLocks} (h : t'.files = t.files) (n : String) (c : Int) :
    t'.level n c = t.level n c := by
  simp only [JvmVfsLocks.level, h]

theorem inv_of_files {v v' : Vfs} (hi : v.Inv) (hh : v'.handles = v.handles)
    (hf : v'.locks.files = v.locks.files) : v'.Inv :=
  ⟨fun n => (hi.excluded n).of_level_eq (level_of_files hf n),
   fun n c hc => by rw [hh]; exact hi.owned n c (by rwa [level_of_files hf] at hc)⟩

/-- Another connection's call changes neither this one's handle nor its level. -/
theorem call_other {v v' : Vfs} {k : VfsCall} {c : Int} (h : v.step k = some v') (hk : c ≠ k.conn) :
    v'.handles.lookup c = v.handles.lookup c ∧ ∀ n, v'.locks.level n c = v.locks.level n c := by
  simp only [Vfs.step, Option.map_eq_some_iff, Prod.exists, exists_and_right, exists_eq_right] at h
  obtain ⟨rc, h⟩ := h
  rcases Vfs.call_cases h with ⟨conn, name, rfl, -, -, rfl⟩ | ⟨conn, name, target, rfl, -, -, -, rfl⟩ |
    ⟨conn, name, target, rfl, -, -, -, -, rfl⟩ | ⟨conn, name, rfl, -, -, -, rfl⟩
  all_goals simp only [VfsCall.conn] at hk
  · exact ⟨by simp only [Table.lookup_insert, hk, if_false], fun n => rfl⟩
  · refine ⟨rfl, fun n => ?_⟩
    rcases JvmVfsLocks.lock_cases v.locks conn name target with ⟨-, -, he⟩ | ⟨-, -, heq⟩ | ⟨-, -, -, he⟩
    · exact he n c
    · rw [heq]
    · simp only [he, hk, and_false, if_false]
  · exact ⟨rfl, fun n => by simp only [JvmVfsLocks.unlock_level, hk, and_false, if_false]⟩
  · exact ⟨by simp only [Table.lookup_erase, hk, if_false], fun n => rfl⟩

/-- A connection at `SHARED` or above stays there, unless it unlocks to `NONE`. -/
theorem call_keeps_shared {v v' : Vfs} {k : VfsCall} {c : Int} {n : String} (h : v.step k = some v')
    (hn : v.handles.lookup c = some n) (hl : SHARED ≤ v.locks.level n c) (hk : k ≠ .unlock c NONE) :
    v'.handles.lookup c = some n ∧ SHARED ≤ v'.locks.level n c := by
  by_cases hc : c = k.conn
  · simp only [Vfs.step, Option.map_eq_some_iff, Prod.exists, exists_and_right, exists_eq_right] at h
    obtain ⟨rc, h⟩ := h
    rcases Vfs.call_cases h with ⟨conn, name, rfl, hno, -, -⟩ | ⟨conn, name, target, rfl, hno, ht, -, rfl⟩ |
      ⟨conn, name, target, rfl, hno, ht, -, -, rfl⟩ | ⟨conn, name, rfl, hno, hnone, -, -⟩
    all_goals
      simp only [VfsCall.conn] at hc
      subst hc
      rw [hn] at hno
      cases hno
    · refine ⟨hn, ?_⟩
      rcases JvmVfsLocks.lock_cases v.locks c n target with ⟨-, -, he⟩ | ⟨-, -, heq⟩ | ⟨-, -, -, he⟩
      · rw [he]; exact hl
      · rw [heq]; exact hl
      · rw [he, if_pos ⟨rfl, rfl⟩]
        rcases ht with rfl | rfl | rfl <;> decide
    · refine ⟨hn, ?_⟩
      rw [JvmVfsLocks.unlock_level, if_pos ⟨rfl, rfl⟩]
      rcases ht with rfl | rfl
      · exact absurd rfl hk
      · decide
    · rw [hnone] at hl
      exact absurd hl (by decide)
  · obtain ⟨hh, hlv⟩ := call_other h hc
    rw [hh, hlv]
    exact ⟨hn, hl⟩

/-! ## What a map leaves alone -/

theorem map_keeps {memory : Memory M} {a : ShmArena M} {key : String} {p : Int}
    (h : a.regions.lookup key = some p) (name : String) (iRegion szRegion bExtend : Int) :
    (a.map memory name iRegion szRegion bExtend).1.regions.lookup key = some p := by
  rcases a.map_cases memory name iRegion szRegion bExtend with ⟨_, -, heq⟩ | ⟨-, -, heq⟩ | ⟨-, -, -, heq⟩ |
    ⟨mem, hl, -, -, heq⟩
  · rw [heq]; exact h
  · rw [heq]; exact h
  · rw [heq]; exact h
  · rw [heq]
    have hne : key ≠ regionKey name iRegion := by rintro rfl; rw [hl] at h; cases h
    simp only [Table.lookup_insert, hne, if_false]
    exact h

/-- A non-zero answer is in the table behind the call. -/
theorem map_stores {memory : Memory M} {a : ShmArena M} {name : String} {iRegion szRegion bExtend p : Int}
    (h : (a.map memory name iRegion szRegion bExtend).2 = some p) (hp : p ≠ 0) :
    (a.map memory name iRegion szRegion bExtend).1.regions.lookup (regionKey name iRegion) = some p := by
  rcases a.map_cases memory name iRegion szRegion bExtend with ⟨q, hl, heq⟩ | ⟨-, -, heq⟩ | ⟨-, -, -, heq⟩ |
    ⟨mem, -, -, -, heq⟩
  all_goals rw [heq] at h ⊢
  · cases h; exact hl
  · cases h; exact absurd rfl hp
  · cases h
  · cases h
    simp only [Table.lookup_insert, if_true]

/-- What is in the table is what `map` answers. -/
theorem map_known {memory : Memory M} {a : ShmArena M} {name : String} {iRegion p : Int}
    (h : a.regions.lookup (regionKey name iRegion) = some p) (szRegion bExtend : Int) :
    (a.map memory name iRegion szRegion bExtend).2 = some p := by
  simp only [ShmArena.map, h]

theorem keep_cases {s : ShmVfs M} {conn iRegion : Int} {ptr : Option Int} {c r p : Int}
    (h : s.keep conn iRegion ptr c r = some p) :
    s.mapped c r = some p ∨ (c = conn ∧ r = iRegion ∧ ptr = some p ∧ p ≠ 0) := by
  simp only [keep] at h
  split at h
  · exact .inl h
  · next q =>
    split at h
    · exact .inl h
    · next hq =>
      by_cases hc : c = conn
      · subst hc
        rw [Function.update_self] at h
        by_cases hr : r = iRegion
        · subst hr
          rw [Function.update_self] at h
          cases h
          exact .inr ⟨rfl, rfl, rfl, hq⟩
        · rw [Function.update_of_ne hr] at h
          exact .inl h
      · rw [Function.update_of_ne hc] at h
        exact .inl h

theorem deletes_iff {s : ShmVfs M} {c : Int} {n : String} :
    s.deletes c = some n ↔ ∃ d, s.use c = .unmapping d ∧ d ≠ 0 ∧ s.vfs.handles.lookup c = some n := by
  simp only [deletes]
  split
  · next d hd =>
    split
    · next h0 => exact ⟨fun h => ⟨d, hd, h0, h⟩, fun ⟨_, _, _, h⟩ => h⟩
    · next h0 =>
      refine ⟨fun h => (nomatch h), fun ⟨d', hd', h, _⟩ => ?_⟩
      rw [hd] at hd'
      cases hd'
      exact absurd h h0
  · next hno => exact ⟨fun h => (nomatch h), fun ⟨d, hd, _⟩ => absurd hd (hno d)⟩

/-! ## The invariant -/

/-- A mapped pointer is in the table, under the file its connection has open
and holds at least `SHARED`; a deleting unmap is under `EXCLUSIVE`. -/
structure Inv (s : ShmVfs M) : Prop where
  vfs : s.vfs.Inv
  mapped : ∀ c r p, s.mapped c r = some p → s.use c ≠ .detached ∧ ∃ n, s.vfs.handles.lookup c = some n ∧
    SHARED ≤ s.vfs.locks.level n c ∧ s.arena.regions.lookup (regionKey n r) = some p
  deleting : ∀ c n, s.deletes c = some n → s.vfs.locks.level n c = EXCLUSIVE

theorem inv_start (base : Int) (mem : M) : Inv (start base mem) :=
  ⟨Vfs.inv_empty, fun _ _ _ h => by simp [start] at h, fun _ _ h => by simp [start, deletes] at h⟩

section
variable {memory : Memory M} {s s' : ShmVfs M}

theorem Inv.file (hi : s.Inv) {k : VfsCall} (h : step memory s (.file k) = some s') : s'.Inv := by
  simp only [step] at h
  split at h
  · next ha =>
    obtain ⟨v, hv, rfl⟩ := Option.map_eq_some_iff.mp h
    refine ⟨hi.vfs.step hv, fun c r p hm => ?_, fun c n hd => ?_⟩
    · obtain ⟨hu, n, hn, hl, hk⟩ := hi.mapped c r p hm
      refine ⟨hu, n, ?_⟩
      have hne : k ≠ .unlock c NONE := by
        rintro rfl
        simp only [VfsCall.conn] at ha
        cases hc : s.use c with
        | detached => exact hu hc
        | attached => rw [hc] at ha; exact ha rfl
        | unmapping d => rw [hc] at ha; exact ha
      obtain ⟨hn', hl'⟩ := call_keeps_shared hv hn hl hne
      exact ⟨hn', hl', hk⟩
    · obtain ⟨d, hu, h0, hn⟩ := deletes_iff.mp hd
      have hc : c ≠ k.conn := by
        rintro rfl
        rw [hu] at ha
        exact ha
      obtain ⟨hh, hlv⟩ := call_other hv hc
      rw [hlv]
      exact hi.deleting c n (deletes_iff.mpr ⟨d, hu, h0, hh ▸ hn⟩)
  · cases h

/-- Calls that only touch the slot locks. -/
theorem Inv.setLocks (hi : s.Inv) {locks : JvmVfsLocks} (hf : locks.files = s.vfs.locks.files) :
    (s.setLocks locks).Inv := by
  refine ⟨inv_of_files hi.vfs rfl hf, fun c r p hm => ?_, fun c n hd => ?_⟩
  · obtain ⟨hu, n, hn, hl, hk⟩ := hi.mapped c r p hm
    exact ⟨hu, n, hn, by simp only [ShmVfs.setLocks]; rwa [level_of_files hf], hk⟩
  · simp only [ShmVfs.setLocks]
    rw [level_of_files hf]
    exact hi.deleting c n hd

theorem Inv.shmMap (hi : s.Inv) {conn iRegion szRegion bExtend : Int}
    (h : step memory s (.shmMap conn iRegion szRegion bExtend) = some s') : s'.Inv := by
  simp only [step] at h
  split at h
  · cases h
  · next name hn =>
    split at h
    · next hg =>
      cases h
      refine ⟨hi.vfs, fun c r p hm => ?_, fun c n hd => ?_⟩
      · rcases keep_cases hm with hm | ⟨rfl, rfl, hptr, hp⟩
        · obtain ⟨hu, n, hcn, hl, hk⟩ := hi.mapped c r p hm
          refine ⟨?_, n, hcn, hl, map_keeps hk ..⟩
          by_cases hc : c = conn
          · subst hc; simp
          · simpa [hc] using hu
        · exact ⟨by simp, name, hn, hg.2, map_stores hptr hp⟩
      · obtain ⟨d, hu, h0, hcn⟩ := deletes_iff.mp hd
        by_cases hc : c = conn
        · subst hc; simp at hu
        · simp only [Function.update_of_ne hc] at hu
          exact hi.deleting c n (deletes_iff.mpr ⟨d, hu, h0, hcn⟩)
    · cases h

theorem Inv.shmUnmap (hi : s.Inv) {conn deleteFlag : Int}
    (h : step memory s (.shmUnmap conn deleteFlag) = some s') : s'.Inv := by
  simp only [step] at h
  split at h
  · cases h
  · next name hn =>
    split at h
    · next hg =>
      cases h
      have hi' := hi.setLocks (shmUnmap_files s.vfs.locks conn name)
      refine ⟨hi'.vfs, fun c r p hm => ?_, fun c n hd => ?_⟩
      · obtain ⟨hu, rest⟩ := hi'.mapped c r p hm
        refine ⟨?_, rest⟩
        by_cases hc : c = conn
        · subst hc; simp
        · simp only [Function.update_of_ne hc]; exact hu
      · obtain ⟨d, hu, h0, hcn⟩ := deletes_iff.mp hd
        by_cases hc : c = conn
        · subst hc
          simp only [Function.update_self, ShmUse.unmapping.injEq] at hu
          subst hu
          have hname : n = name := by
            have : s.vfs.handles.lookup c = some n := hcn
            rw [hn] at this
            exact (Option.some.inj this).symm
          subst hname
          exact hg.2 h0
        · simp only [Function.update_of_ne hc] at hu
          exact hi'.deleting c n (deletes_iff.mpr ⟨d, hu, h0, hcn⟩)
    · cases h

theorem dropFile_iff {conn : Int} :
    step memory s (.dropFile conn) = some s' ↔
    ∃ name deleteFlag, s.vfs.handles.lookup conn = some name ∧ s.use conn = .unmapping deleteFlag ∧
      s' = { s with
        arena := if deleteFlag ≠ 0 then s.arena.dropFile name else s.arena
        use := Function.update s.use conn .detached
        mapped := Function.update s.mapped conn fun _ => none } := by
  constructor
  · intro h
    simp only [step] at h
    split at h
    · next name d hn hu => exact ⟨name, d, hn, hu, (Option.some.inj h).symm⟩
    · cases h
  · rintro ⟨name, d, hn, hu, rfl⟩
    simp only [step, hn, hu]

/-- The deleting connection is alone on its file, so the regions it takes
away are mapped by nobody else. -/
theorem Inv.dropFile (hi : s.Inv) {conn : Int} (hnb : s.NoneBelow (.dropFile conn))
    (h : step memory s (.dropFile conn) = some s') : s'.Inv := by
  obtain ⟨name, d, hn, hu, rfl⟩ := dropFile_iff.mp h
  refine ⟨hi.vfs, fun c r p hm => ?_, fun c n hd => ?_⟩
  · by_cases hc : c = conn
    · subst hc; simp at hm
    · simp only [Function.update_of_ne hc] at hm
      obtain ⟨huc, n, hcn, hl, hk⟩ := hi.mapped c r p hm
      refine ⟨by simpa [hc] using huc, n, hcn, hl, ?_⟩
      simp only
      split
      · next h0 =>
        have hdel : s.deletes conn = some name := deletes_iff.mpr ⟨d, hu, h0, hn⟩
        have hne : n ≠ name := by
          rintro rfl
          have := (hi.vfs.excluded n).exclusive conn c (hi.deleting conn n hdel) hc
          rw [this] at hl
          exact absurd hl (by decide)
        have hkeep : ¬ (n = name ∨ startsWith n (name ++ "#") = true) := by
          rintro (heq | hpre)
          · exact hne heq
          · have := hnb name hdel n r hne hpre
            rw [hk] at this
            cases this
        rw [ShmArena.lookup_dropFile, if_neg hkeep]
        exact hk
      · exact hk
  · obtain ⟨d', hu', h0, hcn⟩ := deletes_iff.mp hd
    by_cases hc : c = conn
    · subst hc; simp at hu'
    · simp only [Function.update_of_ne hc] at hu'
      exact hi.deleting c n (deletes_iff.mpr ⟨d', hu', h0, hcn⟩)

theorem Inv.step {e : ShmEvent} (hi : s.Inv) (hnb : s.NoneBelow e) (h : step memory s e = some s') :
    s'.Inv := by
  cases e with
  | file => exact hi.file h
  | shmMap => exact hi.shmMap h
  | shmLock conn offset n flags =>
    simp only [ShmVfs.step] at h
    split at h
    · cases h
    · split at h
      · cases h; exact hi.setLocks (shmLock_files ..)
      · cases h
  | shmUnmap => exact hi.shmUnmap h
  | dropFile => exact hi.dropFile hnb h

theorem Inv.shared (hi : s.Inv) : Shared memory s where
  same c d n r p q hc hd hp hq := by
    obtain ⟨-, n₁, h₁, -, hk₁⟩ := hi.mapped c r p hp
    obtain ⟨-, n₂, h₂, -, hk₂⟩ := hi.mapped d r q hq
    rw [hc] at h₁
    rw [hd] at h₂
    cases h₁
    cases h₂
    rw [hk₁] at hk₂
    exact Option.some.inj hk₂
  current c r p hp := by
    obtain ⟨-, n, hn, -, hk⟩ := hi.mapped c r p hp
    exact ⟨n, hn, map_known hk⟩

/-- One deleting unmap: exact, when and only when no other file's regions start so. -/
theorem dropsExactly_iff {e : ShmEvent} : DropsExactly memory s e ↔ s.NoneBelow e := by
  cases e with
  | dropFile conn =>
    simp only [DropsExactly, NoneBelow]
    refine forall_congr' fun name => ⟨fun h hdel m r hm hpre => ?_, fun h s' hdel hs m r => ?_⟩
    · obtain ⟨d, hu, h0, hn⟩ := deletes_iff.mp hdel
      have hx := h _ hdel (dropFile_iff.mpr ⟨name, d, hn, hu, rfl⟩) m r
      simp only [ne_eq, h0, not_false_eq_true, if_true, ShmArena.lookup_dropFile, hpre, or_true, hm,
        if_false] at hx
      exact hx.symm
    · obtain ⟨name', d, hn, hu, rfl⟩ := dropFile_iff.mp hs
      obtain ⟨d', hu', h0, hn'⟩ := deletes_iff.mp hdel
      rw [hu] at hu'
      cases hu'
      rw [hn] at hn'
      cases hn'
      simp only [ne_eq, h0, not_false_eq_true, if_true, ShmArena.lookup_dropFile]
      by_cases hm : m = name
      · simp [hm]
      · by_cases hpre : startsWith m (name ++ "#") = true
        · simp [hpre, hm, h hdel m r hm hpre]
        · simp [hpre, hm]
  | _ => simp only [DropsExactly, NoneBelow]

/-- **One wal-index per file.** Along every run, all holders of a region
share the pointer `map` would answer, and every deleting unmap forgets
exactly its own file's regions, if and only if no deleting unmap of `name`
finds regions of another file whose name starts with `"name#"`. -/
theorem shared_iff_noneBelow (base : Int) (mem : M) (events : List ShmEvent) :
    EveryState (step memory) (Shared memory) (start base mem) events ∧
      EveryStep (step memory) (DropsExactly memory) (start base mem) events ↔
    EveryStep (step memory) NoneBelow (start base mem) events := by
  constructor
  · rintro ⟨-, h⟩
    exact h.imp fun _ _ => dropsExactly_iff.mp
  · intro h
    exact ⟨everyState_of_invariant (fun _ _ _ hi hnb hs => hi.step hnb hs) (fun _ hi => hi.shared)
      (inv_start base mem) h, h.imp fun _ _ => dropsExactly_iff.mpr⟩

end

/-- A connection of `"a#b"` has its wal-index when the last one of `"a"` closes. -/
def closeNextDoor : List ShmEvent :=
  [.file (.open 1 "a#b"), .file (.lock 1 SHARED), .shmMap 1 0 32768 1,
   .file (.open 2 "a"), .file (.lock 2 SHARED), .shmMap 2 0 32768 1, .file (.lock 2 EXCLUSIVE),
   .shmUnmap 2 1, .dropFile 2]

/-- Afterwards `map` no longer answers the pointer that connection holds. -/
theorem closeNextDoor_unshares :
    ¬ (EveryState (step (ShmArena.flat 33554432)) (Shared (ShmArena.flat 33554432))
        (start 65536 fun _ => 0) closeNextDoor ∧
      EveryStep (step (ShmArena.flat 33554432)) (DropsExactly (ShmArena.flat 33554432))
        (start 65536 fun _ => 0) closeNextDoor) := by
  rintro ⟨hall, -⟩
  have hend : ((run (step (ShmArena.flat 33554432)) (start 65536 fun _ => 0) closeNextDoor).map fun s =>
      (s.mapped 1 0, s.vfs.handles.lookup 1, (s.arena.map (ShmArena.flat 33554432) "a#b" 0 32768 0).2)) =
      some (some 65536, some "a#b", some 0) := by decide
  obtain ⟨s, hs, he⟩ := Option.map_eq_some_iff.mp hend
  simp only [Prod.mk.injEq] at he
  obtain ⟨n, hn, hcur⟩ := (hall.last hs).current 1 0 65536 he.1
  rw [he.2.1] at hn
  cases hn
  have := hcur 32768 0
  rw [he.2.2] at this
  cases this

end ShmVfs

end Sqlol
