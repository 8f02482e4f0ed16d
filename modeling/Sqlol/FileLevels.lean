/-
File locks over whole runs: SQLite's pager driving `JvmVfsLocks.lock` and
`unlock` through any number of file handles.

`lock_cases` and `unlock_level` say once what a call does to the levels; the
invariant of a run (`Excluded`, and that only open handles have a level) is
derived from them. Exclusion rests on the grant rule alone for upgrades, and
on the caller for downgrades: `unlock` stores whatever level it is given, so
the pager's promise never to unlock upwards is part of the runs considered.
-/
import Sqlol.Runs
import Sqlol.JvmVfsLocks

namespace Sqlol

namespace JvmVfsLocks

/-! ## What a call does to the levels -/

theorem fileState_snd (t : JvmVfsLocks) (name : String) :
    (t.fileState name).2 = (t.files.lookup name).getD {} := by
  simp [fileState]

theorem fileState_fst (t : JvmVfsLocks) (name : String) :
    (t.fileState name).1 = { t with files := (t.files.getOrPut name {}).1 } := rfl

theorem fileState_lookup_ne (t : JvmVfsLocks) {name m : String} (h : m ≠ name) :
    (t.fileState name).1.files.lookup m = t.files.lookup m :=
  Table.lookup_getOrPut_ne _ _ h

/-- Creating an empty entry changes no level. -/
theorem fileState_level (t : JvmVfsLocks) (name m : String) (c : Int) :
    (t.fileState name).1.level m c = t.level m c := by
  by_cases hm : m = name
  · subst hm
    cases h : t.files.lookup m with
    | some st => rw [fileState_fst, Table.getOrPut_fst_of_some h]
    | none => simp [level, fileState_fst, Table.getOrPut, h]
  · simp only [level, fileState_lookup_ne t hm]

theorem fileState_levels_lookup (t : JvmVfsLocks) (name : String) (c : Int) :
    ((t.fileState name).2.levels.lookup c).getD NONE = t.level name c := by
  rw [fileState_snd, level]
  cases t.files.lookup name <;> simp

theorem level_setLevels (t : JvmVfsLocks) (name m : String) (ls : Table Int Int) (c : Int) :
    (t.setLevels name ls).level m c = if m = name then (ls.lookup c).getD NONE else t.level m c := by
  simp only [level, setLevels, Table.lookup_insert]
  split <;> simp

theorem setLevels_lookup_ne (t : JvmVfsLocks) {name m : String} (ls : Table Int Int) (h : m ≠ name) :
    (t.setLevels name ls).files.lookup m = t.files.lookup m :=
  AList.lookup_insert_ne h

/-- Storing a level for one connection. -/
theorem level_setLevels_insert (t : JvmVfsLocks) (name m : String) (conn c target : Int) :
    ((t.fileState name).1.setLevels name ((t.fileState name).2.levels.insert conn target)).level m c =
      if m = name ∧ c = conn then target else t.level m c := by
  rw [level_setLevels, Table.lookup_insert]
  by_cases hm : m = name
  · subst hm
    by_cases hc : c = conn
    · simp [hc]
    · simp [hc, fileState_levels_lookup]
  · simp [hm, fileState_level]

theorem level_setLevels_erase (t : JvmVfsLocks) (name m : String) (conn c : Int) :
    ((t.fileState name).1.setLevels name ((t.fileState name).2.levels.erase conn)).level m c =
      if m = name ∧ c = conn then NONE else t.level m c := by
  rw [level_setLevels, Table.lookup_erase]
  by_cases hm : m = name
  · subst hm
    by_cases hc : c = conn
    · simp [hc]
    · simp [hc, fileState_levels_lookup]
  · simp [hm, fileState_level]

/-- The scan of the table is a statement about levels, for any level above `NONE`. -/
theorem othersAtLeast_iff (t : JvmVfsLocks) (name : String) (conn : Int) {l : Int} (hl : NONE < l) :
    othersAtLeast (t.fileState name).2 conn l = true ↔ ∃ c, c ≠ conn ∧ l ≤ t.level name c := by
  simp only [othersAtLeast, Table.any_iff, Bool.and_eq_true, decide_eq_true_eq, ne_eq,
    decide_not, Bool.not_eq_true', decide_eq_false_iff_not]
  constructor
  · rintro ⟨c, k, hk, hc, hkl⟩
    refine ⟨c, hc, ?_⟩
    rw [← fileState_levels_lookup, hk]
    exact hkl
  · rintro ⟨c, hc, hcl⟩
    rw [← fileState_levels_lookup] at hcl
    cases hk : (t.fileState name).2.levels.lookup c with
    | none =>
      rw [hk] at hcl
      exact absurd hcl (by simpa using hl)
    | some k =>
      rw [hk] at hcl
      exact ⟨c, k, hk, hc, hcl⟩

/-- Some other connection stands in the way of `target`. -/
def Blocked (t : JvmVfsLocks) (conn : Int) (name : String) (target : Int) : Prop :=
  (target = SHARED ∧ ∃ c, c ≠ conn ∧ PENDING ≤ t.level name c) ∨
  (target = RESERVED ∧ ∃ c, c ≠ conn ∧ RESERVED ≤ t.level name c) ∨
  (target = PENDING ∧ ∃ c, c ≠ conn ∧ PENDING ≤ t.level name c) ∨
  (target = EXCLUSIVE ∧ ∃ c, c ≠ conn ∧ SHARED ≤ t.level name c)

theorem blocked_iff (t : JvmVfsLocks) (conn : Int) (name : String) (target : Int) :
    blocked (t.fileState name).2 conn target = true ↔ t.Blocked conn name target := by
  have h3 := othersAtLeast_iff t name conn (l := PENDING) (by decide)
  have h2 := othersAtLeast_iff t name conn (l := RESERVED) (by decide)
  have h1 := othersAtLeast_iff t name conn (l := SHARED) (by decide)
  simp only [blocked, Blocked]
  split_ifs with hs hr hp he
  · subst hs; rw [h3]; simp [SHARED, RESERVED, PENDING, EXCLUSIVE]
  · subst hr; rw [h2]; simp [SHARED, RESERVED, PENDING, EXCLUSIVE]
  · subst hp; rw [h3]; simp [SHARED, RESERVED, PENDING, EXCLUSIVE]
  · subst he; rw [h1]; simp [SHARED, RESERVED, PENDING, EXCLUSIVE]
  · simp [hs, hr, hp, he]

/-- A blocked request finds another connection's entry, so the file's entry was there already. -/
theorem Blocked.fileState_eq {t : JvmVfsLocks} {conn : Int} {name : String} {target : Int}
    (h : t.Blocked conn name target) : (t.fileState name).1 = t := by
  have hex : ∃ c, SHARED ≤ t.level name c := by
    rcases h with ⟨-, c, -, hc⟩ | ⟨-, c, -, hc⟩ | ⟨-, c, -, hc⟩ | ⟨-, c, -, hc⟩ <;>
      exact ⟨c, le_trans (by decide) hc⟩
  obtain ⟨c, hc⟩ := hex
  cases hl : t.files.lookup name with
  | some st => rw [fileState_fst, Table.getOrPut_fst_of_some hl]
  | none => simp [level, hl, SHARED, NONE] at hc

/-- Everything a `lock` call can do. -/
theorem lock_cases (t : JvmVfsLocks) (conn : Int) (name : String) (target : Int) :
    (target ≤ t.level name conn ∧ (t.lock conn name target).2 = OK ∧
      ∀ m c, (t.lock conn name target).1.level m c = t.level m c) ∨
    (t.level name conn < target ∧ t.Blocked conn name target ∧ t.lock conn name target = (t, BUSY)) ∨
    (t.level name conn < target ∧ ¬ t.Blocked conn name target ∧ (t.lock conn name target).2 = OK ∧
      ∀ m c, (t.lock conn name target).1.level m c = if m = name ∧ c = conn then target else t.level m c) := by
  have hcur := fileState_levels_lookup t name conn
  simp only [lock]
  split_ifs with hle hb
  · refine .inl ⟨by rwa [hcur] at hle, rfl, fun m c => fileState_level t name m c⟩
  · rw [blocked_iff] at hb
    rw [hb.fileState_eq]
    exact .inr (.inl ⟨by rw [hcur] at hle; omega, hb, rfl⟩)
  · rw [blocked_iff] at hb
    exact .inr (.inr ⟨by rw [hcur] at hle; omega, hb, rfl,
      fun m c => level_setLevels_insert t name m conn c target⟩)

/-- `unlock` stores the level it is given, `NONE` for anything below it. -/
theorem unlock_level (t : JvmVfsLocks) (conn : Int) (name : String) (target : Int) (m : String) (c : Int) :
    (t.unlock conn name target).1.level m c = if m = name ∧ c = conn then max target NONE else t.level m c := by
  simp only [unlock]
  by_cases ht : target ≤ NONE
  · rw [if_pos ht, max_eq_right ht]
    exact level_setLevels_erase t name m conn c
  · rw [if_neg ht, max_eq_left (le_of_not_ge ht)]
    exact level_setLevels_insert t name m conn c target

theorem lock_lookup_ne (t : JvmVfsLocks) (conn : Int) {name m : String} (target : Int) (h : m ≠ name) :
    (t.lock conn name target).1.files.lookup m = t.files.lookup m := by
  simp only [lock]
  split_ifs
  all_goals simp [setLevels_lookup_ne, fileState_lookup_ne, h]

theorem unlock_lookup_ne (t : JvmVfsLocks) (conn : Int) {name m : String} (target : Int) (h : m ≠ name) :
    (t.unlock conn name target).1.files.lookup m = t.files.lookup m := by
  simp only [unlock]
  split_ifs
  all_goals simp [setLevels_lookup_ne, fileState_lookup_ne, h]

/-! ## Exclusion -/

/-- One file's levels: at most one connection at `RESERVED` or above, and
none beside one at `EXCLUSIVE`. -/
structure Excluded (t : JvmVfsLocks) (name : String) : Prop where
  nonneg : ∀ c, NONE ≤ t.level name c
  writer : ∀ c d, RESERVED ≤ t.level name c → RESERVED ≤ t.level name d → c = d
  exclusive : ∀ c d, t.level name c = EXCLUSIVE → d ≠ c → t.level name d = NONE

theorem Excluded.of_level_eq {t t' : JvmVfsLocks} {n : String} (h : t.Excluded n)
    (he : ∀ c, t'.level n c = t.level n c) : t'.Excluded n := by
  refine ⟨fun c => ?_, fun c d hc hd => ?_, fun c d hc hd => ?_⟩
  · rw [he]; exact h.nonneg c
  · rw [he] at hc hd; exact h.writer c d hc hd
  · rw [he] at hc ⊢; exact h.exclusive c d hc hd

/-- A grant keeps exclusion: the rule looked at every other connection. -/
theorem Excluded.grant {t t' : JvmVfsLocks} {name : String} {conn target : Int} (h : t.Excluded name)
    (ht : target = SHARED ∨ target = RESERVED ∨ target = EXCLUSIVE) (hb : ¬ t.Blocked conn name target)
    (he : ∀ c, t'.level name c = if c = conn then target else t.level name c) : t'.Excluded name := by
  have none_of_other : ∀ d, d ≠ conn → target = EXCLUSIVE → t.level name d = NONE := by
    intro d hd hx
    have hlt : ¬ SHARED ≤ t.level name d := fun hs => hb (.inr (.inr (.inr ⟨hx, d, hd, hs⟩)))
    have := h.nonneg d
    simp only [SHARED, NONE] at *; omega
  have below_of_other : ∀ d, d ≠ conn → RESERVED ≤ target → ¬ RESERVED ≤ t.level name d := by
    intro d hd hr hle
    rcases ht with rfl | rfl | rfl
    · exact absurd hr (by decide)
    · exact hb (.inr (.inl ⟨rfl, d, hd, hle⟩))
    · rw [none_of_other d hd rfl] at hle; exact absurd hle (by decide)
  refine ⟨fun c => ?_, fun c d hc hd => ?_, fun c d hc hd => ?_⟩
  · rw [he]
    split
    · rcases ht with rfl | rfl | rfl <;> decide
    · exact h.nonneg c
  · rw [he] at hc hd
    split at hc <;> split at hd
    · next hcc hdc => rw [hcc, hdc]
    · next hdc => exact absurd hd (below_of_other d hdc hc)
    · next hcc _ => exact absurd hc (below_of_other c hcc hd)
    · exact h.writer c d hc hd
  · rw [he] at hc ⊢
    split at hc
    · next hcc =>
      rw [if_neg (by rw [← hcc]; exact hd)]
      exact none_of_other d (by rw [← hcc]; exact hd) hc
    · next hcc =>
      split
      · -- `c` is at `EXCLUSIVE` and blocks every target.
        rcases ht with rfl | rfl | rfl
        · exact absurd (.inl ⟨rfl, c, hcc, by rw [hc]; decide⟩) hb
        · exact absurd (.inr (.inl ⟨rfl, c, hcc, by rw [hc]; decide⟩)) hb
        · exact absurd (.inr (.inr (.inr ⟨rfl, c, hcc, by rw [hc]; decide⟩))) hb
      · exact h.exclusive c d hc hd

theorem Excluded.lock {t : JvmVfsLocks} {m name : String} {conn target : Int} (h : t.Excluded m)
    (ht : target = SHARED ∨ target = RESERVED ∨ target = EXCLUSIVE) :
    (t.lock conn name target).1.Excluded m := by
  rcases lock_cases t conn name target with ⟨-, -, he⟩ | ⟨-, -, heq⟩ | ⟨-, hb, -, he⟩
  · exact h.of_level_eq (he m)
  · rw [heq]; exact h
  · by_cases hm : m = name
    · subst hm
      exact h.grant ht hb fun c => by simp [he]
    · exact h.of_level_eq fun c => by simp [he, hm]

/-- A downgrade keeps exclusion when it is one. -/
theorem Excluded.unlock {t : JvmVfsLocks} {m name : String} {conn target : Int} (h : t.Excluded m)
    (ht : target = NONE ∨ target = SHARED) (hle : target ≤ t.level name conn) :
    (t.unlock conn name target).1.Excluded m := by
  have he := unlock_level t conn name target m
  have hmax : max target NONE = target := by rcases ht with rfl | rfl <;> decide
  rw [hmax] at he
  by_cases hm : m = name
  · subst hm
    simp only [true_and] at he
    have hlt : target < RESERVED := by rcases ht with rfl | rfl <;> decide
    refine ⟨fun c => ?_, fun c d hc hd => ?_, fun c d hc hd => ?_⟩
    · rw [he]
      split
      · rcases ht with rfl | rfl <;> decide
      · exact h.nonneg c
    · rw [he] at hc hd
      split at hc
      · omega
      · split at hd
        · omega
        · exact h.writer c d hc hd
    · rw [he] at hc ⊢
      split at hc
      · rw [hc] at hlt; exact absurd hlt (by decide)
      · split
        · next hdc =>
          have hn := h.exclusive c d hc hd
          rw [hdc] at hn
          rw [hn] at hle
          rcases ht with rfl | rfl
          · rfl
          · exact absurd hle (by decide)
        · exact h.exclusive c d hc hd
  · exact h.of_level_eq fun c => by simp [he, hm]

end JvmVfsLocks

/-! ## The pager's runs -/

/-- The table and the open file handles, each with the name it was opened
under (`JvmFile.zName`). -/
structure Vfs where
  locks : JvmVfsLocks := {}
  handles : Table Int String := ∅

/-- What SQLite does with a handle. -/
inductive VfsCall where
  | open (conn : Int) (name : String)
  | lock (conn target : Int)
  | unlock (conn target : Int)
  | close (conn : Int)

namespace Vfs

/-- One call and its answer. A handle's address is not in use while it is
open, targets are the pager's, a downgrade is one, and a handle is at `NONE`
when it is closed; a call outside this discipline has no next state. -/
def call (s : Vfs) : VfsCall → Option (Vfs × Int)
  | .open conn name =>
    if s.handles.lookup conn = none then some ({ s with handles := s.handles.insert conn name }, OK)
    else none
  | .lock conn target =>
    match s.handles.lookup conn with
    | none => none
    | some name =>
      if target = SHARED ∨ target = RESERVED ∨ target = EXCLUSIVE then
        let (locks, rc) := s.locks.lock conn name target
        some ({ s with locks }, rc)
      else none
  | .unlock conn target =>
    match s.handles.lookup conn with
    | none => none
    | some name =>
      if (target = NONE ∨ target = SHARED) ∧ target ≤ s.locks.level name conn then
        let (locks, rc) := s.locks.unlock conn name target
        some ({ s with locks }, rc)
      else none
  | .close conn =>
    match s.handles.lookup conn with
    | none => none
    | some name =>
      -- `jClose` itself touches neither table.
      if s.locks.level name conn = NONE then some ({ s with handles := s.handles.erase conn }, OK)
      else none

/-- A call, without its answer. -/
def step (s : Vfs) (c : VfsCall) : Option Vfs := (s.call c).map Prod.fst

/-- The file a call is about. -/
def fileOf (s : Vfs) : VfsCall → Option String
  | .open _ name => some name
  | .lock conn _ | .unlock conn _ | .close conn => s.handles.lookup conn

/-- Every file excludes, and only an open handle has a level, on its own file. -/
structure Inv (s : Vfs) : Prop where
  excluded : ∀ n, s.locks.Excluded n
  owned : ∀ n c, s.locks.level n c ≠ NONE → s.handles.lookup c = some n

/-- Everything a call can do. -/
theorem call_cases {s s' : Vfs} {c : VfsCall} {rc : Int} (h : s.call c = some (s', rc)) :
    (∃ conn name, c = .open conn name ∧ s.handles.lookup conn = none ∧ rc = OK ∧
      s' = { s with handles := s.handles.insert conn name }) ∨
    (∃ conn name target, c = .lock conn target ∧ s.handles.lookup conn = some name ∧
      (target = SHARED ∨ target = RESERVED ∨ target = EXCLUSIVE) ∧
      rc = (s.locks.lock conn name target).2 ∧ s' = { s with locks := (s.locks.lock conn name target).1 }) ∨
    (∃ conn name target, c = .unlock conn target ∧ s.handles.lookup conn = some name ∧
      (target = NONE ∨ target = SHARED) ∧ target ≤ s.locks.level name conn ∧ rc = OK ∧
      s' = { s with locks := (s.locks.unlock conn name target).1 }) ∨
    (∃ conn name, c = .close conn ∧ s.handles.lookup conn = some name ∧
      s.locks.level name conn = NONE ∧ rc = OK ∧ s' = { s with handles := s.handles.erase conn }) := by
  cases c with
  | «open» conn name =>
    simp only [call] at h
    split at h
    · next hn => cases h; exact .inl ⟨conn, name, rfl, hn, rfl, rfl⟩
    · cases h
  | lock conn target =>
    simp only [call] at h
    split at h
    · cases h
    · next name hn =>
      split at h
      · next ht => cases h; exact .inr (.inl ⟨conn, name, target, rfl, hn, ht, rfl, rfl⟩)
      · cases h
  | unlock conn target =>
    simp only [call] at h
    split at h
    · cases h
    · next name hn =>
      split at h
      · next ht =>
        have hrc : (s.locks.unlock conn name target).2 = OK := by
          simp only [JvmVfsLocks.unlock]; split <;> rfl
        cases h
        exact .inr (.inr (.inl ⟨conn, name, target, rfl, hn, ht.1, ht.2, hrc, rfl⟩))
      · cases h
  | close conn =>
    simp only [call] at h
    split at h
    · cases h
    · next name hn =>
      split at h
      · next hl => cases h; exact .inr (.inr (.inr ⟨conn, name, rfl, hn, hl, rfl, rfl⟩))
      · cases h

theorem inv_empty : Inv {} := by
  have hl : ∀ n c, ({} : Vfs).locks.level n c = NONE := fun _ _ => rfl
  refine ⟨fun n => ⟨fun c => ?_, fun c d hc _ => ?_, fun c d _ _ => hl n d⟩, fun n c h => absurd (hl n c) h⟩
  · rw [hl]
  · rw [hl] at hc; exact absurd hc (by decide)

theorem Inv.call {s s' : Vfs} {c : VfsCall} {rc : Int} (hi : s.Inv) (h : s.call c = some (s', rc)) :
    s'.Inv := by
  rcases call_cases h with ⟨conn, name, -, hn, -, rfl⟩ | ⟨conn, name, target, -, hn, ht, -, rfl⟩ |
    ⟨conn, name, target, -, hn, ht, hle, -, rfl⟩ | ⟨conn, name, -, hn, hl, -, rfl⟩
  · refine ⟨hi.excluded, fun n c hc => ?_⟩
    have hcn := hi.owned n c hc
    have hne : c ≠ conn := by rintro rfl; rw [hn] at hcn; cases hcn
    simp only [Table.lookup_insert, hne, if_false]
    exact hcn
  · refine ⟨fun n => (hi.excluded n).lock ht, fun n c hc => ?_⟩
    rcases JvmVfsLocks.lock_cases s.locks conn name target with ⟨-, -, he⟩ | ⟨-, -, heq⟩ | ⟨-, -, -, he⟩
    · exact hi.owned n c (by rwa [he] at hc)
    · exact hi.owned n c (by rwa [heq] at hc)
    · simp only [he] at hc
      split at hc
      · next hnc => rw [hnc.1, hnc.2]; exact hn
      · exact hi.owned n c hc
  · refine ⟨fun n => (hi.excluded n).unlock ht hle, fun n c hc => ?_⟩
    simp only [JvmVfsLocks.unlock_level] at hc
    split at hc
    · next hnc => rw [hnc.1, hnc.2]; exact hn
    · exact hi.owned n c hc
  · refine ⟨hi.excluded, fun n c hc => ?_⟩
    have hcn := hi.owned n c hc
    -- A handle at a level keeps it on its own file, and the closed one was at `NONE` there.
    have hne : c ≠ conn := by
      rintro rfl
      rw [hn] at hcn
      cases hcn
      exact hc hl
    simp only [Table.lookup_erase, hne, if_false]
    exact hcn

theorem Inv.step {s s' : Vfs} {c : VfsCall} (hi : s.Inv) (h : s.step c = some s') : s'.Inv := by
  simp only [Vfs.step, Option.map_eq_some_iff, Prod.exists, exists_and_right, exists_eq_right] at h
  obtain ⟨rc, h⟩ := h
  exact hi.call h

/-- What the pager relies on, of one state and the next call from it. -/
structure Safe (s : Vfs) : Prop where
  writer : ∀ n c d, RESERVED ≤ s.locks.level n c → RESERVED ≤ s.locks.level n d → c = d
  exclusive : ∀ n c d, s.locks.level n c = EXCLUSIVE → d ≠ c → s.locks.level n d = NONE
  busy : ∀ c s', s.call c = some (s', BUSY) → s' = s
  others : ∀ c s' rc m, s.call c = some (s', rc) → s.fileOf c ≠ some m →
    s'.locks.files.lookup m = s.locks.files.lookup m
  fresh : ∀ conn name s' rc, s.call (.open conn name) = some (s', rc) → ∀ m, s'.locks.level m conn = NONE
  granted : ∀ conn target s', s.call (.lock conn target) = some (s', OK) →
    ∃ n, s'.handles.lookup conn = some n ∧ target ≤ s'.locks.level n conn

theorem call_busy {s s' : Vfs} {c : VfsCall} (h : s.call c = some (s', BUSY)) : s' = s := by
  rcases call_cases h with ⟨_, _, -, -, hrc, -⟩ | ⟨conn, name, target, -, -, -, hrc, rfl⟩ |
    ⟨_, _, _, -, -, -, -, hrc, -⟩ | ⟨_, _, -, -, -, hrc, -⟩
  · exact absurd hrc (by decide)
  · rcases JvmVfsLocks.lock_cases s.locks conn name target with ⟨-, hok, -⟩ | ⟨-, -, heq⟩ | ⟨-, -, hok, -⟩
    · rw [hok] at hrc; exact absurd hrc (by decide)
    · rw [heq]
    · rw [hok] at hrc; exact absurd hrc (by decide)
  · exact absurd hrc (by decide)
  · exact absurd hrc (by decide)

/-- An `OK` says that the handle has what it asked for, or more. -/
theorem call_granted {s s' : Vfs} {conn target : Int} (h : s.call (.lock conn target) = some (s', OK)) :
    ∃ n, s'.handles.lookup conn = some n ∧ target ≤ s'.locks.level n conn := by
  rcases call_cases h with ⟨_, _, hc, -⟩ | ⟨_, name, _, hc, hn, -, hrc, rfl⟩ | ⟨_, _, _, hc, -⟩ | ⟨_, _, hc, -⟩ <;>
    cases hc
  refine ⟨name, hn, ?_⟩
  rcases JvmVfsLocks.lock_cases s.locks conn name target with ⟨hle, -, he⟩ | ⟨-, -, heq⟩ | ⟨-, -, -, he⟩
  · rw [he]
    exact hle
  · rw [heq] at hrc
    exact absurd (show OK = BUSY from hrc) (by decide)
  · rw [he, if_pos ⟨rfl, rfl⟩]

theorem call_others {s s' : Vfs} {c : VfsCall} {rc : Int} {m : String} (h : s.call c = some (s', rc))
    (hm : s.fileOf c ≠ some m) : s'.locks.files.lookup m = s.locks.files.lookup m := by
  rcases call_cases h with ⟨_, _, -, -, -, rfl⟩ | ⟨conn, name, target, rfl, hn, -, -, rfl⟩ |
    ⟨conn, name, target, rfl, hn, -, -, -, rfl⟩ | ⟨_, _, -, -, -, -, rfl⟩
  · rfl
  · simp only [fileOf, hn, ne_eq, Option.some.injEq] at hm
    exact JvmVfsLocks.lock_lookup_ne s.locks conn target (Ne.symm hm)
  · simp only [fileOf, hn, ne_eq, Option.some.injEq] at hm
    exact JvmVfsLocks.unlock_lookup_ne s.locks conn target (Ne.symm hm)
  · rfl

theorem Inv.safe {s : Vfs} (hi : s.Inv) : s.Safe where
  writer n := (hi.excluded n).writer
  exclusive n := (hi.excluded n).exclusive
  busy _ _ h := call_busy h
  others _ _ _ _ h hm := call_others h hm
  fresh conn name s' rc h m := by
    rcases call_cases h with ⟨_, _, hc, hn, -, rfl⟩ | ⟨_, _, _, hc, -⟩ | ⟨_, _, _, hc, -⟩ | ⟨_, _, hc, -⟩ <;>
      cases hc
    by_contra hne
    have := hi.owned m conn hne
    rw [hn] at this
    cases this
  granted _ _ _ h := call_granted h

/-- **File locks exclude.** Along every run of the pager's calls, by any
handles on any files: one writer a file, nobody beside an `EXCLUSIVE` holder,
a `BUSY` answer and a call on another file change nothing, an `OK` to a lock
says that the handle has it, and a handle at a reused address starts at `NONE`. -/
theorem pager_run_safe (calls : List VfsCall) : EveryState step Safe {} calls :=
  everyState_of_invariant (fun _ _ _ hi _ h => hi.step h) (fun _ hi => hi.safe) inv_empty everyStep_true

end Vfs

end Sqlol
