/-
The wal-index slots refine banks of reader/writer locks: over any run of
`shmLock` and `shmUnmap` calls, by any connections on any files, the table
answers as eight independent locks per file answer, and holds what they hold.

The two arrays of `ShmState` are read slot by slot (`cell`). Each branch of
`shmLock` is a scan that decides and a loop that writes; `anySlot_eq` and
`forSlots_cell` say what they come to over a range inside the array.
-/
import Sqlol.JvmVfsLocks
import Sqlol.RwLock

namespace Sqlol

namespace JvmVfsLocks

/-! ## Loops over a range -/

/-- What the two arrays hold at one slot. -/
def cell (st : ShmState) (i : Fin SHM_NLOCK) : Finset Int × Int := (st.shared i, st.excl i)

/-- Inside the array. -/
def InArray (l : List Int) : Prop := ∀ s ∈ l, 0 ≤ s ∧ s < SHM_NLOCK

theorem slot?_coe (i : Fin SHM_NLOCK) : slot? (i : Int) = some i := by
  have h : (0 : Int) ≤ (i : Int) ∧ (i : Int) < (SHM_NLOCK : Nat) := ⟨by omega, by have := i.isLt; omega⟩
  simp only [slot?, dif_pos h]
  congr

theorem exists_slot {s : Int} (h : 0 ≤ s ∧ s < SHM_NLOCK) : ∃ i : Fin SHM_NLOCK, s = (i : Int) :=
  ⟨⟨s.toNat, by omega⟩, by simp [h.1]⟩

/-- A loop whose body rewrites its own slot by `f` rewrites by `f` exactly the slots it visits. -/
theorem forSlots_cell {body : Fin SHM_NLOCK → ShmState → ShmState}
    {f : Finset Int × Int → Finset Int × Int}
    (hbody : ∀ i st j, cell (body i st) j = if j = i then f (cell st i) else cell st j) :
    ∀ {l : List Int} (st : ShmState), InArray l → l.Nodup →
      (forSlots body l st).2 = true ∧
        ∀ j : Fin SHM_NLOCK, cell (forSlots body l st).1 j =
          if (j : Int) ∈ l then f (cell st j) else cell st j
  | [], st, _, _ => by simp [forSlots]
  | s :: rest, st, hin, hnd => by
    obtain ⟨i, rfl⟩ := exists_slot (hin s (by simp))
    obtain ⟨hnot, hnd⟩ := List.nodup_cons.mp hnd
    simp only [forSlots, slot?_coe]
    obtain ⟨hok, hcell⟩ := forSlots_cell hbody (body i st) (fun s hs => hin s (by simp [hs])) hnd
    refine ⟨hok, fun j => ?_⟩
    rw [hcell, hbody]
    by_cases hji : j = i
    · subst hji; simp [hnot]
    · have hne : (j : Int) ≠ (i : Int) := fun h => hji (Fin.ext (by omega))
      simp [hji, hne]

theorem anySlot_eq {busy : Fin SHM_NLOCK → Bool} : ∀ {l : List Int}, InArray l →
    anySlot busy l = some (decide (∃ i : Fin SHM_NLOCK, (i : Int) ∈ l ∧ busy i = true))
  | [], _ => by simp [anySlot]
  | s :: rest, hin => by
    obtain ⟨i, rfl⟩ := exists_slot (hin s (by simp))
    have hrest : InArray rest := fun s hs => hin s (List.mem_cons_of_mem _ hs)
    simp only [anySlot, slot?_coe]
    by_cases hb : busy i = true
    · have hex : ∃ j : Fin SHM_NLOCK, (j : Int) ∈ (i : Int) :: rest ∧ busy j = true := ⟨i, by simp, hb⟩
      rw [if_pos hb, decide_eq_true hex]
    · rw [if_neg hb, anySlot_eq hrest]
      congr 1
      rw [decide_eq_decide]
      refine ⟨fun ⟨j, hj, hbj⟩ => ⟨j, List.mem_cons_of_mem _ hj, hbj⟩, fun ⟨j, hj, hbj⟩ => ⟨j, ?_, hbj⟩⟩
      rcases List.mem_cons.mp hj with hji | hj
      · have hjeq : j = i := Fin.ext (by omega)
        subst hjeq
        exact absurd hbj hb
      · exact hj

theorem mem_slots {offset n s : Int} (h0 : 0 ≤ offset) (h1 : 1 ≤ n) (h8 : offset + n ≤ SHM_NLOCK) :
    s ∈ slots offset n ↔ offset ≤ s ∧ s < offset + n := by
  have hsum : i32 (offset + n) = offset + n := i32_of_bounds (by omega) (by simp only [SHM_NLOCK] at h8; omega)
  simp only [slots, hsum, List.mem_map, List.mem_range]
  constructor
  · rintro ⟨k, hk, rfl⟩; omega
  · intro h; exact ⟨(s - offset).toNat, by omega, by omega⟩

theorem slots_nodup (offset n : Int) : (slots offset n).Nodup :=
  List.Nodup.map (fun a b (h : offset + a = offset + b) => by omega) List.nodup_range

/-- The slots a call names, as a set of indices. -/
def range (offset n : Int) : Set (Fin SHM_NLOCK) := {i | offset ≤ (i : Int) ∧ (i : Int) < offset + n}

theorem slots_inArray {offset n : Int} (h0 : 0 ≤ offset) (h1 : 1 ≤ n) (h8 : offset + n ≤ SHM_NLOCK) :
    InArray (slots offset n) := by
  intro s hs
  rw [mem_slots h0 h1 h8] at hs
  omega

/-! ## One slot -/

/-- What releasing, taking exclusively and taking shared make of one slot. -/
def releaseCell (conn : Int) (x : Finset Int × Int) : Finset Int × Int :=
  (x.1.erase conn, if x.2 = conn then -1 else x.2)
/-- A slot taken by an exclusive request. -/
def exclusiveCell (conn : Int) (x : Finset Int × Int) : Finset Int × Int := (x.1.erase conn, conn)
/-- A slot taken by a shared request. -/
def sharedCell (conn : Int) (x : Finset Int × Int) : Finset Int × Int := (insert conn x.1, x.2)

theorem cell_releaseSlot (conn : Int) (i : Fin SHM_NLOCK) (st : ShmState) (j : Fin SHM_NLOCK) :
    cell (releaseSlot conn i st) j = if j = i then releaseCell conn (cell st i) else cell st j := by
  by_cases h : j = i
  · subst h
    by_cases hx : st.excl j = conn
    · simp [cell, releaseSlot, releaseCell, hx]
    · simp [cell, releaseSlot, releaseCell, hx]
  · simp only [cell, releaseSlot, Function.update_of_ne h, if_neg h]
    split <;> simp [h]

theorem cell_exclusiveSlot (conn : Int) (i : Fin SHM_NLOCK) (st : ShmState) (j : Fin SHM_NLOCK) :
    cell (exclusiveSlot conn i st) j = if j = i then exclusiveCell conn (cell st i) else cell st j := by
  by_cases h : j = i
  · subst h; simp [cell, exclusiveSlot, exclusiveCell]
  · simp [cell, exclusiveSlot, h]

theorem cell_sharedSlot (conn : Int) (i : Fin SHM_NLOCK) (st : ShmState) (j : Fin SHM_NLOCK) :
    cell (sharedSlot conn i st) j = if j = i then sharedCell conn (cell st i) else cell st j := by
  by_cases h : j = i
  · subst h; simp [cell, sharedSlot, sharedCell]
  · simp [cell, sharedSlot, h]

/-- A slot of the arrays stands for a lock: the sharers are its readers, and
`-1` is no writer. -/
def CellRel (x : Finset Int × Int) (l : RwLock Int) : Prop :=
  l.readers = {c | c ∈ x.1} ∧ l.writer = if x.2 = -1 then none else some x.2

theorem CellRel.writer_iff {x : Finset Int × Int} {l : RwLock Int} (h : CellRel x l) {d : Int} :
    l.writer = some d ↔ x.2 = d ∧ d ≠ -1 := by
  rw [h.2]
  split
  · next he => simp only [reduceCtorEq, false_iff, not_and, not_not]; exact fun hd => hd.symm.trans he
  · next hne => simp only [Option.some.injEq]; exact ⟨fun hd => ⟨hd, hd ▸ hne⟩, fun hd => hd.1⟩

theorem CellRel.release {x : Finset Int × Int} {l : RwLock Int} {conn : Int} (h : CellRel x l)
    (hc : conn ≠ -1) : CellRel (releaseCell conn x) (l.release conn) := by
  refine ⟨?_, ?_⟩
  · ext d
    simp only [RwLock.release, releaseCell, h.1, Finset.mem_erase, Set.mem_sdiff, Set.mem_ofPred_eq,
      Set.mem_singleton_iff]
    exact and_comm
  · simp only [RwLock.release, releaseCell, h.2]
    by_cases hx : x.2 = conn
    · simp [hx, hc]
    · simp [hx]

theorem CellRel.acquire_exclusive {x : Finset Int × Int} {l : RwLock Int} {conn : Int} (h : CellRel x l)
    (hc : conn ≠ -1) (ha : l.Admits .exclusive conn) :
    CellRel (exclusiveCell conn x) (l.acquire .exclusive conn ha) := by
  refine ⟨?_, ?_⟩
  · ext d
    simp only [RwLock.acquire, exclusiveCell, h.1, Finset.mem_erase, Set.mem_sdiff, Set.mem_ofPred_eq,
      Set.mem_singleton_iff]
    exact and_comm
  · simp [RwLock.acquire, exclusiveCell, hc]

theorem CellRel.acquire_shared {x : Finset Int × Int} {l : RwLock Int} {conn : Int} (h : CellRel x l)
    (ha : l.Admits .shared conn) : CellRel (sharedCell conn x) (l.acquire .shared conn ha) := by
  refine ⟨?_, h.2⟩
  ext d
  simp [RwLock.acquire, sharedCell, h.1]

/-- The scan for a shared request finds exactly what keeps a lock from admitting it. -/
theorem CellRel.admits_shared {st : ShmState} {i : Fin SHM_NLOCK} {l : RwLock Int} {conn : Int}
    (h : CellRel (cell st i) l) : l.Admits .shared conn ↔ ¬ exclByOther st conn i = true := by
  simp only [RwLock.Admits, h.writer_iff, exclByOther, cell, Bool.and_eq_true, ne_eq, decide_not,
    Bool.not_eq_true', decide_eq_false_iff_not]
  constructor
  · rintro ha ⟨h1, h2⟩; exact ha _ h2 ⟨rfl, h1⟩
  · rintro ha d hd ⟨rfl, h1⟩; exact ha ⟨h1, hd⟩

theorem CellRel.admits_exclusive {st : ShmState} {i : Fin SHM_NLOCK} {l : RwLock Int} {conn : Int}
    (h : CellRel (cell st i) l) : l.Admits .exclusive conn ↔ ¬ heldByOther st conn i = true := by
  have hs : l.Admits .shared conn ↔ ¬ exclByOther st conn i = true := h.admits_shared
  simp only [RwLock.Admits] at hs ⊢
  simp only [heldByOther, Bool.or_eq_true, not_or, ← hs, decide_eq_true_eq, not_exists, not_and, not_not]
  constructor
  · intro ha
    refine ⟨fun d hd => (ha d hd).1, fun d hd => ?_⟩
    by_contra hne
    refine (ha d hne).2 ?_
    rw [h.1]
    exact hd
  · rintro ⟨h1, h2⟩ d hd
    refine ⟨h1 d hd, fun hm => hd (h2 d ?_)⟩
    rw [h.1] at hm
    exact hm

/-! ## The slots of a file -/

/-- A file's slots, all free when it has no entry. -/
def shmOf (t : JvmVfsLocks) (name : String) : ShmState := (t.shms.lookup name).getD {}

theorem shmState_snd (t : JvmVfsLocks) (name : String) : (t.shmState name).2 = t.shmOf name := by
  simp [shmState, shmOf]

theorem shmOf_shmState (t : JvmVfsLocks) (name m : String) : (t.shmState name).1.shmOf m = t.shmOf m := by
  by_cases hm : m = name
  · subst hm
    cases h : t.shms.lookup m with
    | some st => simp [shmState, shmOf, Table.getOrPut_fst_of_some h]
    | none => simp [shmState, shmOf, Table.getOrPut, h]
  · simp [shmState, shmOf, Table.lookup_getOrPut_ne _ _ hm]

theorem shmOf_setShm (t : JvmVfsLocks) (name m : String) (st : ShmState) :
    (t.setShm name st).shmOf m = if m = name then st else t.shmOf m := by
  simp only [shmOf, setShm, Table.lookup_insert]
  split <;> simp

/-- Per file, eight independent locks over the connections. -/
abbrev ShmRef := String → Bank (Fin SHM_NLOCK) Int

/-- The table stands for the reference locks, slot by slot. -/
def TableRel (t : JvmVfsLocks) (r : ShmRef) : Prop := ∀ name i, CellRel (cell (t.shmOf name) i) (r name i)

theorem tableRel_empty : TableRel {} fun _ _ => RwLock.free :=
  fun _ _ => ⟨by simp [RwLock.free, cell, shmOf], rfl⟩

theorem TableRel.created {t : JvmVfsLocks} {r : ShmRef} (h : TableRel t r) (name : String) :
    TableRel (t.shmState name).1 r := fun m i => by rw [shmOf_shmState]; exact h m i

/-- A branch that writes its range answers `OK`, and what it leaves stands
for a bank that agrees with it in and outside the range. -/
theorem TableRel.written {t : JvmVfsLocks} {r : ShmRef} (h : TableRel t r) {name : String}
    {body : Fin SHM_NLOCK → ShmState → ShmState} {f : Finset Int × Int → Finset Int × Int}
    (hbody : ∀ i st j, cell (body i st) j = if j = i then f (cell st i) else cell st j)
    {l : List Int} (hin : InArray l) (hnd : l.Nodup) {b : Bank (Fin SHM_NLOCK) Int}
    (hb : ∀ i : Fin SHM_NLOCK,
      CellRel (if (i : Int) ∈ l then f (cell (t.shmOf name) i) else cell (t.shmOf name) i) (b i)) :
    (finish (t.shmState name).1 name (forSlots body l (t.shmState name).2)).2 = some OK ∧
      TableRel (finish (t.shmState name).1 name (forSlots body l (t.shmState name).2)).1
        (Function.update r name b) := by
  rw [shmState_snd]
  obtain ⟨hok, hcell⟩ := forSlots_cell hbody (t.shmOf name) hin hnd
  refine ⟨by simp [finish, hok], fun m i => ?_⟩
  simp only [finish, shmOf_setShm]
  by_cases hm : m = name
  · subst hm
    simp only [if_true, Function.update_self, hcell]
    exact hb i
  · simp only [hm, if_false, Function.update_of_ne hm, shmOf_shmState]
    exact h m i

/-! ## Calls -/

/-- The calls about slots. -/
inductive ShmCall where
  | lock (conn : Int) (name : String) (offset n : Int) (flags : BitVec 32)
  | unmap (conn : Int) (name : String)

/-- `-1` is no connection, and a range lies inside the eight slots. -/
def ShmCall.InDomain : ShmCall → Prop
  | .lock conn _ offset n _ => conn ≠ -1 ∧ 0 ≤ offset ∧ 1 ≤ n ∧ offset + n ≤ SHM_NLOCK
  | .unmap conn _ => conn ≠ -1

/-- A call, with its answer. -/
def shmCall (t : JvmVfsLocks) : ShmCall → JvmVfsLocks × Option Int
  | .lock conn name offset n flags => t.shmLock conn name offset n flags
  | .unmap conn name => t.shmUnmap conn name

/-- What the flags ask for: a mode, or none to unlock. -/
def requested (flags : BitVec 32) : Option LockMode :=
  if flags &&& SHM_UNLOCK ≠ 0 then none
  else if flags &&& SHM_EXCLUSIVE ≠ 0 then some .exclusive
  else some .shared

/-- The same call on the reference locks: a request takes its whole range or
is `BUSY` and takes nothing, unlocking and unmapping give up the caller's
holds on the named slots, and no other file is touched. -/
noncomputable def ShmRef.call (r : ShmRef) : ShmCall → ShmRef × Int
  | .lock conn name offset n flags =>
    match requested flags with
    | none => (Function.update r name ((r name).release (range offset n) conn), OK)
    | some m =>
      let (b, granted) := (r name).request m (range offset n) conn
      (Function.update r name b, if granted then OK else BUSY)
  | .unmap conn name => (Function.update r name ((r name).release Set.univ conn), OK)

theorem TableRel.release {t : JvmVfsLocks} {r : ShmRef} (h : TableRel t r) {conn : Int} (hc : conn ≠ -1)
    (name : String) {offset n : Int} (hin : InArray (slots offset n)) {S : Set (Fin SHM_NLOCK)}
    (hS : ∀ i, i ∈ S ↔ (i : Int) ∈ slots offset n) :
    (finish (t.shmState name).1 name (forSlots (releaseSlot conn) (slots offset n) (t.shmState name).2)).2 =
        some OK ∧
      TableRel (finish (t.shmState name).1 name
        (forSlots (releaseSlot conn) (slots offset n) (t.shmState name).2)).1
        (Function.update r name ((r name).release S conn)) := by
  refine h.written (cell_releaseSlot conn) hin (slots_nodup offset n) fun i => ?_
  simp only [Bank.release, hS]
  split
  · exact (h name i).release hc
  · exact h name i

/-- A request: the scan answers as the locks admit, and the write after it is
`acquire` on the range. -/
theorem TableRel.request {t : JvmVfsLocks} {r : ShmRef} (h : TableRel t r) (name : String) (m : LockMode)
    {conn offset n : Int} (hin : InArray (slots offset n)) {S : Set (Fin SHM_NLOCK)}
    (hS : ∀ i, i ∈ S ↔ (i : Int) ∈ slots offset n)
    {body : Fin SHM_NLOCK → ShmState → ShmState} {f : Finset Int × Int → Finset Int × Int}
    (hbody : ∀ i st j, cell (body i st) j = if j = i then f (cell st i) else cell st j)
    {busy : Fin SHM_NLOCK → Bool}
    (hbusy : ∀ i, (r name i).Admits m conn ↔ ¬ busy i = true)
    (hacq : ∀ i (ha : (r name i).Admits m conn),
      CellRel (f (cell (t.shmOf name) i)) ((r name i).acquire m conn ha))
    {res : JvmVfsLocks × Option Int}
    (hres : res = match anySlot busy (slots offset n) with
      | none => ((t.shmState name).1, none)
      | some true => ((t.shmState name).1, some BUSY)
      | some false => finish (t.shmState name).1 name (forSlots body (slots offset n) (t.shmState name).2)) :
    res.2 = some (if ((r name).request m S conn).2 then OK else BUSY) ∧
      TableRel res.1 (Function.update r name ((r name).request m S conn).1) := by
  rw [anySlot_eq hin] at hres
  by_cases hex : ∃ i : Fin SHM_NLOCK, (i : Int) ∈ slots offset n ∧ busy i = true
  · have hna : ¬ (r name).Admits m S conn := by
      obtain ⟨i, hi, hbi⟩ := hex
      exact fun ha => (hbusy i).mp (ha i ((hS i).mpr hi)) hbi
    rw [decide_eq_true hex] at hres
    rw [hres, Bank.request_of_not_admits hna, Function.update_eq_self]
    exact ⟨rfl, h.created name⟩
  · have ha : (r name).Admits m S conn :=
      fun i hi => (hbusy i).mpr fun hbi => hex ⟨i, (hS i).mp hi, hbi⟩
    obtain ⟨hgr, hat⟩ := Bank.request_of_admits ha
    rw [decide_eq_false hex] at hres
    rw [hres, hgr]
    refine h.written hbody hin (slots_nodup offset n) fun i => ?_
    split
    · next hi => rw [(hat i).1 ((hS i).mpr hi)]; exact hacq i (ha i ((hS i).mpr hi))
    · next hi => rw [(hat i).2 (mt (hS i).mp hi)]; exact h name i

/-- **One call.** The table answers as the reference locks do, and stands for them afterwards. -/
theorem shmCall_refines {t : JvmVfsLocks} {r : ShmRef} (h : TableRel t r) {c : ShmCall} (hd : c.InDomain) :
    (t.shmCall c).2 = some (r.call c).2 ∧ TableRel (t.shmCall c).1 (r.call c).1 := by
  cases c with
  | unmap conn name =>
    have hin : InArray (slots 0 SHM_NLOCK) := slots_inArray (by decide) (by decide) (by decide)
    refine h.release hd name hin fun i => ?_
    rw [mem_slots (by decide) (by decide) (by decide)]
    simp only [Set.mem_univ, true_iff]
    have := i.isLt
    omega
  | lock conn name offset n flags =>
    obtain ⟨hc, h0, h1, h8⟩ := hd
    have hin := slots_inArray h0 h1 h8
    have hS : ∀ i : Fin SHM_NLOCK, i ∈ range offset n ↔ (i : Int) ∈ slots offset n := fun i =>
      (mem_slots h0 h1 h8).symm
    simp only [shmCall, shmLock, ShmRef.call, requested]
    split
    · exact h.release hc name hin hS
    · split
      · refine h.request name .exclusive hin hS (cell_exclusiveSlot conn) (fun i => ?_)
          (fun i ha => (h name i).acquire_exclusive hc ha) rfl
        rw [shmState_snd]
        exact (h name i).admits_exclusive
      · refine h.request name .shared hin hS (cell_sharedSlot conn) (fun i => ?_)
          (fun i ha => (h name i).acquire_shared ha) rfl
        rw [shmState_snd]
        exact (h name i).admits_shared

/-! ## Runs -/

/-- A run of calls, with their answers. -/
def shmRun (t : JvmVfsLocks) : List ShmCall → JvmVfsLocks × List (Option Int)
  | [] => (t, [])
  | c :: cs =>
    let (t, a) := t.shmCall c
    let (t, as) := shmRun t cs
    (t, a :: as)

/-- A run of the reference, with its answers. -/
noncomputable def ShmRef.run (r : ShmRef) : List ShmCall → ShmRef × List Int
  | [] => (r, [])
  | c :: cs =>
    let (r, a) := r.call c
    let (r, as) := ShmRef.run r cs
    (r, a :: as)

theorem shmRun_refines : ∀ {cs : List ShmCall} {t : JvmVfsLocks} {r : ShmRef}, TableRel t r →
    (∀ c ∈ cs, c.InDomain) →
    (t.shmRun cs).2 = (ShmRef.run r cs).2.map some ∧ TableRel (t.shmRun cs).1 (ShmRef.run r cs).1
  | [], _, _, h, _ => ⟨rfl, h⟩
  | c :: cs, t, r, h, hd => by
    obtain ⟨ha, hr⟩ := shmCall_refines h (hd c (by simp))
    obtain ⟨has, hrs⟩ := @shmRun_refines cs _ _ hr fun c hc => hd c (by simp [hc])
    exact ⟨by simp [shmRun, ShmRef.run, ha, has], hrs⟩

/-- An exclusive hold has no sharer beside it but its own connection. -/
theorem TableRel.alone {t : JvmVfsLocks} {r : ShmRef} (h : TableRel t r) {name : String}
    {i : Fin SHM_NLOCK} {c d : Int} (hc : (t.shmOf name).excl i = c) (hne : c ≠ -1)
    (hd : d ∈ (t.shmOf name).shared i) : d = c := by
  have hw : (r name i).writer = some c := (h name i).writer_iff.mpr ⟨hc, hne⟩
  have hsub := (r name i).alone c hw
  rw [(h name i).1] at hsub
  exact hsub hd

/-- **The slots refine reader/writer locks.** Over any run of in-domain calls
from the empty table, by any connections on any files, the answers are those
of eight independent locks per file, the final table holds what they hold,
and an exclusively held slot has no other sharer. -/
theorem shm_run_refines (calls : List ShmCall) (hd : ∀ c ∈ calls, c.InDomain) :
    (shmRun {} calls).2 = (ShmRef.run (fun _ _ => RwLock.free) calls).2.map some ∧
    TableRel (shmRun {} calls).1 (ShmRef.run (fun _ _ => RwLock.free) calls).1 ∧
    ∀ name i c, ((shmRun {} calls).1.shmOf name).excl i = c → c ≠ -1 →
      ∀ d ∈ ((shmRun {} calls).1.shmOf name).shared i, d = c := by
  obtain ⟨ha, hr⟩ := shmRun_refines tableRel_empty hd
  exact ⟨ha, hr, fun name i c hc hne d hdm => hr.alone hc hne hdm⟩

/-- Two readers of slot 0, and one of them asks for it alone. -/
def upgradeCalls : List ShmCall :=
  [.lock 1 "f" 0 1 (SHM_LOCK ||| SHM_SHARED), .lock 2 "f" 0 1 (SHM_LOCK ||| SHM_SHARED),
   .lock 1 "f" 0 1 (SHM_LOCK ||| SHM_EXCLUSIVE), .unmap 2 "f",
   .lock 1 "f" 0 1 (SHM_LOCK ||| SHM_EXCLUSIVE)]

theorem shm_run_refines_upgrade :
    (ShmRef.run (fun _ _ => RwLock.free) upgradeCalls).2.map some =
      [some OK, some OK, some BUSY, some OK, some OK] ∧
    TableRel (shmRun {} upgradeCalls).1 (ShmRef.run (fun _ _ => RwLock.free) upgradeCalls).1 := by
  have hd : ∀ c ∈ upgradeCalls, c.InDomain := by
    simp [upgradeCalls, ShmCall.InDomain, SHM_NLOCK]
  obtain ⟨ha, hr, -⟩ := shm_run_refines upgradeCalls hd
  exact ⟨ha ▸ by decide, hr⟩

end JvmVfsLocks

end Sqlol
