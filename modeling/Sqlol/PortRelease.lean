/-
`WorkerDbPort.close` from several threads at once: `closed` is a volatile flag
that is tested and set in two steps, then come `worker.stop` and, in the
`finally` block, the release of the port's runtime.

Every call that finds the flag clear goes on to release the port. Two that both
read it before either has written it release it twice, and the second release
takes a reference that belongs to another port (`released_twice`). As long as
each write finds the flag as its read did, a port is released once, and a
runtime is counted for exactly its ports that are not released
(`release_run_once`).
-/
import Sqlol.RuntimeRegistry
import Mathlib.Data.List.Perm.Lattice

namespace Sqlol

namespace PortRelease

open WorkerDbRuntimes (Port Registry FileEntry)

/-- Where a `close` call is. -/
inductive Pc where
  | idle
  /-- It has read `closed` as false. -/
  | passed (p : Nat)
  | stopping (p : Nat)
  | releasing (p : Nat)
  | done
  deriving DecidableEq

/-- The port a call has in hand. -/
def Pc.port : Pc → Option Nat
  | .passed p | .stopping p | .releasing p => some p
  | .idle | .done => none

/-- The port a call will release, its flag being set. -/
def Pc.due : Pc → Option Nat
  | .stopping p | .releasing p => some p
  | .idle | .passed _ | .done => none

variable {Path : Type}

/-- `releases` counts the runs of `release`; no step reads it. -/
structure PortState (Path : Type) where
  port : Port Path
  closed : Bool := false
  releases : Nat := 0

/-- Ports are numbered as they are returned. -/
structure Sys (Path : Type) where
  reg : Registry Path := {}
  next : Nat := 0
  ports : Nat → PortState Path := fun _ => { port := ⟨none, 0⟩ }
  pc : Nat → Pc := fun _ => .idle

/-- The opens, and the steps of the calls `c` of `close` on the ports `p`. -/
inductive Label (Path : Type) where
  /-- `created` is false when a runtime is needed and `openRuntime` throws, `spawned` when the worker's
  spawn does. -/
  | openFile (path : Path) (created spawned : Bool)
  | openMemory (created spawned : Bool)
  /-- `if (closed) return`. -/
  | read (c p : Nat)
  /-- `closed = true`. -/
  | write (c : Nat)
  /-- `worker.stop()`; whether it returned or threw, the `finally` block is next. -/
  | stop (c : Nat) (returned : Bool)
  /-- `release.run()`. -/
  | release (c : Nat)

namespace Sys

/-- The call goes on at `p`. -/
def goto (s : Sys Path) (c : Nat) (p : Pc) : Sys Path := { s with pc := Function.update s.pc c p }

/-- Another state of a port. -/
def setPort (s : Sys Path) (p : Nat) (port : PortState Path) : Sys Path :=
  { s with ports := Function.update s.ports p port }

variable [DecidableEq Path]

/-- The port that an open returns, when it does. -/
def returned (reg : Registry Path) (home : Option Path) (spawned : Bool) : Option (Port Path) :=
  if spawned then (reg.entry home).map fun e => ⟨home, e.rt⟩ else none

/-- The registry behind an open, and the port it returned. -/
def arrive (s : Sys Path) (reg : Registry Path) (port : Option (Port Path)) : Sys Path :=
  match port with
  | none => { s with reg }
  | some port => { s with reg, next := s.next + 1, ports := Function.update s.ports s.next { port } }

/-- `releaseFile(path)` or `releaseMemory()`. -/
def releaseOf (reg : Registry Path) (port : Port Path) : Registry Path :=
  match port.home with
  | some path => Registry.releaseFile { reg with opened := reg.opened.erase port } path
  | none => Registry.releaseMemory { reg with opened := reg.opened.erase port }

end Sys

open Sys

variable [DecidableEq Path]

/-- An `openRuntime` that throws leaves the registry as it was. -/
def step (s : Sys Path) : Label Path → Option (Sys Path)
  | .openFile path created spawned =>
    let reg := s.reg.openFile path (if created then .returns else .throwsBefore) spawned
    some (s.arrive reg (returned reg (some path) spawned))
  | .openMemory created spawned =>
    let reg := s.reg.openMemory created spawned
    some (s.arrive reg (returned reg none spawned))
  | .read c p => match s.pc c with
    | .idle | .done =>
      if p < s.next then some (s.goto c (if (s.ports p).closed then .done else .passed p)) else none
    | _ => none
  | .write c => match s.pc c with
    | .passed p => some ((s.setPort p { s.ports p with closed := true }).goto c (.stopping p))
    | _ => none
  | .stop c _ => match s.pc c with
    | .stopping p => some (s.goto c (.releasing p))
    | _ => none
  | .release c => match s.pc c with
    | .releasing p =>
      let port := s.ports p
      some (({ s with reg := releaseOf s.reg port.port }.setPort p
        { port with releases := port.releases + 1 }).goto c .done)
    | _ => none

/-- No port is released twice, one that has been closed and that no call has in
hand is released, and a runtime's count is that of its ports not released. -/
structure Once (s : Sys Path) : Prop where
  atMost : ∀ p < s.next, (s.ports p).releases ≤ 1
  closed : ∀ p < s.next, (s.ports p).closed = true → (∀ c, (s.pc c).port ≠ some p) → (s.ports p).releases = 1
  refs : ∀ home e, s.reg.entry home = some e → e.refs =
    (List.range s.next).countP fun p => (s.ports p).releases = 0 ∧ (s.ports p).port.home = home

/-- The port whose flag a call is about to set is open. -/
def Pc.FindsOpen (ports : Nat → PortState Path) : Pc → Prop
  | .passed p => (ports p).closed = false
  | .idle | .stopping _ | .releasing _ | .done => True

instance (ports : Nat → PortState Path) : ∀ pc : Pc, Decidable (pc.FindsOpen ports)
  | .passed p => inferInstanceAs (Decidable ((ports p).closed = false))
  | .idle | .stopping _ | .releasing _ | .done => inferInstanceAs (Decidable True)

/-- A call that sets the flag finds it as it read it. -/
def StillOpen (s : Sys Path) : Label Path → Prop
  | .write c => (s.pc c).FindsOpen s.ports
  | .openFile .. | .openMemory .. | .read .. | .stop .. | .release _ => True

instance (s : Sys Path) : ∀ l, Decidable (StillOpen s l)
  | .write c => inferInstanceAs (Decidable ((s.pc c).FindsOpen s.ports))
  | .openFile .. | .openMemory .. | .read .. | .stop .. | .release _ => inferInstanceAs (Decidable True)

/-! ## The invariant -/

/-- The ports whose release has not run. -/
def unreleased (s : Sys Path) : List Nat := (List.range s.next).filter fun p => (s.ports p).releases = 0

/-- The registry has the ports that are not released, and each is released once or has one call on its way to it. -/
structure Inv (s : Sys Path) : Prop where
  reg : WorkerDbRuntimes.Inv s.reg
  opened : s.reg.opened.Perm ((unreleased s).map fun p => (s.ports p).port)
  atMost : ∀ p < s.next, (s.ports p).releases ≤ 1
  lt : ∀ c p, (s.pc c).port = some p → p < s.next
  due : ∀ c p, (s.pc c).due = some p → (s.ports p).closed = true ∧ (s.ports p).releases = 0
  unique : ∀ c d p, (s.pc c).due = some p → (s.pc d).due = some p → c = d
  released : ∀ p < s.next, (s.ports p).closed = true → (s.ports p).releases = 1 ∨ ∃ c, (s.pc c).due = some p
  clear : ∀ p < s.next, (s.ports p).closed = false → (s.ports p).releases = 0

theorem inv_start : Inv ({} : Sys Path) where
  reg := WorkerDbRuntimes.inv_start
  opened := .nil
  atMost p hp := absurd hp (Nat.not_lt_zero p)
  lt _ _ h := by cases h
  due _ _ h := by cases h
  unique _ _ _ h := by cases h
  released p hp := absurd hp (Nat.not_lt_zero p)
  clear p hp := absurd hp (Nat.not_lt_zero p)

theorem Pc.port_of_due {pc : Pc} {p : Nat} (h : pc.due = some p) : pc.port = some p := by
  cases pc <;> simp_all [Pc.due, Pc.port]

theorem Inv.once {s : Sys Path} (hi : Inv s) : Once s where
  atMost := hi.atMost
  closed p hp hc hno := by
    rcases hi.released p hp hc with h | ⟨c, h⟩
    · exact h
    · exact absurd (Pc.port_of_due h) (hno c)
  refs home e he := by
    rw [(hi.reg.counted home e he).1, Registry.portsOn, hi.opened.countP_eq, List.countP_map, unreleased,
      List.countP_filter]
    congr 1
    refine List.countP_congr fun p _ => ?_
    simp [and_comm]

/-! ## Opening -/

section
variable {reg : Registry Path}

theorem releaseFile_opened (path : Path) : (reg.releaseFile path).opened = reg.opened := by
  simp only [Registry.releaseFile]
  split
  · rfl
  · split <;> rfl

omit [DecidableEq Path] in
theorem releaseMemory_opened : reg.releaseMemory.opened = reg.opened := by
  simp only [Registry.releaseMemory]
  split
  · split <;> rfl
  · rfl

theorem spawnFile_opened (path : Path) (e : FileEntry) (spawned : Bool) :
    (reg.spawnFile path e spawned).opened =
      (returned (reg.spawnFile path e spawned) (some path) spawned).toList ++ reg.opened := by
  cases spawned with
  | true => simp [Registry.spawnFile, returned, Registry.entry]
  | false => simp [Registry.spawnFile, returned, releaseFile_opened]

theorem spawnMemory_opened {r : Nat} (hm : reg.memRt = some r) (spawned : Bool) :
    (reg.spawnMemory r spawned).opened =
      (returned (reg.spawnMemory r spawned) none spawned).toList ++ reg.opened := by
  cases spawned with
  | true => simp [Registry.spawnMemory, returned, Registry.entry, hm]
  | false => simp [Registry.spawnMemory, returned, releaseMemory_opened]

/-- The registry counts the port that an open returns. -/
theorem openFile_opened (path : Path) (created spawned : Bool) :
    (reg.openFile path (if created then .returns else .throwsBefore) spawned).opened =
      (returned (reg.openFile path (if created then .returns else .throwsBefore) spawned) (some path)
        spawned).toList ++ reg.opened := by
  simp only [Registry.openFile]
  cases he : reg.files.lookup path with
  | some e => exact spawnFile_opened path e spawned
  | none =>
    cases created with
    | true => exact spawnFile_opened path _ spawned
    | false => simp [returned, Registry.entry, he]

theorem openMemory_opened (created spawned : Bool) :
    (reg.openMemory created spawned).opened =
      (returned (reg.openMemory created spawned) none spawned).toList ++ reg.opened := by
  simp only [Registry.openMemory]
  cases hm : reg.memRt with
  | some r => exact spawnMemory_opened hm spawned
  | none =>
    cases created with
    | true => exact spawnMemory_opened rfl spawned
    | false => simp [returned, Registry.entry, hm]

end

variable {s : Sys Path}

/-- A port arrives: open, not released, and in nobody's hand. -/
theorem Inv.arrive (hi : Inv s) {reg : Registry Path} {port : Option (Port Path)} (hreg : WorkerDbRuntimes.Inv reg)
    (hopened : reg.opened = port.toList ++ s.reg.opened) : Inv (s.arrive reg port) := by
  cases port with
  | none =>
    refine ⟨hreg, ?_, hi.atMost, hi.lt, hi.due, hi.unique, hi.released, hi.clear⟩
    exact (show reg.opened = s.reg.opened from hopened) ▸ hi.opened
  | some port =>
    have self : (s.arrive reg (some port)).ports s.next = { port } := Function.update_self ..
    have other : ∀ p < s.next, (s.arrive reg (some port)).ports p = s.ports p :=
      fun p hp => Function.update_of_ne (Nat.ne_of_lt hp) ..
    have cases_lt : ∀ {Q : Nat → Prop}, (∀ p < s.next, Q p) → Q s.next → ∀ p < s.next + 1, Q p := by
      intro Q hold hnew p hp
      rcases Nat.lt_succ_iff_lt_or_eq.mp hp with h | rfl
      · exact hold p h
      · exact hnew
    refine ⟨hreg, ?_, cases_lt (fun p hp => ?_) ?_, fun c p h => Nat.lt_succ_of_lt (hi.lt c p h), fun c p h => ?_,
      hi.unique, cases_lt (fun p hp h => ?_) fun h => ?_, cases_lt (fun p hp h => ?_) fun _ => ?_⟩
    · have hfilter : (List.range s.next).filter (fun p => ((s.arrive reg (some port)).ports p).releases = 0) =
          unreleased s := List.filter_congr fun p hp => by rw [other p (List.mem_range.mp hp)]
      have hmap : (unreleased s).map (fun p => ((s.arrive reg (some port)).ports p).port) =
          (unreleased s).map fun p => (s.ports p).port :=
        List.map_congr_left fun p hp => by
          rw [other p (List.mem_range.mp (List.mem_filter.mp hp).1)]
      show reg.opened.Perm _
      rw [hopened, unreleased, show (s.arrive reg (some port)).next = s.next + 1 from rfl, List.range_succ,
        List.filter_append, hfilter, List.map_append, hmap]
      simp only [List.filter_singleton, self, decide_true, Option.toList_some, List.singleton_append, cond_true,
        List.map_singleton]
      exact (hi.opened.cons port).trans (List.perm_append_singleton ..).symm
    · rw [other p hp]; exact hi.atMost p hp
    · rw [self]; exact Nat.zero_le 1
    · rw [other p (hi.lt c p (Pc.port_of_due h))]; exact hi.due c p h
    · rw [other p hp] at h ⊢; exact hi.released p hp h
    · rw [self] at h; cases h
    · rw [other p hp] at h ⊢; exact hi.clear p hp h
    · rw [self]

/-! ## Closing -/

/-- A call moves on without a port that is due. -/
theorem Inv.goto (hi : Inv s) {c : Nat} {pc : Pc} (hold : (s.pc c).due = none) (hdue : pc.due = none)
    (hlt : ∀ p, pc.port = some p → p < s.next) : Inv (s.goto c pc) := by
  have same : (s.goto c pc).pc c = pc := Function.update_self ..
  have other : ∀ d, d ≠ c → (s.goto c pc).pc d = s.pc d := fun d hd => Function.update_of_ne hd ..
  have back : ∀ d p, ((s.goto c pc).pc d).due = some p → (s.pc d).due = some p := fun d p h => by
    by_cases hd : d = c
    · subst hd; rw [same, hdue] at h; cases h
    · rwa [other d hd] at h
  refine ⟨hi.reg, hi.opened, hi.atMost, fun d p h => ?_, fun d p h => hi.due d p (back d p h),
    fun d e p hd he => hi.unique d e p (back d p hd) (back e p he), fun p hp hc => ?_, hi.clear⟩
  · by_cases hd : d = c
    · subst hd; rw [same] at h; exact hlt p h
    · rw [other d hd] at h; exact hi.lt d p h
  · refine (hi.released p hp hc).imp_right fun ⟨d, h⟩ => ⟨d, ?_⟩
    rwa [other d fun hd => by rw [hd, hold] at h; cases h]

/-- The one call that is past the flag of an open port sets it. -/
theorem Inv.write (hi : Inv s) {c p : Nat} (hpc : s.pc c = .passed p) (hopen : (s.ports p).closed = false) :
    Inv ((s.setPort p { s.ports p with closed := true }).goto c (.stopping p)) := by
  have hp : p < s.next := hi.lt c p (by rw [hpc]; rfl)
  have hnone : ∀ d, (s.pc d).due ≠ some p := fun d h => by
    have := (hi.due d p h).1
    rw [hopen] at this
    cases this
  set s' := (s.setPort p { s.ports p with closed := true }).goto c (.stopping p)
  have self : s'.ports p = { s.ports p with closed := true } := Function.update_self ..
  have other : ∀ q, q ≠ p → s'.ports q = s.ports q := fun q hq => Function.update_of_ne hq ..
  have releases : ∀ q, (s'.ports q).releases = (s.ports q).releases := fun q => by
    by_cases hq : q = p
    · subst hq; rw [self]
    · rw [other q hq]
  have port : ∀ q, (s'.ports q).port = (s.ports q).port := fun q => by
    by_cases hq : q = p
    · subst hq; rw [self]
    · rw [other q hq]
  have same : s'.pc c = .stopping p := Function.update_self ..
  have others : ∀ d, d ≠ c → s'.pc d = s.pc d := fun d hd => Function.update_of_ne hd ..
  have due : ∀ d q, (s'.pc d).due = some q → (d = c ∧ q = p) ∨ (d ≠ c ∧ q ≠ p ∧ (s.pc d).due = some q) := by
    intro d q h
    by_cases hd : d = c
    · subst hd
      rw [same] at h
      cases h
      exact .inl ⟨rfl, rfl⟩
    · rw [others d hd] at h
      refine .inr ⟨hd, ?_, h⟩
      rintro rfl
      exact hnone d h
  refine ⟨hi.reg, ?_, fun q hq => by rw [releases]; exact hi.atMost q hq, fun d q h => ?_, fun d q h => ?_,
    fun d e q hd he => ?_, fun q hq hc => ?_, fun q hq h => ?_⟩
  · have hun : unreleased s' = unreleased s := List.filter_congr fun q _ => by rw [releases]
    rw [hun]
    simp only [port]
    exact hi.opened
  · by_cases hd : d = c
    · subst hd; rw [same] at h; cases h; exact hp
    · rw [others d hd] at h; exact hi.lt d q h
  · rcases due d q h with ⟨rfl, rfl⟩ | ⟨-, hq, h⟩
    · rw [self]; exact ⟨rfl, hi.clear q hp hopen⟩
    · rw [other q hq]; exact hi.due d q h
  · rcases due d q hd with ⟨rfl, rfl⟩ | ⟨-, hq, hd⟩ <;> rcases due e q he with ⟨rfl, hqp⟩ | ⟨-, hq', he⟩
    · rfl
    · exact absurd rfl hq'
    · exact absurd hqp hq
    · exact hi.unique d e q hd he
  · by_cases hq' : q = p
    · subst hq'; exact .inr ⟨c, by rw [same]; rfl⟩
    · rw [other q hq'] at hc ⊢
      refine (hi.released q hq hc).imp_right fun ⟨d, h⟩ => ⟨d, ?_⟩
      rwa [others d fun hd => by rw [hd, hpc] at h; cases h]
  · rw [releases]
    by_cases hq' : q = p
    · subst hq'; rw [self] at h; cases h
    · rw [other q hq'] at h; exact hi.clear q hq h

/-- `stop` is behind the call. -/
theorem Inv.stop (hi : Inv s) {c p : Nat} (hpc : s.pc c = .stopping p) : Inv (s.goto c (.releasing p)) := by
  have same : (s.goto c (.releasing p)).pc c = .releasing p := Function.update_self ..
  have other : ∀ d, d ≠ c → (s.goto c (.releasing p)).pc d = s.pc d := fun d hd => Function.update_of_ne hd ..
  have due : ∀ d, ((s.goto c (.releasing p)).pc d).due = (s.pc d).due := fun d => by
    by_cases hd : d = c
    · subst hd; rw [same, hpc]; rfl
    · rw [other d hd]
  refine ⟨hi.reg, hi.opened, hi.atMost, fun d q h => ?_, fun d q h => hi.due d q (due d ▸ h),
    fun d e q hd he => hi.unique d e q (due d ▸ hd) (due e ▸ he), fun q hq hc => ?_, hi.clear⟩
  · by_cases hd : d = c
    · subst hd; rw [same] at h; cases h; exact hi.lt d p (by rw [hpc]; rfl)
    · rw [other d hd] at h; exact hi.lt d q h
  · exact (hi.released q hq hc).imp_right fun ⟨d, h⟩ => ⟨d, by rw [due]; exact h⟩

/-- A port's release, run for the first time, is a release of the registry's. -/
theorem Inv.releaseOf (hi : Inv s) {p : Nat} (hp : p < s.next) (hr : (s.ports p).releases = 0) :
    WorkerDbRuntimes.Inv (releaseOf s.reg (s.ports p).port) ∧
      (releaseOf s.reg (s.ports p).port).opened = s.reg.opened.erase (s.ports p).port := by
  have hmem : (s.ports p).port ∈ s.reg.opened := by
    rw [hi.opened.mem_iff]
    exact List.mem_map_of_mem (List.mem_filter.mpr ⟨List.mem_range.mpr hp, decide_eq_true hr⟩)
  simp only [Sys.releaseOf]
  split
  · next path hh => exact ⟨hi.reg.releaseFile hmem hh, releaseFile_opened path⟩
  · next hh => exact ⟨hi.reg.releaseMemory hmem hh, releaseMemory_opened⟩

theorem Inv.release (hi : Inv s) {c p : Nat} (hpc : s.pc c = .releasing p) :
    Inv (({ s with reg := Sys.releaseOf s.reg (s.ports p).port }.setPort p
      { s.ports p with releases := (s.ports p).releases + 1 }).goto c .done) := by
  have hp : p < s.next := hi.lt c p (by rw [hpc]; rfl)
  obtain ⟨hclosed, hr⟩ := hi.due c p (by rw [hpc]; rfl)
  obtain ⟨hreg, hopened⟩ := hi.releaseOf hp hr
  set s' := ({ s with reg := Sys.releaseOf s.reg (s.ports p).port }.setPort p
    { s.ports p with releases := (s.ports p).releases + 1 }).goto c .done
  have self : s'.ports p = { s.ports p with releases := (s.ports p).releases + 1 } := Function.update_self ..
  have other : ∀ q, q ≠ p → s'.ports q = s.ports q := fun q hq => Function.update_of_ne hq ..
  have port : ∀ q, (s'.ports q).port = (s.ports q).port := fun q => by
    by_cases hq : q = p
    · subst hq; rw [self]
    · rw [other q hq]
  have closed : ∀ q, (s'.ports q).closed = (s.ports q).closed := fun q => by
    by_cases hq : q = p
    · subst hq; rw [self]
    · rw [other q hq]
  have same : s'.pc c = .done := Function.update_self ..
  have others : ∀ d, d ≠ c → s'.pc d = s.pc d := fun d hd => Function.update_of_ne hd ..
  -- Nobody else has the port due.
  have due : ∀ d q, (s'.pc d).due = some q → d ≠ c ∧ q ≠ p ∧ (s.pc d).due = some q := by
    intro d q h
    by_cases hd : d = c
    · subst hd; rw [same] at h; cases h
    · rw [others d hd] at h
      refine ⟨hd, ?_, h⟩
      rintro rfl
      exact hd (hi.unique d c q h (by rw [hpc]; rfl))
  refine ⟨hreg, ?_, fun q hq => ?_, fun d q h => ?_, fun d q h => ?_, fun d e q hd he => ?_, fun q hq hc => ?_,
    fun q hq h => ?_⟩
  · have hmem : p ∈ unreleased s := List.mem_filter.mpr ⟨List.mem_range.mpr hp, decide_eq_true hr⟩
    have hun : unreleased s' = (unreleased s).erase p := by
      have hnodup : (unreleased s).Nodup := List.nodup_range.filter _
      rw [hnodup.erase_eq_filter, unreleased, unreleased, List.filter_filter]
      refine List.filter_congr fun q _ => ?_
      by_cases hq : q = p
      · subst hq; simp [self]
      · simp [other q hq, hq]
    have hmap : ((unreleased s).map fun q => (s.ports q).port).Perm
        ((s.ports p).port :: ((unreleased s).erase p).map fun q => (s.ports q).port) :=
      (List.perm_cons_erase hmem).map _
    rw [show s'.reg.opened = _ from hopened, hun]
    simp only [port]
    have := (hi.opened.trans hmap).erase (s.ports p).port
    rwa [List.erase_cons_head] at this
  · by_cases hq' : q = p
    · subst hq'; rw [self, hr]
    · rw [other q hq']; exact hi.atMost q hq
  · by_cases hd : d = c
    · subst hd; rw [same] at h; cases h
    · rw [others d hd] at h; exact hi.lt d q h
  · obtain ⟨-, hq, h⟩ := due d q h
    rw [other q hq]
    exact hi.due d q h
  · exact hi.unique d e q (due d q hd).2.2 (due e q he).2.2
  · by_cases hq' : q = p
    · subst hq'; rw [self]; exact .inl (by simp only [hr])
    · rw [other q hq'] at hc ⊢
      refine (hi.released q hq hc).imp_right fun ⟨d, h⟩ => ⟨d, ?_⟩
      rwa [others d fun hd => by rw [hd, hpc] at h; exact hq' (Option.some.inj h).symm]
  · rw [closed] at h
    by_cases hq' : q = p
    · subst hq'; rw [hclosed] at h; cases h
    · rw [other q hq']; exact hi.clear q hq h

theorem Inv.step {s' : Sys Path} {l : Label Path} (hi : Inv s) (ho : StillOpen s l) (h : step s l = some s') :
    Inv s' := by
  cases l with
  | openFile path created spawned =>
    cases h
    refine hi.arrive (hi.reg.step (l := .openFile path _ spawned) ?_ rfl) (openFile_opened path created spawned)
    cases created <;> trivial
  | openMemory created spawned =>
    cases h
    exact hi.arrive (hi.reg.step (l := .openMemory created spawned) trivial rfl) (openMemory_opened created spawned)
  | read c p =>
    simp only [PortRelease.step] at h
    split at h
    · next hpc =>
      split at h <;> cases h
      next hp =>
      refine hi.goto (by rw [hpc]; rfl) (by split <;> rfl) fun q hq => ?_
      split at hq <;> cases hq
      exact hp
    · next hpc =>
      split at h <;> cases h
      next hp =>
      refine hi.goto (by rw [hpc]; rfl) (by split <;> rfl) fun q hq => ?_
      split at hq <;> cases hq
      exact hp
    · cases h
  | write c =>
    simp only [PortRelease.step] at h
    split at h <;> cases h
    next p hpc =>
    simp only [StillOpen, hpc] at ho
    exact hi.write hpc ho
  | stop c returned =>
    simp only [PortRelease.step] at h
    split at h <;> cases h
    next p hpc => exact hi.stop hpc
  | release c =>
    simp only [PortRelease.step] at h
    split at h <;> cases h
    next p hpc => exact hi.release hpc

/-- **A port is released once**, over every interleaving of any calls of
`close`, in which each call that sets the flag finds it clear. -/
theorem release_run_once (labels : List (Label Path)) (h : EveryStep step StillOpen {} labels) :
    EveryState step Once {} labels :=
  everyState_of_invariant (fun _ _ _ hi ho hs => Inv.step hi ho hs) (fun _ hi => hi.once) inv_start h

/-- Two ports on one file; the first is closed, by a `stop` that throws, and closed again behind it. -/
def closedAgain : List (Label String) :=
  [.openFile "a.db" true true, .openFile "a.db" true true, .read 0 0, .write 0, .read 1 0, .stop 0 false, .release 0,
    .read 0 0]

theorem release_run_once_closed_again :
    (run step {} closedAgain).map (fun s => ((s.ports 0).releases, s.reg.files.lookup "a.db")) =
      some (1, some ⟨0, 1⟩) ∧
    EveryState step Once {} closedAgain :=
  ⟨by decide, release_run_once closedAgain (by decide)⟩

/-- Two calls read the flag before either has set it. -/
def raced : List (Label String) :=
  [.openFile "a.db" true true, .openFile "a.db" true true, .read 0 0, .read 1 0, .write 0, .write 1, .stop 0 true,
    .stop 1 true, .release 0, .release 1]

/-- The first port is released twice, and the runtime is closed under the second. -/
theorem released_twice : ¬ EveryState step Once {} raced := by
  intro hall
  have hend : (run step {} raced).map (fun s => (s.next, (s.ports 0).releases, s.reg.files.lookup "a.db")) =
      some (2, 2, none) := by decide
  obtain ⟨s, hs, he⟩ := Option.map_eq_some_iff.mp hend
  simp only [Prod.mk.injEq] at he
  have := (hall.last hs).atMost 0 (by omega)
  omega

end PortRelease

end Sqlol
