/-
`WorkerDbRuntimes`: which runtimes there are, who counts them, and how often
each is closed.

`openFile`, `openMemory` and the two releases hold the registry's monitor from
beginning to end, so between them each is one step. A path's runtime and the
shared `:memory:` runtime are counted alike (`entry`): made for the first port,
closed behind the last, made again for the next.

The one runtime that escapes the count is one whose `openRuntime` throws when
the runtime is there already: its owner lock is closed and it is not
(`registry_accurate_iff`, `registry_leak`).
-/
import Sqlol.Runs
import Sqlol.Table
import Mathlib.Logic.Function.Basic
import Mathlib.Data.List.Count

namespace Sqlol

namespace WorkerDbRuntimes

/-- An entry of the registry; a runtime is known by its number. -/
structure FileEntry where
  rt : Nat
  refs : Int := 0
  deriving DecidableEq

variable {Path : Type}

/-- What a port is on: a path, or `:memory:`. -/
structure Port (Path : Type) where
  home : Option Path
  rt : Nat
  deriving DecidableEq

/-- `opened` are the ports that were returned and whose release has not run.
`closes` and `unlocks` count the calls of `rt.close` and of `ownerLock.close` for
each runtime, and `owned` says which runtimes came with an owner lock; no
operation reads these. -/
structure Registry (Path : Type) where
  files : Table Path FileEntry := ∅
  memRt : Option Nat := none
  memRefs : Int := 0
  nextRt : Nat := 0
  opened : List (Port Path) := []
  closes : Nat → Nat := fun _ => 0
  unlocks : Nat → Nat := fun _ => 0
  owned : Nat → Bool := fun _ => false

/-- How the making of a runtime ends. -/
inductive Creation where
  | returns
  /-- The owner lock, a directory or the constructor threw: there is no runtime. -/
  | throwsBefore
  /-- The constructor had returned. -/
  | throwsBehind
  deriving DecidableEq

/-- The synchronized operations. -/
inductive Label (Path : Type) where
  /-- `spawned` is false when the worker's spawn throws. -/
  | openFile (path : Path) (creation : Creation) (spawned : Bool)
  | openMemory (created spawned : Bool)
  | release (port : Port Path)

variable [DecidableEq Path]

namespace Registry

/-- One more for `r`. -/
def bump (f : Nat → Nat) (r : Nat) : Nat → Nat := Function.update f r (f r + 1)

/-- `rt.close()` does not throw, so the `finally` block comes behind it. -/
def releaseFile (s : Registry Path) (path : Path) : Registry Path :=
  match s.files.lookup path with
  | none => s
  | some e =>
    if e.refs - 1 ≤ 0 then
      { s with files := s.files.erase path, closes := bump s.closes e.rt, unlocks := bump s.unlocks e.rt }
    else { s with files := s.files.insert path { e with refs := e.refs - 1 } }

/-- From `entry.refs++` on. -/
def spawnFile (s : Registry Path) (path : Path) (e : FileEntry) (spawned : Bool) : Registry Path :=
  let s := { s with files := s.files.insert path { e with refs := e.refs + 1 } }
  if spawned then { s with opened := ⟨some path, e.rt⟩ :: s.opened } else s.releaseFile path

/-- `WorkerDbRuntimes.openFile`. -/
def openFile (s : Registry Path) (path : Path) (creation : Creation) (spawned : Bool) : Registry Path :=
  match s.files.lookup path with
  | some e => s.spawnFile path e spawned
  | none => match creation with
    | .returns =>
      { s with
        nextRt := s.nextRt + 1
        owned := Function.update s.owned s.nextRt true
        files := s.files.insert path { rt := s.nextRt } }.spawnFile path { rt := s.nextRt } spawned
    | .throwsBefore => s
    | .throwsBehind =>
      { s with
        nextRt := s.nextRt + 1
        owned := Function.update s.owned s.nextRt true
        unlocks := bump s.unlocks s.nextRt }

/-- `WorkerDbRuntimes.releaseMemory`. -/
def releaseMemory (s : Registry Path) : Registry Path :=
  if s.memRefs - 1 ≤ 0 then
    match s.memRt with
    | some r => { s with memRefs := s.memRefs - 1, memRt := none, closes := bump s.closes r }
    | none => { s with memRefs := s.memRefs - 1 }
  else { s with memRefs := s.memRefs - 1 }

/-- From `memRefs++` on. -/
def spawnMemory (s : Registry Path) (r : Nat) (spawned : Bool) : Registry Path :=
  let s := { s with memRefs := s.memRefs + 1 }
  if spawned then { s with opened := ⟨none, r⟩ :: s.opened } else s.releaseMemory

/-- `WorkerDbRuntimes.openMemory`. -/
def openMemory (s : Registry Path) (created spawned : Bool) : Registry Path :=
  match s.memRt with
  | some r => s.spawnMemory r spawned
  | none =>
    if created then { s with nextRt := s.nextRt + 1, memRt := some s.nextRt }.spawnMemory s.nextRt spawned
    else s

/-- The entry of a path, or of `:memory:`. -/
def entry (s : Registry Path) : Option Path → Option FileEntry
  | some path => s.files.lookup path
  | none => s.memRt.map fun r => { rt := r, refs := s.memRefs }

/-- How many ports are open on it. -/
def portsOn (s : Registry Path) (home : Option Path) : Nat := s.opened.countP fun p => p.home = home

end Registry

open Registry

/-- A port's release runs at most once. -/
def step (s : Registry Path) : Label Path → Option (Registry Path)
  | .openFile path creation spawned => some (s.openFile path creation spawned)
  | .openMemory created spawned => some (s.openMemory created spawned)
  | .release port =>
    if port ∈ s.opened then
      let s := { s with opened := s.opened.erase port }
      match port.home with
      | some path => some (s.releaseFile path)
      | none => some s.releaseMemory
    else none

/-- What the registry says is what is open, and a runtime is closed once, when
nothing is open on it any more. -/
structure Accurate (s : Registry Path) : Prop where
  file : ∀ path, (s.files.lookup path).isSome = true ↔ 0 < s.portsOn (some path)
  fileRefs : ∀ path e, s.files.lookup path = some e → e.refs = s.portsOn (some path)
  mem : s.memRt.isSome = true ↔ 0 < s.portsOn none
  memRefs : s.memRefs = s.portsOn none
  shared : ∀ p ∈ s.opened, ∃ e, s.entry p.home = some e ∧ e.rt = p.rt
  running : ∀ p ∈ s.opened, s.closes p.rt = 0 ∧ s.unlocks p.rt = 0
  ended : ∀ r < s.nextRt, (∀ p ∈ s.opened, p.rt ≠ r) →
    s.closes r = 1 ∧ s.unlocks r = if s.owned r then 1 else 0

/-- No `openRuntime` throws behind the constructor of its runtime. -/
def NoneBehind (s : Registry Path) : Label Path → Prop
  | .openFile path .throwsBehind _ => (s.files.lookup path).isSome = true
  | _ => True

/-! ## The invariant -/

/-- The count of every entry is that of its ports, and a runtime without one is closed. -/
structure Inv (s : Registry Path) : Prop where
  counted : ∀ home e, s.entry home = some e → e.refs = s.portsOn home ∧ 0 < s.portsOn home
  alive : ∀ home e, s.entry home = some e → e.rt < s.nextRt ∧ s.closes e.rt = 0 ∧ s.unlocks e.rt = 0 ∧
    s.owned e.rt = home.isSome
  distinct : ∀ home home' e e', s.entry home = some e → s.entry home' = some e' → e.rt = e'.rt → home = home'
  shared : ∀ p ∈ s.opened, ∃ e, s.entry p.home = some e ∧ e.rt = p.rt
  ended : ∀ r < s.nextRt, (∃ home e, s.entry home = some e ∧ e.rt = r) ∨
    (s.closes r = 1 ∧ s.unlocks r = if s.owned r then 1 else 0)
  fresh : ∀ r, s.nextRt ≤ r → s.closes r = 0 ∧ s.unlocks r = 0 ∧ s.owned r = false
  unused : s.memRt = none → s.memRefs = 0

theorem inv_start : Inv ({} : Registry Path) where
  counted home e h := by cases home <;> cases h
  alive home e h := by cases home <;> cases h
  distinct home _ e _ h := by cases home <;> cases h
  shared _ h := by cases h
  ended r h := absurd h (Nat.not_lt_zero r)
  fresh _ _ := ⟨rfl, rfl, rfl⟩
  unused _ := rfl

variable {s s' : Registry Path} {home : Option Path} {e : FileEntry}

/-- A port open on something is counted there. -/
theorem portsOn_pos (hp : ∃ p ∈ s.opened, p.home = home) : 0 < s.portsOn home := by
  obtain ⟨p, hp, hh⟩ := hp
  exact List.countP_pos_iff.mpr ⟨p, hp, decide_eq_true hh⟩

theorem Inv.entry_iff (hi : Inv s) : (s.entry home).isSome = true ↔ 0 < s.portsOn home := by
  constructor
  · intro h
    obtain ⟨e, he⟩ := Option.isSome_iff_exists.mp h
    exact (hi.counted home e he).2
  · intro h
    obtain ⟨p, hp, hh⟩ := List.countP_pos_iff.mp h
    obtain ⟨e, he, -⟩ := hi.shared p hp
    rw [of_decide_eq_true hh] at he
    rw [he]
    rfl

theorem Inv.accurate (hi : Inv s) : Accurate s where
  file path := (hi.entry_iff : (s.entry (some path)).isSome = true ↔ _)
  fileRefs path e he := (hi.counted (some path) e he).1
  mem := by
    rw [← hi.entry_iff]
    simp [Registry.entry]
  memRefs := by
    cases hm : s.memRt with
    | none =>
      have hno : ¬ 0 < s.portsOn none := by
        rw [← hi.entry_iff]
        simp [Registry.entry, hm]
      rw [hi.unused hm]
      omega
    | some r => exact (hi.counted none ⟨r, s.memRefs⟩ (by simp [Registry.entry, hm])).1
  shared := hi.shared
  running p hp := by
    obtain ⟨e, he, hr⟩ := hi.shared p hp
    obtain ⟨-, hc, hu, -⟩ := hi.alive p.home e he
    exact hr ▸ ⟨hc, hu⟩
  ended r hr hno := by
    rcases hi.ended r hr with ⟨home, e, he, hrt⟩ | h
    · obtain ⟨p, hp, hh⟩ := List.countP_pos_iff.mp (hi.counted home e he).2
      obtain ⟨e', he', hrt'⟩ := hi.shared p hp
      rw [of_decide_eq_true hh, he] at he'
      cases he'
      exact absurd (hrt'.symm.trans hrt) (hno p hp)
    · exact h

/-! ## What an operation does to an entry -/

/-- One entry is set, the others are as they were. -/
def Sets (s s' : Registry Path) (home : Option Path) (x : Option FileEntry) : Prop :=
  ∀ h, s'.entry h = if h = home then x else s.entry h

theorem Sets.self {x : Option FileEntry} (hs : Sets s s' home x) : s'.entry home = x := by
  rw [hs, if_pos rfl]

theorem Sets.other {x : Option FileEntry} (hs : Sets s s' home x) {h : Option Path} (hne : h ≠ home) :
    s'.entry h = s.entry h := by
  rw [hs, if_neg hne]

/-- The runtime of another entry is another one. -/
theorem Inv.rt_ne (hi : Inv s) (he : s.entry home = some e) {h : Option Path} {e' : FileEntry} (hne : h ≠ home)
    (he' : s.entry h = some e') : e'.rt ≠ e.rt :=
  fun hr => hne (hi.distinct h home e' e he' he hr)

/-- No runtime comes or goes. -/
structure Same (s s' : Registry Path) : Prop where
  next : s'.nextRt = s.nextRt
  closes : s'.closes = s.closes
  unlocks : s'.unlocks = s.unlocks
  owned : s'.owned = s.owned
  unused : s'.memRt = none → s'.memRefs = 0

/-- The counts go on. -/
theorem Inv.recount (hi : Inv s) (he : s.entry home = some e) {n : Int}
    (hs : Sets s s' home (some { e with refs := n })) (hn : n = s'.portsOn home) (hpos : 0 < s'.portsOn home)
    (hports : ∀ h ≠ home, s'.portsOn h = s.portsOn h)
    (hopened : ∀ p ∈ s'.opened, p ∈ s.opened ∨ p = ⟨home, e.rt⟩) (hsame : Same s s') : Inv s' := by
  obtain ⟨hnext, hcloses, hunlocks, howned, hunused⟩ := hsame
  -- The runtime of an entry is the one it had.
  have hback : ∀ h e', s'.entry h = some e' → ∃ e'', s.entry h = some e'' ∧ e''.rt = e'.rt := by
    intro h e' he'
    by_cases hh : h = home
    · subst hh
      rw [hs.self] at he'
      cases he'
      exact ⟨e, he, rfl⟩
    · rw [hs.other hh] at he'
      exact ⟨e', he', rfl⟩
  have hforth : ∀ h e', s.entry h = some e' → ∃ e'', s'.entry h = some e'' ∧ e''.rt = e'.rt := by
    intro h e' he'
    by_cases hh : h = home
    · subst hh
      rw [he] at he'
      cases he'
      exact ⟨_, hs.self, rfl⟩
    · exact ⟨e', (hs.other hh).trans he', rfl⟩
  refine ⟨fun h e' he' => ?_, fun h e' he' => ?_, fun h h' e1 e2 h1 h2 hr => ?_, fun p hp => ?_, fun r hr => ?_,
    fun r hr => ?_, hunused⟩
  · by_cases hh : h = home
    · subst hh
      rw [hs.self] at he'
      cases he'
      exact ⟨hn, hpos⟩
    · rw [hs.other hh] at he'
      rw [hports h hh]
      exact hi.counted h e' he'
  · obtain ⟨e'', he'', hr⟩ := hback h e' he'
    have := hi.alive h e'' he''
    rw [hnext, hcloses, hunlocks, howned, ← hr]
    exact this
  · obtain ⟨e1', h1', hr1⟩ := hback h e1 h1
    obtain ⟨e2', h2', hr2⟩ := hback h' e2 h2
    exact hi.distinct h h' e1' e2' h1' h2' (hr1.trans (hr.trans hr2.symm))
  · rcases hopened p hp with h | rfl
    · obtain ⟨e', he', hr⟩ := hi.shared p h
      obtain ⟨e'', he'', hr'⟩ := hforth p.home e' he'
      exact ⟨e'', he'', hr'.trans hr⟩
    · exact ⟨_, hs.self, rfl⟩
  · rw [hcloses, hunlocks, howned]
    rcases hi.ended r (hnext ▸ hr) with ⟨h, e', he', hrt⟩ | h
    · obtain ⟨e'', he'', hr'⟩ := hforth h e' he'
      exact .inl ⟨h, e'', he'', hr'.trans hrt⟩
    · exact .inr h
  · rw [hcloses, hunlocks, howned]
    exact hi.fresh r (hnext ▸ hr)

/-- One port more. -/
theorem Inv.join (hi : Inv s) (he : s.entry home = some e) (hs : Sets s s' home (some { e with refs := e.refs + 1 }))
    (hopened : s'.opened = ⟨home, e.rt⟩ :: s.opened) (hsame : Same s s') : Inv s' := by
  obtain ⟨hrefs, hpos⟩ := hi.counted home e he
  have hmore : s'.portsOn home = s.portsOn home + 1 := by
    rw [portsOn, hopened, List.countP_cons, portsOn]
    simp
  refine hi.recount he hs (by rw [hmore, hrefs]; rfl) (by rw [hmore]; omega) (fun h hh => ?_) (fun p hp => ?_) hsame
  · rw [portsOn, hopened, List.countP_cons, portsOn]
    simp [Ne.symm hh]
  · rw [hopened] at hp
    exact (List.mem_cons.mp hp).symm

/-- One port less, and not the last. -/
theorem Inv.leave (hi : Inv s) (he : s.entry home = some e) (hs : Sets s s' home (some { e with refs := e.refs - 1 }))
    (hopened : s'.opened = s.opened.erase ⟨home, e.rt⟩) (hp : ⟨home, e.rt⟩ ∈ s.opened) (hmore : ¬ e.refs - 1 ≤ 0)
    (hsame : Same s s') : Inv s' := by
  obtain ⟨hrefs, hpos⟩ := hi.counted home e he
  have hless : s'.portsOn home = s.portsOn home - 1 := by
    rw [portsOn, hopened, List.countP_erase, if_pos ⟨hp, decide_eq_true rfl⟩, portsOn]
  refine hi.recount he hs (by rw [hless]; omega) (by rw [hless]; omega) (fun h hh => ?_) (fun p hp => ?_) hsame
  · rw [portsOn, hopened, List.countP_erase, if_neg, portsOn, Nat.sub_zero]
    rintro ⟨-, h'⟩
    exact hh (of_decide_eq_true h').symm
  · rw [hopened] at hp
    exact .inl (List.mem_of_mem_erase hp)

/-- A spawn that failed on a runtime in use: the count went up and down. -/
theorem Inv.unchanged (hi : Inv s) (he : s.entry home = some e)
    (hs : Sets s s' home (some { e with refs := e.refs + 1 - 1 })) (hopened : s'.opened = s.opened)
    (hsame : Same s s') : Inv s' := by
  obtain ⟨hrefs, hpos⟩ := hi.counted home e he
  have hports : ∀ h, s'.portsOn h = s.portsOn h := fun h => by rw [portsOn, hopened, portsOn]
  refine hi.recount he hs ?_ (by rw [hports]; exact hpos) (fun h _ => hports h) (fun p hp => ?_) hsame
  · rw [Int.add_sub_cancel, hports]
    exact hrefs
  · exact .inl (hopened ▸ hp)

/-- A runtime is made for the first port. -/
theorem Inv.create (hi : Inv s) (he : s.entry home = none)
    (hs : Sets s s' home (some { rt := s.nextRt, refs := 1 })) (hopened : s'.opened = ⟨home, s.nextRt⟩ :: s.opened)
    (hnext : s'.nextRt = s.nextRt + 1) (hcloses : s'.closes = s.closes) (hunlocks : s'.unlocks = s.unlocks)
    (howned : s'.owned s.nextRt = home.isSome) (howned' : ∀ r ≠ s.nextRt, s'.owned r = s.owned r)
    (hunused : s'.memRt = none → s'.memRefs = 0) : Inv s' := by
  have hnone : s.portsOn home = 0 := by
    have hno : ¬ 0 < s.portsOn home := by rw [← hi.entry_iff, he]; exact Bool.false_ne_true
    omega
  have hports : ∀ h, s'.portsOn h = s.portsOn h + if h = home then 1 else 0 := fun h => by
    rw [portsOn, hopened, List.countP_cons, portsOn]
    by_cases hh : h = home
    · subst hh; simp
    · simp [hh, Ne.symm hh]
  -- An entry is the new one, or an old one with an older runtime.
  have hcases : ∀ h e', s'.entry h = some e' → (h = home ∧ e'.rt = s.nextRt) ∨
      (h ≠ home ∧ s.entry h = some e' ∧ e'.rt < s.nextRt) := by
    intro h e' he'
    by_cases hh : h = home
    · subst hh
      rw [hs.self] at he'
      cases he'
      exact .inl ⟨rfl, rfl⟩
    · rw [hs.other hh] at he'
      exact .inr ⟨hh, he', (hi.alive h e' he').1⟩
  refine ⟨fun h e' he' => ?_, fun h e' he' => ?_, fun h h' e1 e2 h1 h2 hr => ?_, fun p hp => ?_, fun r hr => ?_,
    fun r hr => ?_, hunused⟩
  · by_cases hh : h = home
    · subst hh
      rw [hs.self] at he'
      cases he'
      rw [hports, hnone, if_pos rfl]
      exact ⟨rfl, Nat.one_pos⟩
    · rw [hs.other hh] at he'
      rw [hports, if_neg hh]
      exact hi.counted h e' he'
  · rw [hnext, hcloses, hunlocks]
    rcases hcases h e' he' with ⟨rfl, hr⟩ | ⟨-, he', hr⟩
    · rw [hr]
      obtain ⟨hc, hu, -⟩ := hi.fresh s.nextRt (Nat.le_refl _)
      exact ⟨Nat.lt_succ_self _, hc, hu, howned⟩
    · obtain ⟨-, hc, hu, ho⟩ := hi.alive h e' he'
      exact ⟨by omega, hc, hu, (howned' _ (Nat.ne_of_lt hr)).trans ho⟩
  · rcases hcases h e1 h1 with ⟨rfl, hr1⟩ | ⟨-, h1, hr1⟩ <;> rcases hcases h' e2 h2 with ⟨rfl, hr2⟩ | ⟨-, h2, hr2⟩
    · rfl
    · omega
    · omega
    · exact hi.distinct h h' e1 e2 h1 h2 hr
  · rw [hopened] at hp
    rcases List.mem_cons.mp hp with rfl | hp
    · exact ⟨_, hs.self, rfl⟩
    · obtain ⟨e', he', hr⟩ := hi.shared p hp
      have hh : p.home ≠ home := fun hh => by rw [hh, he] at he'; cases he'
      exact ⟨e', (hs.other hh).trans he', hr⟩
  · rw [hcloses, hunlocks]
    by_cases hr' : r = s.nextRt
    · exact .inl ⟨home, _, hs.self, hr'.symm⟩
    · have hlt : r < s.nextRt := by omega
      rw [howned' r hr']
      rcases hi.ended r hlt with ⟨h, e', he', hrt⟩ | h
      · have hh : h ≠ home := fun hh => by rw [hh, he] at he'; cases he'
        exact .inl ⟨h, e', (hs.other hh).trans he', hrt⟩
      · exact .inr h
  · rw [hcloses, hunlocks, howned' r (by omega)]
    exact hi.fresh r (by omega)

theorem bump_self {f : Nat → Nat} {r : Nat} : bump f r r = f r + 1 := Function.update_self ..

theorem bump_of_ne {f : Nat → Nat} {r r' : Nat} (h : r' ≠ r) : bump f r r' = f r' := Function.update_of_ne h ..

/-- The runtime `r` is closed, its owner lock with it when it has one, and every other is left alone. -/
structure Closes (s s' : Registry Path) (r : Nat) : Prop where
  closes : s'.closes = bump s.closes r
  unlocks : s'.unlocks r = s.unlocks r + if s'.owned r then 1 else 0
  unlocks' : ∀ r' ≠ r, s'.unlocks r' = s.unlocks r'

/-- The last port goes, and the runtime with it. -/
theorem Inv.last (hi : Inv s) (he : s.entry home = some e) (hs : Sets s s' home none)
    (hopened : s'.opened = s.opened.erase ⟨home, e.rt⟩) (hone : s.portsOn home = 1) (hp : ⟨home, e.rt⟩ ∈ s.opened)
    (hc : Closes s s' e.rt) (hnext : s'.nextRt = s.nextRt) (howned : s'.owned = s.owned)
    (hunused : s'.memRt = none → s'.memRefs = 0) : Inv s' := by
  have hports : ∀ h ≠ home, s'.portsOn h = s.portsOn h := fun h hh => by
    rw [portsOn, hopened, List.countP_erase, if_neg, portsOn, Nat.sub_zero]
    rintro ⟨-, h'⟩
    exact hh (of_decide_eq_true h').symm
  have hnone : s'.portsOn home = 0 := by
    rw [portsOn, hopened, List.countP_erase, if_pos ⟨hp, decide_eq_true rfl⟩]
    rw [portsOn] at hone
    omega
  have hcases : ∀ h e', s'.entry h = some e' → h ≠ home ∧ s.entry h = some e' := by
    intro h e' he'
    by_cases hh : h = home
    · subst hh
      rw [hs.self] at he'
      cases he'
    · exact ⟨hh, (hs.other hh) ▸ he'⟩
  refine ⟨fun h e' he' => ?_, fun h e' he' => ?_, fun h h' e1 e2 h1 h2 hr => ?_, fun p hp => ?_, fun r hr => ?_,
    fun r hr => ?_, hunused⟩
  · obtain ⟨hh, he'⟩ := hcases h e' he'
    rw [hports h hh]
    exact hi.counted h e' he'
  · obtain ⟨hh, he'⟩ := hcases h e' he'
    have hne := hi.rt_ne he hh he'
    rw [hnext, hc.closes, bump_of_ne hne, hc.unlocks' _ hne, howned]
    exact hi.alive h e' he'
  · exact hi.distinct h h' e1 e2 (hcases h e1 h1).2 (hcases h' e2 h2).2 hr
  · -- Nobody is left on it.
    have hh : p.home ≠ home := fun hh => by
      have := portsOn_pos ⟨p, hp, hh⟩
      omega
    rw [hopened] at hp
    obtain ⟨e', he', hr⟩ := hi.shared p (List.mem_of_mem_erase hp)
    exact ⟨e', (hs.other hh).trans he', hr⟩
  · rw [howned]
    by_cases hr' : r = e.rt
    · subst hr'
      obtain ⟨-, h0, h1, ho⟩ := hi.alive home e he
      refine .inr ⟨by rw [hc.closes, bump_self, h0], ?_⟩
      rw [hc.unlocks, h1, howned, Nat.zero_add]
    · rw [hc.closes, bump_of_ne hr', hc.unlocks' r hr']
      rcases hi.ended r (hnext ▸ hr) with ⟨h, e', he', hrt⟩ | h
      · have hh : h ≠ home := fun hh => by
          rw [hh, he] at he'
          cases he'
          exact hr' hrt.symm
        exact .inl ⟨h, e', (hs.other hh).trans he', hrt⟩
      · exact .inr h
  · have hr' : r ≠ e.rt := by
      have := (hi.alive home e he).1
      omega
    rw [hc.closes, bump_of_ne hr', hc.unlocks' r hr', howned]
    exact hi.fresh r (hnext ▸ hr)

/-- A runtime is made and, its first spawn having failed, closed at once. -/
theorem Inv.createFails (hi : Inv s) (hs : ∀ h, s'.entry h = s.entry h) (hopened : s'.opened = s.opened)
    (hnext : s'.nextRt = s.nextRt + 1) (hc : Closes s s' s.nextRt) (howned' : ∀ r ≠ s.nextRt, s'.owned r = s.owned r)
    (hunused : s'.memRt = none → s'.memRefs = 0) : Inv s' := by
  have hports : ∀ h, s'.portsOn h = s.portsOn h := fun h => by rw [portsOn, hopened, portsOn]
  refine ⟨fun h e' he' => ?_, fun h e' he' => ?_, fun h h' e1 e2 h1 h2 hr => ?_, fun p hp => ?_, fun r hr => ?_,
    fun r hr => ?_, hunused⟩
  · rw [hports]
    exact hi.counted h e' (hs h ▸ he')
  · obtain ⟨hlt, h0, h1, ho⟩ := hi.alive h e' (hs h ▸ he')
    have hne : e'.rt ≠ s.nextRt := by omega
    rw [hnext, hc.closes, bump_of_ne hne, hc.unlocks' _ hne, howned' _ hne]
    exact ⟨by omega, h0, h1, ho⟩
  · exact hi.distinct h h' e1 e2 (hs h ▸ h1) (hs h' ▸ h2) hr
  · rw [hs]
    exact hi.shared p (hopened ▸ hp)
  · by_cases hr' : r = s.nextRt
    · subst hr'
      obtain ⟨h0, h1, -⟩ := hi.fresh s.nextRt (Nat.le_refl _)
      refine .inr ⟨by rw [hc.closes, bump_self, h0], ?_⟩
      rw [hc.unlocks, h1, Nat.zero_add]
    · have hlt : r < s.nextRt := by omega
      rw [hc.closes, bump_of_ne hr', hc.unlocks' r hr', howned' r hr']
      rcases hi.ended r hlt with ⟨h, e', he', hrt⟩ | h
      · exact .inl ⟨h, e', (hs h).trans he', hrt⟩
      · exact .inr h
  · have hr' : r ≠ s.nextRt := by omega
    rw [hc.closes, bump_of_ne hr', hc.unlocks' r hr', howned' r hr']
    exact hi.fresh r (by omega)

/-! ## The operations -/

theorem sets_insert {path : Path} {x : FileEntry} (hfiles : s'.files = s.files.insert path x)
    (hmem : s'.memRt = s.memRt ∧ s'.memRefs = s.memRefs) : Sets s s' (some path) (some x) := by
  intro h
  cases h with
  | none => rw [if_neg nofun, Registry.entry, Registry.entry, hmem.1, hmem.2]
  | some path' =>
    rw [Registry.entry, hfiles, Table.lookup_insert]
    simp only [Option.some.injEq]
    rfl

/-- An entry that is put in twice is the second one. -/
theorem sets_insert_insert {path : Path} {x y : FileEntry} (hfiles : s'.files = (s.files.insert path x).insert path y)
    (hmem : s'.memRt = s.memRt ∧ s'.memRefs = s.memRefs) : Sets s s' (some path) (some y) := by
  intro h
  cases h with
  | none => rw [if_neg nofun, Registry.entry, Registry.entry, hmem.1, hmem.2]
  | some path' =>
    rw [Registry.entry, hfiles, Table.lookup_insert]
    by_cases hp : path' = path
    · rw [if_pos hp, if_pos (congrArg some hp)]
    · rw [if_neg hp, if_neg fun h => hp (Option.some.inj h), Table.lookup_insert, if_neg hp]
      rfl

theorem sets_erase {path : Path} (hfiles : s'.files = s.files.erase path)
    (hmem : s'.memRt = s.memRt ∧ s'.memRefs = s.memRefs) : Sets s s' (some path) none := by
  intro h
  cases h with
  | none => rw [if_neg nofun, Registry.entry, Registry.entry, hmem.1, hmem.2]
  | some path' =>
    rw [Registry.entry, hfiles, Table.lookup_erase]
    simp only [Option.some.injEq]
    rfl

theorem sets_memory {x : Option FileEntry} (hfiles : s'.files = s.files) (hx : s'.entry none = x) :
    Sets s s' none x := by
  intro h
  cases h with
  | none => rw [if_pos rfl, hx]
  | some path => rw [if_neg nofun, Registry.entry, hfiles]; rfl

theorem Inv.spawnFile (hi : Inv s) {path : Path} (he : s.files.lookup path = some e) (spawned : Bool) :
    Inv (s.spawnFile path e spawned) := by
  have hent : s.entry (some path) = some e := he
  have hpos := hi.counted (some path) e hent
  cases spawned with
  | true => exact hi.join hent (sets_insert rfl ⟨rfl, rfl⟩) rfl ⟨rfl, rfl, rfl, rfl, hi.unused⟩
  | false =>
    simp only [Registry.spawnFile, Registry.releaseFile, Table.lookup_insert, if_true, Bool.false_eq_true, if_false]
    rw [if_neg (by omega)]
    exact hi.unchanged hent (sets_insert_insert rfl ⟨rfl, rfl⟩) rfl ⟨rfl, rfl, rfl, rfl, hi.unused⟩

theorem Inv.createFile (hi : Inv s) {path : Path} (he : s.files.lookup path = none) (spawned : Bool) :
    Inv (s.openFile path .returns spawned) := by
  have hent : s.entry (some path) = none := he
  have howned : ∀ r ≠ s.nextRt, Function.update s.owned s.nextRt true r = s.owned r :=
    fun r hr => Function.update_of_ne hr ..
  simp only [Registry.openFile, he]
  cases spawned with
  | true =>
    simp only [Registry.spawnFile, if_true]
    exact hi.create hent (sets_insert_insert rfl ⟨rfl, rfl⟩) rfl rfl rfl rfl (Function.update_self ..) howned hi.unused
  | false =>
    simp only [Registry.spawnFile, Registry.releaseFile, Table.lookup_insert, if_true, Bool.false_eq_true, if_false]
    rw [if_pos (by decide)]
    refine hi.createFails (fun h => ?_) rfl rfl ⟨rfl, ?_, fun r hr => bump_of_ne hr⟩ howned hi.unused
    · cases h with
      | none => rfl
      | some path' =>
        rw [Registry.entry, Table.lookup_erase]
        by_cases hp : path' = path
        · rw [if_pos hp, hp, hent]
        · rw [if_neg hp, Table.lookup_insert, if_neg hp, Table.lookup_insert, if_neg hp]
          rfl
    · show bump s.unlocks s.nextRt s.nextRt =
        s.unlocks s.nextRt + if Function.update s.owned s.nextRt true s.nextRt then 1 else 0
      rw [Function.update_self, bump_self, if_pos rfl]

theorem Inv.releaseFile (hi : Inv s) {path : Path} {p : Port Path} (hp : p ∈ s.opened) (hh : p.home = some path) :
    Inv (Registry.releaseFile { s with opened := s.opened.erase p } path) := by
  obtain ⟨e, he, hr⟩ := hi.shared p hp
  rw [hh] at he
  have hpe : p = ⟨some path, e.rt⟩ := by
    cases p
    cases hh
    cases hr
    rfl
  obtain ⟨hrefs, hpos⟩ := hi.counted (some path) e he
  have he' : s.files.lookup path = some e := he
  simp only [Registry.releaseFile, he']
  split
  · next hle =>
    have ho : s.owned e.rt = true := (hi.alive (some path) e he).2.2.2
    refine hi.last he (sets_erase rfl ⟨rfl, rfl⟩) (by rw [← hpe]) (by omega) (hpe ▸ hp)
      ⟨rfl, ?_, fun r hr => bump_of_ne hr⟩ rfl rfl hi.unused
    show bump s.unlocks e.rt e.rt = s.unlocks e.rt + if s.owned e.rt then 1 else 0
    rw [ho, bump_self, if_pos rfl]
  · next hgt =>
    exact hi.leave he (sets_insert rfl ⟨rfl, rfl⟩) (by rw [← hpe]) (hpe ▸ hp) hgt
      ⟨rfl, rfl, rfl, rfl, hi.unused⟩

theorem Inv.spawnMemory (hi : Inv s) {r : Nat} (hm : s.memRt = some r) (spawned : Bool) :
    Inv (s.spawnMemory r spawned) := by
  have hent : s.entry none = some ⟨r, s.memRefs⟩ := by rw [Registry.entry, hm]; rfl
  have hpos := hi.counted none _ hent
  have hrefs : s.memRefs = s.portsOn none := hpos.1
  have hused : ∀ n, s.memRt = none → n = (0 : Int) := fun n h => by rw [hm] at h; cases h
  cases spawned with
  | true =>
    simp only [Registry.spawnMemory, if_true]
    exact hi.join hent (sets_memory rfl (by simp only [Registry.entry, hm]; rfl)) rfl ⟨rfl, rfl, rfl, rfl, hused _⟩
  | false =>
    simp only [Registry.spawnMemory, Registry.releaseMemory, Bool.false_eq_true, if_false]
    rw [if_neg (by omega)]
    exact hi.unchanged hent (sets_memory rfl (by simp only [Registry.entry, hm]; rfl)) rfl
      ⟨rfl, rfl, rfl, rfl, hused _⟩

theorem Inv.createMemory (hi : Inv s) (hm : s.memRt = none) (spawned : Bool) :
    Inv (s.openMemory true spawned) := by
  have hent : s.entry none = none := by rw [Registry.entry, hm]; rfl
  have hzero := hi.unused hm
  have hbare := (hi.fresh s.nextRt (Nat.le_refl _)).2.2
  simp only [Registry.openMemory, hm, if_true]
  cases spawned with
  | true =>
    simp only [Registry.spawnMemory, if_true, hzero]
    exact hi.create hent (sets_memory rfl rfl) rfl rfl rfl rfl hbare (fun _ _ => rfl) nofun
  | false =>
    simp only [Registry.spawnMemory, Registry.releaseMemory, Bool.false_eq_true, if_false, hzero]
    rw [if_pos (by decide)]
    refine hi.createFails (fun h => ?_) rfl rfl ⟨rfl, ?_, fun _ _ => rfl⟩ (fun _ _ => rfl) (fun _ => rfl)
    · cases h with
      | none => exact hent.symm
      | some path => rfl
    · rw [show s.owned s.nextRt = false from hbare]
      rfl

theorem Inv.releaseMemory (hi : Inv s) {p : Port Path} (hp : p ∈ s.opened) (hh : p.home = none) :
    Inv (Registry.releaseMemory { s with opened := s.opened.erase p }) := by
  obtain ⟨e, he, hr⟩ := hi.shared p hp
  rw [hh] at he
  have hpe : p = ⟨none, e.rt⟩ := by
    cases p
    cases hh
    cases hr
    rfl
  obtain ⟨r, hm, hre⟩ := Option.map_eq_some_iff.mp he
  obtain ⟨hrefs, hpos⟩ := hi.counted none e he
  have hmem : s.memRefs = s.portsOn none := by rw [← hrefs, ← hre]
  have hrt : e.rt = r := by rw [← hre]
  simp only [Registry.releaseMemory, hm]
  split
  · next hle =>
    have ho : s.owned e.rt = false := (hi.alive none e he).2.2.2
    have hle : s.memRefs - 1 ≤ 0 := hle
    refine hi.last he (sets_memory rfl rfl) (by rw [← hpe]) (by omega) (hpe ▸ hp) ⟨?_, ?_, fun _ _ => rfl⟩ rfl rfl
      (fun _ => ?_)
    · rw [hrt]
    · rw [show s.owned e.rt = false from ho]
      rfl
    · show s.memRefs - 1 = 0
      omega
  · next hgt =>
    have hgt : ¬ s.memRefs - 1 ≤ 0 := hgt
    refine hi.leave he (sets_memory rfl ?_) (by rw [← hpe]) (hpe ▸ hp) (by rw [← hre]; exact hgt)
      ⟨rfl, rfl, rfl, rfl, nofun⟩
    rw [← hre]
    rfl

/-! ## Runs -/

theorem Inv.step (hi : Inv s) {l : Label Path} (hok : NoneBehind s l) (h : step s l = some s') : Inv s' := by
  cases l with
  | openFile path creation spawned =>
    cases h
    cases he : s.files.lookup path with
    | some e =>
      simp only [Registry.openFile, he]
      exact hi.spawnFile he spawned
    | none =>
      cases creation with
      | returns => exact hi.createFile he spawned
      | throwsBefore =>
        simp only [Registry.openFile, he]
        exact hi
      | throwsBehind =>
        simp only [NoneBehind, he] at hok
        cases hok
  | openMemory created spawned =>
    cases h
    cases hm : s.memRt with
    | some r =>
      simp only [Registry.openMemory, hm]
      exact hi.spawnMemory hm spawned
    | none =>
      cases created with
      | true => exact hi.createMemory hm spawned
      | false =>
        simp only [Registry.openMemory, hm]
        exact hi
  | release port =>
    simp only [WorkerDbRuntimes.step, Option.ite_none_right_eq_some] at h
    obtain ⟨hp, h⟩ := h
    cases hh : port.home with
    | some path =>
      simp only [hh, Option.some.injEq] at h
      exact h ▸ hi.releaseFile hp hh
    | none =>
      simp only [hh, Option.some.injEq] at h
      exact h ▸ hi.releaseMemory hp hh

/-- A runtime that `openRuntime` has left behind is closed by nobody. -/
theorem Inv.noneBehind (hi : Inv s) {l : Label Path} (h : ∀ s', WorkerDbRuntimes.step s l = some s' → Accurate s') :
    NoneBehind s l := by
  cases l with
  | openFile path creation spawned =>
    cases creation with
    | returns => trivial
    | throwsBefore => trivial
    | throwsBehind =>
      cases he : s.files.lookup path with
      | some e => simp only [NoneBehind, he]; rfl
      | none =>
        have hacc := h _ rfl
        simp only [Registry.openFile, he] at hacc
        have hclosed := (hacc.ended s.nextRt (Nat.lt_succ_self _) fun p hp => ?_).1
        · have hopen : s.closes s.nextRt = 0 := (hi.fresh s.nextRt (Nat.le_refl _)).1
          have hclosed : s.closes s.nextRt = 1 := hclosed
          omega
        · obtain ⟨e, he, hr⟩ := hi.shared p hp
          have := (hi.alive p.home e he).1
          omega
  | openMemory created spawned => trivial
  | release port => trivial

/-- **The registry is accurate in every state of a run, and closes each runtime
once, exactly when no `openRuntime` throws behind its runtime's constructor.** -/
theorem registry_accurate_iff (labels : List (Label Path)) :
    EveryState step Accurate {} labels ↔ EveryStep step NoneBehind {} labels :=
  ⟨everyStep_of_everyState (fun _ _ _ hi ho h => Inv.step hi ho h) (fun _ _ hi h => hi.noneBehind h) inv_start,
    everyState_of_invariant (fun _ _ _ hi ho h => Inv.step hi ho h) (fun _ hi => hi.accurate) inv_start⟩

/-- `openDb` throws, on a path that cannot be opened for one: its runtime is not closed. -/
theorem registry_leak : ¬ ∀ labels : List (Label String), EveryState step Accurate {} labels := by
  intro h
  have hacc := ((h [.openFile "a.db" .throwsBehind false]).2 _ rfl).head
  have hclosed := (hacc.ended 0 Nat.one_pos nofun).1
  cases hclosed

end WorkerDbRuntimes

end Sqlol
