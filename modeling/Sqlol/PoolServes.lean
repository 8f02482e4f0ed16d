/-
The calls of a `SqliteWalPool` do not meet: a channel has one call at a time, a writer
is alone, and what a call returns is what the worker's runs of its own statement came
to. Nobody waits for ever either: while a call is unfinished some thread or worker of
the pool can move.

The pool adds no reasoning about words and wake-ups. What it gives a channel is one
driver (`Lent`), so that each channel runs by the rules of `WorkerChannel`, and what
the channel gives the call is `Inv`.
-/
import Sqlol.WalPool
import Mathlib.Data.List.Perm.Subperm

namespace Sqlol

open WorkerChannel (Channel Text Reply)

namespace SqliteWalPool

/-- The lock is held by the calls that say so. -/
structure Locked (p : Pool) : Prop where
  writer : ∀ t, (p.pc t).locks = some .exec ↔ p.writer = some t
  readers : ∀ t, (p.pc t).locks = some .query ↔ t ∈ p.readers
  once : p.readers.Nodup
  alone : p.writer ≠ none → p.readers = []

/-- A channel is in the queue, or with one call, or lost. -/
structure Lent (p : Pool) : Prop where
  once : p.idle.Nodup
  known : ∀ ch ∈ p.idle, ch ∈ p.channels
  free : ∀ ch ∈ p.idle, ∀ t, (p.pc t).holds ≠ some ch
  owned : ∀ t ch, (p.pc t).holds = some ch → ch ∈ p.channels
  one : ∀ t u ch, (p.pc t).holds = some ch → (p.pc u).holds = some ch → t = u

/-- The channel is in `submit` of this statement, or has come back from it. -/
def Serving (s : Channel) (sql : Text) : Prop :=
  match s.driver with
  | .inCall sql' _ _ => sql' = sql
  | .returned (some r) => ∃ calls tries, s.calls = calls ++ [(sql, tries ++ [r])]
  | .returned none => True
  | .idle => False

/-- Whoever drives a channel is the call that borrowed it. -/
structure Driven (p : Pool) : Prop where
  inv : ∀ ch ∈ p.channels, WorkerChannel.Inv (p.chan ch)
  out : ∀ ch ∈ p.channels, (∀ t kind sql, p.pc t ≠ .driving kind sql ch) → (p.chan ch).driver = .idle
  serving : ∀ t kind sql ch, p.pc t = .driving kind sql ch → Serving (p.chan ch) sql

/-- What holds of the pool in every run: who holds the lock, has a channel and drives it. -/
structure Inv (p : Pool) : Prop where
  locked : Locked p
  lent : Lent p
  driven : Driven p

/-! ## One channel -/

section
variable {atoll : Text → Int} {s s' : Channel} {sql : Text} {l : WorkerChannel.Label}

/-- A step that is not the driver's own leaves it where it is. -/
theorem driver_of_step (h : WorkerChannel.step atoll s l = some s')
    (hl : l = .worker ∨ (∃ rows rc, l = .exec rows rc) ∨ l = .stop ∨ l = .stopWake ∨ l = .timeout) :
    s'.driver = s.driver ∧ s'.calls = s.calls := by
  rcases hl with rfl | ⟨rows, rc, rfl⟩ | rfl | rfl | rfl
  · obtain ⟨f, w, c, rfl⟩ := WorkerChannel.work_eq h
    exact ⟨rfl, rfl⟩
  · simp only [WorkerChannel.step] at h
    split at h <;> cases h
    exact ⟨rfl, rfl⟩
  · cases h
    exact ⟨rfl, rfl⟩
  · simp only [WorkerChannel.step] at h
    split at h <;> cases h
    exact ⟨rfl, rfl⟩
  · simp only [WorkerChannel.step] at h
    split at h <;> cases h
    exact ⟨rfl, rfl⟩

theorem Serving.of_eq (hs : Serving s sql) (hd : s'.driver = s.driver) (hc : s'.calls = s.calls) : Serving s' sql := by
  simp only [Serving, hd, hc] at hs ⊢
  exact hs

theorem serving_submit (h : WorkerChannel.step atoll s (.submit sql) = some s') : Serving s' sql := by
  simp only [WorkerChannel.step] at h
  split at h
  · split at h <;> cases h
    · exact rfl
    · exact trivial
  · cases h

theorem serving_driver (hs : Serving s sql) (h : WorkerChannel.step atoll s .driver = some s') : Serving s' sql := by
  simp only [WorkerChannel.step] at h
  cases hd : s.driver with
  | idle | returned => rw [hd] at h; cases h
  | inCall sql' tries pc =>
    simp only [Serving, hd] at hs
    subst hs
    simp only [hd] at h
    cases pc with
    | parked seen =>
      simp only [Channel.drive] at h
      split at h <;> cases h
      exact rfl
    | collect =>
      cases h
      simp only [Channel.collect]
      split
      · exact rfl
      · exact ⟨s.calls, tries, rfl⟩
    | write | readDone | post | wake | check | deadline | wait | pause =>
      cases h
      exact rfl

theorem idle_of_leave (h : WorkerChannel.step atoll s .leave = some s') : s'.driver = .idle := by
  simp only [WorkerChannel.step] at h
  split at h <;> cases h
  rfl

end

/-! ## One thread -/

section
variable {p : Pool} {t : Nat} {pc : Pc}

@[simp] theorem goto_pc_self : (p.goto t pc).pc t = pc := Function.update_self ..

theorem goto_pc_ne {u : Nat} (h : u ≠ t) : (p.goto t pc).pc u = p.pc u := Function.update_of_ne h ..

/-- A property of the threads' places that the new place has too. -/
theorem goto_congr {β : Type*} (f : Pc → β) (h : f pc = f (p.pc t)) (u : Nat) :
    f ((p.goto t pc).pc u) = f (p.pc u) := by
  by_cases hu : u = t
  · rw [hu, goto_pc_self, h]
  · rw [goto_pc_ne hu]

theorem Locked.goto (h : Locked p) (hl : pc.locks = (p.pc t).locks) : Locked (p.goto t pc) := by
  have hsame := goto_congr Pc.locks hl
  exact ⟨fun u => by rw [hsame]; exact h.writer u, fun u => by rw [hsame]; exact h.readers u, h.once, h.alone⟩

theorem Lent.goto (h : Lent p) (hl : pc.holds = (p.pc t).holds) : Lent (p.goto t pc) := by
  have hsame := goto_congr Pc.holds hl
  refine ⟨h.once, h.known, fun ch hch u => ?_, fun u ch hu => ?_, fun u v ch hu hv => ?_⟩
  · rw [hsame]
    exact h.free ch hch u
  · rw [hsame] at hu
    exact h.owned u ch hu
  · rw [hsame] at hu hv
    exact h.one u v ch hu hv

/-- Between two places that drive nothing. -/
theorem Driven.goto (h : Driven p) (hold : ∀ kind sql ch, p.pc t ≠ .driving kind sql ch)
    (hnew : ∀ kind sql ch, pc ≠ .driving kind sql ch) : Driven (p.goto t pc) := by
  refine ⟨h.inv, fun ch hch hno => h.out ch hch fun u kind sql => ?_, fun u kind sql ch hu => ?_⟩
  · by_cases hut : u = t
    · rw [hut]
      exact hold kind sql ch
    · have := hno u kind sql
      rwa [goto_pc_ne hut] at this
  · by_cases hut : u = t
    · rw [hut, goto_pc_self] at hu
      exact absurd hu (hnew kind sql ch)
    · rw [goto_pc_ne hut] at hu
      exact h.serving u kind sql ch hu

theorem Locked.acquire_exec (h : Locked p) (hpc : (p.pc t).locks = none) (hl : pc.locks = some .exec)
    (hw : p.writer = none) (hr : p.readers = []) : Locked { p.goto t pc with writer := some t } := by
  refine ⟨fun u => ?_, fun u => ?_, h.once, fun _ => hr⟩
  · by_cases hu : u = t
    · subst hu
      simp [hl]
    · have := h.writer u
      rw [hw] at this
      simp only [goto_pc_ne hu, this, Option.some.injEq, Ne.symm hu, reduceCtorEq]
  · by_cases hu : u = t
    · subst hu
      have := (h.readers u).not.mp (by rw [hpc]; exact nofun)
      simp only [goto_pc_self, hl, Option.some.injEq, reduceCtorEq, false_iff]
      exact this
    · simp only [goto_pc_ne hu]
      exact h.readers u

theorem Locked.acquire_query (h : Locked p) (hpc : (p.pc t).locks = none) (hl : pc.locks = some .query)
    (hw : p.writer = none) : Locked { p.goto t pc with readers := t :: p.readers } := by
  have hnot : t ∉ p.readers := (h.readers t).not.mp (by rw [hpc]; exact nofun)
  refine ⟨fun u => ?_, fun u => ?_, List.nodup_cons.mpr ⟨hnot, h.once⟩, fun hne => absurd hw hne⟩
  · by_cases hu : u = t
    · subst hu
      have := (h.writer u).not.mp (by rw [hpc]; exact nofun)
      simp only [goto_pc_self, hl, Option.some.injEq, reduceCtorEq, false_iff]
      exact this
    · simp only [goto_pc_ne hu]
      exact h.writer u
  · by_cases hu : u = t
    · subst hu
      simp [hl]
    · simp only [goto_pc_ne hu, List.mem_cons, hu, false_or]
      exact h.readers u

theorem Locked.release (h : Locked p) {kind : Kind} (hpc : (p.pc t).locks = some kind) (hl : pc.locks = none) :
    Locked ((p.goto t pc).release t kind) := by
  cases kind with
  | exec =>
    have hw : p.writer = some t := (h.writer t).mp hpc
    refine ⟨fun u => ?_, fun u => ?_, h.once, fun hne => absurd rfl hne⟩
    · by_cases hu : u = t
      · subst hu
        simp [Pool.release, hl]
      · have := h.writer u
        rw [hw] at this
        simp only [Pool.release, goto_pc_ne hu, this, Option.some.injEq, Ne.symm hu, reduceCtorEq]
    · by_cases hu : u = t
      · subst hu
        have := (h.readers u).not.mp (by rw [hpc]; exact nofun)
        simp only [Pool.release, goto_pc_self, hl, reduceCtorEq, false_iff]
        exact this
      · simp only [Pool.release, goto_pc_ne hu]
        exact h.readers u
  | query =>
    refine ⟨fun u => ?_, fun u => ?_, h.once.erase t, fun hne => ?_⟩
    · by_cases hu : u = t
      · subst hu
        have := (h.writer u).not.mp (by rw [hpc]; exact nofun)
        simp only [Pool.release, goto_pc_self, hl, reduceCtorEq, false_iff]
        exact this
      · simp only [Pool.release, goto_pc_ne hu]
        exact h.writer u
    · by_cases hu : u = t
      · subst hu
        simp only [Pool.release, goto_pc_self, hl, reduceCtorEq, false_iff]
        exact fun hmem => (h.once.mem_erase_iff.mp hmem).1 rfl
      · simp only [Pool.release, goto_pc_ne hu, List.mem_erase_of_ne hu]
        exact h.readers u
    · have hnil : (p.goto t pc).readers = [] := h.alone hne
      simp only [Pool.release, hnil, List.erase_nil]

/-- Take the channel that has waited longest. -/
theorem Lent.take (h : Lent p) (hpc : (p.pc t).holds = none) {ch : Nat} {idle : List Nat} (hi : p.idle = ch :: idle)
    (hl : pc.holds = some ch) : Lent { p.goto t pc with idle := idle } := by
  have hmem : ch ∈ p.idle := by rw [hi]; exact List.mem_cons_self
  have hsub : ∀ c ∈ idle, c ∈ p.idle := fun c hc => by rw [hi]; exact List.mem_cons_of_mem _ hc
  obtain ⟨hnot, hnodup⟩ := List.nodup_cons.mp (hi ▸ h.once)
  refine ⟨hnodup, fun c hc => h.known c (hsub c hc), fun c hc u hu => ?_, fun u c hu => ?_, fun u v c hu hv => ?_⟩
  · by_cases hut : u = t
    · subst hut
      simp only [goto_pc_self, hl, Option.some.injEq] at hu
      exact hnot (hu ▸ hc)
    · simp only [goto_pc_ne hut] at hu
      exact h.free c (hsub c hc) u hu
  · by_cases hut : u = t
    · subst hut
      simp only [goto_pc_self, hl, Option.some.injEq] at hu
      exact hu ▸ h.known ch hmem
    · simp only [goto_pc_ne hut] at hu
      exact h.owned u c hu
  · by_cases hut : u = t <;> by_cases hvt : v = t
    · rw [hut, hvt]
    · subst hut
      simp only [goto_pc_self, hl, Option.some.injEq] at hu
      simp only [goto_pc_ne hvt] at hv
      exact absurd (hu ▸ hv) (h.free ch hmem v)
    · subst hvt
      simp only [goto_pc_self, hl, Option.some.injEq] at hv
      simp only [goto_pc_ne hut] at hu
      exact absurd (hv ▸ hu) (h.free ch hmem u)
    · simp only [goto_pc_ne hut] at hu
      simp only [goto_pc_ne hvt] at hv
      exact h.one u v c hu hv

/-- Give the channel up, to nobody. -/
theorem Lent.lose (h : Lent p) (hl : pc.holds = none) : Lent (p.goto t pc) := by
  have hold : ∀ u c, ((p.goto t pc).pc u).holds = some c → u ≠ t ∧ (p.pc u).holds = some c := by
    intro u c hu
    by_cases hut : u = t
    · subst hut
      rw [goto_pc_self, hl] at hu
      cases hu
    · rw [goto_pc_ne hut] at hu
      exact ⟨hut, hu⟩
  exact ⟨h.once, h.known, fun c hc u hu => h.free c hc u (hold u c hu).2, fun u c hu => h.owned u c (hold u c hu).2,
    fun u v c hu hv => h.one u v c (hold u c hu).2 (hold v c hv).2⟩

theorem Lent.put (h : Lent p) {ch : Nat} (hpc : (p.pc t).holds = some ch) (hl : pc.holds = none) :
    Lent { p.goto t pc with idle := p.idle ++ [ch] } := by
  have hlose := h.lose (t := t) hl
  have hnot : ch ∉ p.idle := fun hmem => h.free ch hmem t hpc
  refine ⟨?_, fun c hc => ?_, fun c hc u hu => ?_, hlose.owned, hlose.one⟩
  · rw [List.nodup_append]
    refine ⟨h.once, by simp, fun c hc d hd heq => ?_⟩
    rw [List.mem_singleton.mp hd] at heq
    exact hnot (heq ▸ hc)
  · rcases List.mem_append.mp hc with hc | hc
    · exact h.known c hc
    · rw [List.mem_singleton.mp hc]
      exact h.owned t ch hpc
  · rcases List.mem_append.mp hc with hc | hc
    · exact hlose.free c hc u hu
    · rw [List.mem_singleton.mp hc] at hu
      by_cases hut : u = t
      · subst hut
        simp only [goto_pc_self, hl, reduceCtorEq] at hu
      · simp only [goto_pc_ne hut] at hu
        exact hut (h.one u t ch hu hpc)

end

/-! ## A step of a channel -/

section
variable {atoll : Text → Int} {p p' : Pool} {t ch : Nat} {l : WorkerChannel.Label}

theorem act_eq (h : p.act atoll ch l = some p') :
    ∃ s, WorkerChannel.step atoll (p.chan ch) l = some s ∧ p' = { p with chan := Function.update p.chan ch s } := by
  simp only [Pool.act, Option.map_eq_some_iff] at h
  obtain ⟨s, hs, rfl⟩ := h
  exact ⟨s, hs, rfl⟩

/-- A step of a channel that its call, if it has one, knows how to take. -/
theorem Driven.act (h : Driven p) (hok : WorkerChannel.Careful (p.chan ch) l) (ha : p.act atoll ch l = some p')
    (hout : ∀ s, WorkerChannel.step atoll (p.chan ch) l = some s → (p.chan ch).driver = .idle → s.driver = .idle)
    (hserving : ∀ s sql, WorkerChannel.step atoll (p.chan ch) l = some s → Serving (p.chan ch) sql → Serving s sql) :
    Driven p' := by
  obtain ⟨s, hs, rfl⟩ := act_eq ha
  refine ⟨fun c hc => ?_, fun c hc hno => ?_, fun u kind sql c hu => ?_⟩
  · by_cases hch : c = ch
    · subst hch
      simp only [Function.update_self]
      exact WorkerChannel.inv_step atoll (h.inv c hc) hok hs
    · simp only [Function.update_of_ne hch]
      exact h.inv c hc
  · have hidle := h.out c hc hno
    by_cases hch : c = ch
    · subst hch
      simp only [Function.update_self]
      exact hout s hs hidle
    · simp only [Function.update_of_ne hch]
      exact hidle
  · have hold := h.serving u kind sql c hu
    by_cases hch : c = ch
    · subst hch
      simp only [Function.update_self]
      exact hserving s sql hs hold
    · simp only [Function.update_of_ne hch]
      exact hold

/-- A step that no driver takes: of the worker, of `close`, of the clock. -/
theorem Driven.act_other (h : Driven p) (hok : WorkerChannel.Careful (p.chan ch) l) (ha : p.act atoll ch l = some p')
    (hl : l = .worker ∨ (∃ rows rc, l = .exec rows rc) ∨ l = .stop ∨ l = .stopWake ∨ l = .timeout) : Driven p' :=
  h.act hok ha (fun _ hs hidle => (driver_of_step hs hl).1.trans hidle) fun _ _ hs hserving =>
    hserving.of_eq (driver_of_step hs hl).1 (driver_of_step hs hl).2

theorem Locked.act (h : Locked p) (ha : p.act atoll ch l = some p') : Locked p' := by
  obtain ⟨s, -, rfl⟩ := act_eq ha
  exact ⟨h.writer, h.readers, h.once, h.alone⟩

theorem Lent.act (h : Lent p) (ha : p.act atoll ch l = some p') : Lent p' := by
  obtain ⟨s, -, rfl⟩ := act_eq ha
  exact ⟨h.once, h.known, h.free, h.owned, h.one⟩

/-- The call that holds a channel goes on with it, and the channel with the call. -/
theorem Driven.move (h : Driven p) (hlent : Lent p) {pc : Pc} (hold : (p.pc t).holds = some ch)
    (hnew : pc.holds = some ch)
    (hok : WorkerChannel.Careful (p.chan ch) l) (ha : (p.goto t pc).act atoll ch l = some p')
    (hserving : ∀ s kind sql, WorkerChannel.step atoll (p.chan ch) l = some s →
      pc = .driving kind sql ch → Serving s sql)
    (hout : ∀ s, WorkerChannel.step atoll (p.chan ch) l = some s → (∀ kind sql, pc ≠ .driving kind sql ch) →
      s.driver = .idle) : Driven p' := by
  obtain ⟨s, hs, rfl⟩ := act_eq ha
  refine ⟨fun c hc => ?_, fun c hc hno => ?_, fun u kind sql c hu => ?_⟩
  · by_cases hch : c = ch
    · subst hch
      simp only [Function.update_self]
      exact WorkerChannel.inv_step atoll (l := l) (h.inv c hc) hok hs
    · simp only [Function.update_of_ne hch]
      exact h.inv c hc
  · by_cases hch : c = ch
    · subst hch
      simp only [Function.update_self]
      refine hout s hs fun kind sql hpc => hno t kind sql ?_
      rw [goto_pc_self, hpc]
    · simp only [Function.update_of_ne hch]
      refine h.out c hc fun u kind sql hu => ?_
      by_cases hut : u = t
      · rw [← hut, hu] at hold
        exact hch (Option.some.inj hold)
      · exact hno u kind sql (by simpa only [goto_pc_ne hut] using hu)
  · by_cases hut : u = t
    · subst hut
      simp only [goto_pc_self] at hu
      rw [hu] at hnew
      obtain rfl : c = ch := Option.some.inj hnew
      simp only [Function.update_self]
      exact hserving s kind sql hs hu
    · simp only [goto_pc_ne hut] at hu
      have hch : c ≠ ch := by
        rintro rfl
        exact hut (hlent.one u t c (by rw [hu]; rfl) hold)
      simp only [Function.update_of_ne hch]
      exact h.serving u kind sql c hu

end

/-! ## Every step -/

theorem inv_opened {channels : List Nat} {chan : Nat → Channel} (hnodup : channels.Nodup)
    (hchan : ∀ ch ∈ channels, WorkerChannel.Inv (chan ch) ∧ (chan ch).driver = .idle) : Inv (opened channels chan) where
  locked := ⟨fun _ => ⟨nofun, nofun⟩, fun _ => ⟨nofun, nofun⟩, .nil, fun h => absurd rfl h⟩
  lent := ⟨hnodup, fun _ h => h, nofun, nofun, nofun⟩
  driven := ⟨fun ch hch => (hchan ch hch).1, fun ch hch _ => (hchan ch hch).2, nofun⟩

theorem inv_step {atoll : Text → Int} {p p' : Pool} {l : Label} (hs : Inv p) (hok : Careful p l)
    (h : step atoll p l = some p') : Inv p' := by
  obtain ⟨hlocked, hlent, hdriven⟩ := hs
  cases l with
  | call t kind sql =>
    simp only [step] at h
    split at h
    · next hpc =>
      cases h
      exact ⟨hlocked.goto (by rw [hpc]; rfl), hlent.goto (by rw [hpc]; rfl),
        hdriven.goto (by rw [hpc]; exact nofun) nofun⟩
    · cases h
  | lock t =>
    simp only [step] at h
    split at h
    · next sql hpc =>
      split at h <;> cases h
      next hfree =>
      have hmove : Driven (p.goto t (.take .exec sql)) := hdriven.goto (by rw [hpc]; exact nofun) nofun
      have hlend : Lent (p.goto t (.take .exec sql)) := hlent.goto (by rw [hpc]; rfl)
      exact ⟨hlocked.acquire_exec (by rw [hpc]; rfl) rfl hfree.1 hfree.2,
        ⟨hlend.once, hlend.known, hlend.free, hlend.owned, hlend.one⟩, ⟨hmove.inv, hmove.out, hmove.serving⟩⟩
    · next sql hpc =>
      split at h <;> cases h
      next hfree =>
      have hmove : Driven (p.goto t (.take .query sql)) := hdriven.goto (by rw [hpc]; exact nofun) nofun
      have hlend : Lent (p.goto t (.take .query sql)) := hlent.goto (by rw [hpc]; rfl)
      exact ⟨hlocked.acquire_query (by rw [hpc]; rfl) rfl hfree,
        ⟨hlend.once, hlend.known, hlend.free, hlend.owned, hlend.one⟩, ⟨hmove.inv, hmove.out, hmove.serving⟩⟩
    · cases h
  | take t =>
    simp only [step] at h
    split at h
    · next kind sql ch idle hpc hidle =>
      cases h
      have hmove : Driven (p.goto t (.borrowed kind sql ch)) := hdriven.goto (by rw [hpc]; exact nofun) nofun
      have hlock : Locked (p.goto t (.borrowed kind sql ch)) := hlocked.goto (by rw [hpc]; rfl)
      exact ⟨⟨hlock.writer, hlock.readers, hlock.once, hlock.alone⟩, hlent.take (by rw [hpc]; rfl) hidle rfl,
        ⟨hmove.inv, hmove.out, hmove.serving⟩⟩
    · cases h
  | takeThrows t =>
    simp only [step] at h
    split at h
    · next hpc =>
      cases h
      exact ⟨hlocked.goto (by rw [hpc]; rfl), hlent.goto (by rw [hpc]; rfl),
        hdriven.goto (by rw [hpc]; exact nofun) nofun⟩
    · cases h
  | submit t =>
    simp only [step] at h
    split at h
    · next kind sql ch hpc =>
      have hholds : (p.pc t).holds = some ch := by rw [hpc]; rfl
      refine ⟨(hlocked.goto (by rw [hpc]; rfl)).act h, (hlent.goto (by rw [hpc]; rfl)).act h,
        hdriven.move (l := .submit sql) hlent hholds rfl (hok ch hholds) h (fun s kind' sql' hs hpc' => ?_)
          fun s hs hno => ?_⟩
      · cases hpc'
        exact serving_submit hs
      · exact absurd rfl (hno kind sql)
    · cases h
  | drive t =>
    simp only [step] at h
    split at h
    · refine ⟨hlocked.act h, hlent.act h, hdriven.act (l := .driver) trivial h (fun s hs hidle => ?_)
        fun s sql hs hserving => ?_⟩
      · simp only [WorkerChannel.step, hidle] at hs
        cases hs
      · exact serving_driver hserving hs
    · cases h
  | timeout t =>
    simp only [step] at h
    split at h
    · exact ⟨hlocked.act h, hlent.act h, hdriven.act_other (l := .timeout) trivial h (by simp)⟩
    · cases h
  | giveUp t => exact hok.elim
  | leave t =>
    simp only [step] at h
    split at h
    · next kind sql ch hpc =>
      have hholds : (p.pc t).holds = some ch := by rw [hpc]; rfl
      exact ⟨(hlocked.goto (by rw [hpc]; rfl)).act h, (hlent.goto (by rw [hpc]; rfl)).act h,
        hdriven.move (l := .leave) hlent hholds rfl trivial h (by rintro _ _ _ _ ⟨⟩)
          fun s hs _ => idle_of_leave hs⟩
    · cases h
  | put t =>
    simp only [step] at h
    split at h
    · next kind ch hpc =>
      split at h <;> cases h
      have hmove : Driven (p.goto t (.unlock kind)) := hdriven.goto (by rw [hpc]; rintro _ _ _ ⟨⟩) nofun
      have hlock : Locked (p.goto t (.unlock kind)) := hlocked.goto (by rw [hpc]; rfl)
      exact ⟨⟨hlock.writer, hlock.readers, hlock.once, hlock.alone⟩, hlent.put (by rw [hpc]; rfl) rfl,
        ⟨hmove.inv, hmove.out, hmove.serving⟩⟩
    · cases h
  | putThrows t =>
    simp only [step] at h
    split at h
    · next kind ch hpc =>
      cases h
      exact ⟨hlocked.goto (by rw [hpc]; rfl), hlent.lose rfl,
        hdriven.goto (by rw [hpc]; rintro _ _ _ ⟨⟩) nofun⟩
    · cases h
  | unlock t =>
    simp only [step] at h
    split at h
    · next kind hpc =>
      cases h
      have hmove : Driven (p.goto t .out) := hdriven.goto (by rw [hpc]; exact nofun) nofun
      have hlend : Lent (p.goto t .out) := hlent.goto (by rw [hpc]; rfl)
      refine ⟨hlocked.release (by rw [hpc]; rfl) rfl, ?_, ?_⟩
      · cases kind <;> exact ⟨hlend.once, hlend.known, hlend.free, hlend.owned, hlend.one⟩
      · cases kind <;> exact ⟨hmove.inv, hmove.out, hmove.serving⟩
    · cases h
  | worker ch => exact ⟨hlocked.act h, hlent.act h, hdriven.act_other (l := .worker) trivial h (by simp)⟩
  | exec ch rows rc => exact ⟨hlocked.act h, hlent.act h, hdriven.act_other (l := .exec rows rc) trivial h (by simp)⟩
  | stop ch =>
    simp only [step] at h
    split at h
    · exact ⟨hlocked.act h, hlent.act h, hdriven.act_other (l := .stop) hok h (by simp)⟩
    · cases h
  | stopWake ch => exact ⟨hlocked.act h, hlent.act h, hdriven.act_other (l := .stopWake) trivial h (by simp)⟩

/-! ## What the calls get -/

/-- The channel of a spawned worker, between two statements. -/
def Warm (atoll : Text → Int) (s : Channel) : Prop :=
  ∃ ls, EveryStep (WorkerChannel.step atoll) WorkerChannel.Careful {} ls ∧
    run (WorkerChannel.step atoll) {} ls = some s ∧
    s.driver = .idle

/-- A channel has one call; a writer is alone, with its worker too; and a submission
returns the last of the worker's runs of its statement. -/
structure Serves (p : Pool) : Prop where
  one : ∀ t u ch, (p.pc t).holds = some ch → (p.pc u).holds = some ch → t = u
  alone : ∀ t sql ch, p.pc t = .driving .exec sql ch → ∀ ch' ∈ p.channels, ch' ≠ ch →
    (p.chan ch').driver = .idle ∧ (p.chan ch').worker ≠ .zero ∧ (p.chan ch').worker ≠ .exec
  own : ∀ t kind sql ch r, p.pc t = .driving kind sql ch → (p.chan ch).driver = .returned (some r) →
    ∃ past rs, (p.chan ch).executed = past ++ (rs ++ [r]).map (fun r => (WorkerChannel.cString sql, r)) ∧
      WorkerChannel.Tried (rs ++ [r])

/-- A call that drives a channel while a writer does is the writer. -/
theorem Locked.eq_of_exec {p : Pool} (h : Locked p) {t u : Nat} {kind : Kind} (ht : (p.pc t).locks = some .exec)
    (hu : (p.pc u).locks = some kind) : u = t := by
  have hw := (h.writer t).mp ht
  cases kind with
  | exec => exact Option.some.inj (((h.writer u).mp hu).symm.trans hw)
  | query =>
    have hmem := (h.readers u).mp hu
    rw [h.alone (by rw [hw]; exact nofun)] at hmem
    cases hmem

theorem Inv.serves {p : Pool} (hs : Inv p) : Serves p := by
  refine ⟨hs.lent.one, fun t sql ch hpc ch' hch' hne => ?_, fun t kind sql ch r hpc hret => ?_⟩
  · have hidle := hs.driven.out ch' hch' fun u kind sql' hu => ?_
    · have hagree := (hs.driven.inv ch' hch').agree
      rw [hidle] at hagree
      obtain ⟨prevDone, hp⟩ := hagree
      exact ⟨hidle, hp.2.2.1.idle⟩
    · have hut := hs.locked.eq_of_exec (by rw [hpc]; rfl) (show (p.pc u).locks = some kind by rw [hu]; rfl)
      subst hut
      cases hpc.symm.trans hu
      exact hne rfl
  · have hinv := hs.driven.inv ch (hs.lent.owned t ch (by rw [hpc]; rfl))
    have hserving := hs.driven.serving t kind sql ch hpc
    have hagree := hinv.agree
    rw [hret] at hagree
    simp only [Serving, hret] at hserving
    obtain ⟨prevDone, -, -, -, hexec, -⟩ := hagree
    obtain ⟨calls, tries, hcalls⟩ := hserving
    refine ⟨calls.flatMap fun call => call.2.map fun r => (WorkerChannel.cString call.1, r), tries, ?_, ?_⟩
    · rw [hexec]
      simp [Channel.collected, hret, hcalls]
    · exact hinv.returns.calls (sql, tries ++ [r]) (by rw [hcalls]; simp)

theorem inv_warm {atoll : Text → Int} {channels : List Nat} {chan : Nat → Channel} (hnodup : channels.Nodup)
    (hwarm : ∀ ch ∈ channels, Warm atoll (chan ch)) : Inv (opened channels chan) := by
  refine inv_opened hnodup fun ch hch => ?_
  obtain ⟨ls, hok, hrun, hidle⟩ := hwarm ch hch
  exact ⟨WorkerChannel.inv_run hok hrun, hidle⟩

theorem pool_run_serves {atoll : Text → Int} {channels : List Nat} {chan : Nat → Channel} {ls : List Label}
    (hnodup : channels.Nodup) (hwarm : ∀ ch ∈ channels, Warm atoll (chan ch))
    (hok : EveryStep (step atoll) Careful (opened channels chan) ls) :
    EveryState (step atoll) Serves (opened channels chan) ls :=
  everyState_of_invariant (fun _ _ _ hs hok h => inv_step hs hok h) (fun _ => Inv.serves) (inv_warm hnodup hwarm) hok

/-- A writer and a reader want the same worker; the writer has it. -/
def writerFirst : List Label :=
  [.worker 8, .call 0 .exec [1], .call 1 .query [2], .lock 0, .take 0, .submit 0, .drive 0, .worker 8,
    .drive 0, .worker 8, .drive 0, .drive 0, .worker 8, .worker 8, .worker 8, .worker 8, .exec 8 [] 0,
    .worker 8, .worker 8, .drive 0, .drive 0]

theorem writer_first_serves :
    EveryState (step fun _ => 0) Serves (opened [8] fun _ => {}) writerFirst ∧
      (run (step fun _ => 0) (opened [8] fun _ => {}) writerFirst).map (fun p => (p.chan 8).calls) =
        some [([1], [⟨0, 0, []⟩])] :=
  ⟨pool_run_serves (by decide) (fun _ _ => ⟨[], trivial, rfl, rfl⟩) (by decide), by decide⟩

/-! ## Nobody waits for ever -/

/-- No channel is lost. -/
def Kept (p : Pool) : Prop := ∀ ch ∈ p.channels, ch ∈ p.idle ∨ ∃ t, (p.pc t).holds = some ch

/-- A careful step, and no `put` that throws. -/
def Orderly (p : Pool) (l : Label) : Prop := Careful p l ∧ ∀ t, l ≠ .putThrows t

instance (p : Pool) : ∀ l, Decidable (Orderly p l)
  | .putThrows t => .isFalse fun h => h.2 t rfl
  | .call .. | .lock _ | .take _ | .takeThrows _ | .submit _ | .drive _ | .timeout _ | .giveUp _ | .leave _ | .put _
  | .unlock _ | .worker _ | .exec .. | .stop _ | .stopWake _ =>
    decidable_of_iff (Careful p _) ⟨fun h => ⟨h, nofun⟩, And.left⟩

section
variable {p p' : Pool} {t : Nat} {pc : Pc}

theorem Kept.goto (h : Kept p) (hl : pc.holds = (p.pc t).holds) : Kept (p.goto t pc) := by
  intro ch hch
  refine (h ch hch).imp_right fun ⟨u, hu⟩ => ⟨u, ?_⟩
  rw [goto_congr Pc.holds hl]
  exact hu

theorem Kept.act {atoll : Text → Int} {ch : Nat} {l : WorkerChannel.Label} (h : Kept p)
    (ha : p.act atoll ch l = some p') : Kept p' := by
  obtain ⟨s, -, rfl⟩ := act_eq ha
  exact h

theorem kept_step {atoll : Text → Int} {l : Label} (h : Kept p) (hok : ∀ t, l ≠ .putThrows t)
    (hstep : step atoll p l = some p') : Kept p' := by
  cases l with
  | call t kind sql =>
    simp only [step] at hstep
    split at hstep
    · next hpc =>
      cases hstep
      exact h.goto (by rw [hpc]; rfl)
    · cases hstep
  | lock t =>
    simp only [step] at hstep
    split at hstep
    · next sql hpc =>
      split at hstep <;> cases hstep
      exact h.goto (by rw [hpc]; rfl)
    · next sql hpc =>
      split at hstep <;> cases hstep
      exact h.goto (by rw [hpc]; rfl)
    · cases hstep
  | take t =>
    simp only [step] at hstep
    split at hstep
    · next kind sql ch idle hpc hidle =>
      cases hstep
      intro c hc
      have hother : ∀ u, (p.pc u).holds = some c → u ≠ t := by
        rintro u hu rfl
        rw [hpc] at hu
        cases hu
      rcases h c hc with hin | ⟨u, hu⟩
      · rw [hidle] at hin
        rcases List.mem_cons.mp hin with rfl | hin
        · exact .inr ⟨t, by simp only [goto_pc_self]; rfl⟩
        · exact .inl hin
      · exact .inr ⟨u, by simpa only [goto_pc_ne (hother u hu)] using hu⟩
    · cases hstep
  | takeThrows t =>
    simp only [step] at hstep
    split at hstep
    · next hpc =>
      cases hstep
      exact h.goto (by rw [hpc]; rfl)
    · cases hstep
  | submit t =>
    simp only [step] at hstep
    split at hstep
    · next hpc => exact (h.goto (by rw [hpc]; rfl)).act hstep
    · cases hstep
  | drive t | timeout t | giveUp t =>
    simp only [step] at hstep
    split at hstep
    · exact h.act hstep
    · cases hstep
  | leave t =>
    simp only [step] at hstep
    split at hstep
    · next hpc => exact (h.goto (by rw [hpc]; rfl)).act hstep
    · cases hstep
  | put t =>
    simp only [step] at hstep
    split at hstep
    · next kind ch hpc =>
      split at hstep <;> cases hstep
      intro c hc
      by_cases hcc : c = ch
      · exact .inl (List.mem_append_right _ (List.mem_singleton.mpr hcc))
      · rcases h c hc with hin | ⟨u, hu⟩
        · exact .inl (List.mem_append_left _ hin)
        · have hut : u ≠ t := by
            rintro rfl
            rw [hpc] at hu
            exact hcc (Option.some.inj hu).symm
          exact .inr ⟨u, by simpa only [goto_pc_ne hut] using hu⟩
    · cases hstep
  | putThrows t => exact absurd rfl (hok t)
  | unlock t =>
    simp only [step] at hstep
    split at hstep
    · next kind hpc =>
      cases hstep
      have hgoto : Kept (p.goto t .out) := h.goto (by rw [hpc]; rfl)
      cases kind <;> exact hgoto
    · cases hstep
  | worker ch | exec ch rows rc | stopWake ch => exact h.act hstep
  | stop ch =>
    simp only [step] at hstep
    split at hstep
    · exact h.act hstep
    · cases hstep

theorem channels_step {atoll : Text → Int} {l : Label} (h : step atoll p l = some p') : p'.channels = p.channels := by
  have hact : ∀ {q : Pool} {ch : Nat} {cl : WorkerChannel.Label}, q.act atoll ch cl = some p' →
      p'.channels = q.channels := by
    intro q ch cl ha
    obtain ⟨s, -, rfl⟩ := act_eq ha
    rfl
  cases l with
  | worker | exec | stopWake => exact hact h
  | stop =>
    simp only [step] at h
    split at h
    · exact hact h
    · cases h
  | submit | drive | timeout | giveUp | leave =>
    simp only [step] at h
    split at h
    · have hsame := hact h
      exact hsame
    · cases h
  | call | takeThrows | putThrows =>
    simp only [step] at h
    split at h <;> cases h
    rfl
  | lock | put =>
    simp only [step] at h
    (repeat' split at h) <;> cases h <;> rfl
  | take =>
    simp only [step] at h
    split at h <;> cases h
    rfl
  | unlock =>
    simp only [step] at h
    split at h
    · next kind _ =>
      cases h
      cases kind <;> rfl
    · cases h

/-- A step of a call that is under way, or of a worker. -/
def Works : Label → Prop
  | .lock _ | .take _ | .submit _ | .drive _ | .leave _ | .put _ | .unlock _ | .worker _ | .exec .. => True
  | _ => False

/-- The pool can go on. -/
def CanMove (atoll : Text → Int) (p : Pool) : Prop := ∃ l p', Works l ∧ Orderly p l ∧ step atoll p l = some p'

variable {atoll : Text → Int}

theorem canMove_of_act {ch : Nat} {l : WorkerChannel.Label} {s : Channel} (hl : WorkerChannel.Moves l)
    (hs : WorkerChannel.step atoll (p.chan ch) l = some s) {kind : Kind} {sql : Text}
    (hpc : p.pc t = .driving kind sql ch) :
    CanMove atoll p := by
  have hact : ∃ p', p.act atoll ch l = some p' := ⟨_, by rw [Pool.act, hs]; rfl⟩
  obtain ⟨p', hact⟩ := hact
  cases l with
  | driver => exact ⟨.drive t, p', trivial, ⟨trivial, nofun⟩, by simp only [step, hpc, hact]⟩
  | worker => exact ⟨.worker ch, p', trivial, ⟨trivial, nofun⟩, hact⟩
  | exec rows rc => exact ⟨.exec ch rows rc, p', trivial, ⟨trivial, nofun⟩, hact⟩
  | submit | giveUp | timeout | leave | stop | stopWake => exact hl.elim

theorem Lent.room (h : Lent p) {ch : Nat} (hholds : (p.pc t).holds = some ch) : p.idle.length < p.channels.length := by
  have hnot : ch ∉ p.idle := fun hmem => h.free ch hmem t hholds
  have hnodup : (ch :: p.idle).Nodup := List.nodup_cons.mpr ⟨hnot, h.once⟩
  have hsub : (ch :: p.idle) ⊆ p.channels := by
    intro c hc
    rcases List.mem_cons.mp hc with rfl | hc
    · exact h.owned t c hholds
    · exact h.known c hc
  exact (hnodup.subperm hsub).length_le

/-- A call that has a channel can go on, or the worker for it. -/
theorem Inv.canMove_of_holds (hs : Inv p) (hopen : ∀ ch ∈ p.channels, (p.chan ch).stopped = false) {ch : Nat}
    (hholds : (p.pc t).holds = some ch) : CanMove atoll p := by
  have hch := hs.lent.owned t ch hholds
  cases hpc : p.pc t with
  | out | lock | take | unlock => rw [hpc] at hholds; cases hholds
  | borrowed kind sql c =>
    obtain rfl : c = ch := by rw [hpc] at hholds; exact Option.some.inj hholds
    have hidle := hs.driven.out c hch fun u kind' sql' hu => by
      have hut := hs.lent.one u t c (by rw [hu]; rfl) hholds
      subst hut
      cases hpc.symm.trans hu
    have hact : ∃ p', (p.goto t (.driving kind sql c)).act atoll c (.submit sql) = some p' := by
      have hchan : (p.goto t (.driving kind sql c)).chan c = p.chan c := rfl
      simp only [Pool.act, WorkerChannel.step, hchan, hidle]
      split <;> exact ⟨_, rfl⟩
    obtain ⟨p', hact⟩ := hact
    refine ⟨.submit t, p', trivial, ⟨fun c' hc' => ?_, nofun⟩, by simp only [step, hpc, hact]⟩
    cases hholds.symm.trans hc'
    exact hopen c hch
  | driving kind sql c =>
    obtain rfl : c = ch := by rw [hpc] at hholds; exact Option.some.inj hholds
    cases hd : (p.chan c).driver with
    | idle =>
      have hserving := hs.driven.serving t kind sql c hpc
      simp only [Serving, hd] at hserving
    | inCall sql' tries pc =>
      obtain ⟨l, s, hl, hstep⟩ := (hs.driven.inv c hch).moves atoll hd
      exact canMove_of_act hl hstep hpc
    | returned outcome =>
      have hact : ∃ p', (p.goto t (.put kind c)).act atoll c .leave = some p' := by
        have hchan : (p.goto t (.put kind c)).chan c = p.chan c := rfl
        simp only [Pool.act, WorkerChannel.step, hchan, hd]
        exact ⟨_, rfl⟩
      obtain ⟨p', hact⟩ := hact
      exact ⟨.leave t, p', trivial, ⟨trivial, nofun⟩, by simp only [step, hpc, hact]⟩
  | put kind c =>
    have hroom := hs.lent.room hholds
    exact ⟨.put t, _, trivial, ⟨trivial, nofun⟩, by simp only [step, hpc]; exact if_pos hroom⟩

/-- A call that has the lock can go on, or one that has the channel it waits for. -/
theorem Inv.canMove_of_locks (hs : Inv p) (hkept : Kept p) (hne : p.channels ≠ [])
    (hopen : ∀ ch ∈ p.channels, (p.chan ch).stopped = false) {kind : Kind} (hlocks : (p.pc t).locks = some kind) :
    CanMove atoll p := by
  cases hpc : p.pc t with
  | out | lock => rw [hpc] at hlocks; cases hlocks
  | borrowed | driving | put => exact hs.canMove_of_holds hopen (t := t) (by rw [hpc]; rfl)
  | unlock => exact ⟨.unlock t, _, trivial, ⟨trivial, nofun⟩, by simp only [step, hpc]; rfl⟩
  | take kind' sql =>
    cases hidle : p.idle with
    | cons ch idle => exact ⟨.take t, _, trivial, ⟨trivial, nofun⟩, by simp only [step, hpc, hidle]; rfl⟩
    | nil =>
      obtain ⟨ch, hch⟩ := List.exists_mem_of_ne_nil _ hne
      rcases hkept ch hch with hin | ⟨u, hu⟩
      · rw [hidle] at hin
        cases hin
      · exact hs.canMove_of_holds hopen hu

/-- While a call is unfinished the pool can go on. -/
theorem Inv.canMove (hs : Inv p) (hkept : Kept p) (hne : p.channels ≠ [])
    (hopen : ∀ ch ∈ p.channels, (p.chan ch).stopped = false) (hcall : p.pc t ≠ .out) : CanMove atoll p := by
  cases hpc : p.pc t with
  | out => exact absurd hpc hcall
  | take | borrowed | driving | put | unlock =>
    exact hs.canMove_of_locks hkept hne hopen (t := t) (by rw [hpc]; rfl)
  | lock kind sql =>
    cases hw : p.writer with
    | some u => exact hs.canMove_of_locks hkept hne hopen ((hs.locked.writer u).mpr hw)
    | none =>
      cases hr : p.readers with
      | cons u readers =>
        exact hs.canMove_of_locks hkept hne hopen ((hs.locked.readers u).mpr (by rw [hr]; exact List.mem_cons_self))
      | nil =>
        cases kind with
        | exec => exact ⟨.lock t, _, trivial, ⟨trivial, nofun⟩, by simp only [step, hpc]; exact if_pos ⟨hw, hr⟩⟩
        | query => exact ⟨.lock t, _, trivial, ⟨trivial, nofun⟩, by simp only [step, hpc]; exact if_pos hw⟩

end

/-- While a call is unfinished something moves, and no `put` waits for room. -/
theorem pool_never_stuck {atoll : Text → Int} {channels : List Nat} {chan : Nat → Channel} {ls : List Label} {p : Pool}
    {t : Nat} (hnodup : channels.Nodup) (hne : channels ≠ []) (hwarm : ∀ ch ∈ channels, Warm atoll (chan ch))
    (hok : EveryStep (step atoll) Orderly (opened channels chan) ls)
    (hrun : run (step atoll) (opened channels chan) ls = some p)
    (hopen : ∀ ch ∈ p.channels, (p.chan ch).stopped = false) (hcall : p.pc t ≠ .out) :
    CanMove atoll p ∧ ∀ u kind ch, p.pc u = .put kind ch → ∃ p', step atoll p (.put u) = some p' := by
  have hstart : Inv (opened channels chan) ∧ Kept (opened channels chan) ∧ (opened channels chan).channels ≠ [] :=
    ⟨inv_warm hnodup hwarm, fun ch hch => .inl hch, hne⟩
  have hrun := (everyState_of_invariant (I := fun p => Inv p ∧ Kept p ∧ p.channels ≠ []) (fun q l q' hs hok h =>
    ⟨inv_step hs.1 hok.1 h, kept_step hs.2.1 hok.2 h, channels_step h ▸ hs.2.2⟩) (fun _ => id) hstart hok).last hrun
  refine ⟨hrun.1.canMove hrun.2.1 hrun.2.2 hopen hcall, fun u kind ch hpc => ?_⟩
  have hroom : p.idle.length < p.channels.length := hrun.1.lent.room (t := u) (by rw [hpc]; rfl)
  exact ⟨_, by simp only [step, hpc]; exact if_pos hroom⟩

/-- The reader behind it waits for the lock, and the writer goes on, with room for its channel. -/
theorem writer_first_moves :
    ∃ p, run (step fun _ => 0) (opened [8] fun _ => {}) writerFirst = some p ∧ p.pc 1 = .lock .query [2] ∧
      CanMove (fun _ => 0) p ∧ ∀ u kind ch, p.pc u = .put kind ch → ∃ p', step (fun _ => 0) p (.put u) = some p' :=
  ⟨_, rfl, rfl, @pool_never_stuck _ [8] _ writerFirst _ 1 (by decide) (by decide) (fun _ _ => ⟨[], trivial, rfl, rfl⟩)
    (by decide) rfl (by decide) (by decide)⟩

end SqliteWalPool

end Sqlol
