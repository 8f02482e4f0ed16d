/-
`WorkerDbPort.close` and `WorkerDbRuntimes`: ports on any paths, the runtime
of a path shared by its ports and counted in `refs`.

`openFile` and `releaseFile` are synchronized on the registry, so each is one
step. `close` is three: its flag (`WorkerDB._close` is synchronized, so one
thread closes a port), `stop`, and the release in the `finally` block, which
comes whether `stop` threw or not. The count is the number of ports not yet
released, so a runtime whose stops all returned ends behind its last worker.
-/
import Sqlol.Table
import Sqlol.WalClose
import Mathlib.Data.List.Nodup

namespace Sqlol

namespace WorkerDbPort

/-- `holders` notes the ports that `refs` counts; no step decides by it. -/
structure FileEntry where
  rt : Nat
  refs : Int := 0
  holders : List Nat := []

/-- A port, with the runtime it was opened on. -/
structure Port where
  path : String
  rt : Nat
  worker : SqliteWorker
  closed : Bool

/-- Where a `close` call is. -/
inductive Pc where
  | idle
  | stopping (p : Nat)
  | releasing (p : Nat)
  | done
  deriving DecidableEq

/-- The port a call has in hand. -/
def Pc.port : Pc → Option Nat
  | .stopping p | .releasing p => some p
  | _ => none

/-- Ports and runtimes are numbered as they are made. -/
structure Sys where
  files : Table String FileEntry := ∅
  next : Nat := 0
  ports : Nat → Port := fun _ => ⟨"", 0, {}, false⟩
  nextRt : Nat := 0
  rts : Nat → Runtime := fun _ => {}
  pc : Nat → Pc := fun _ => .idle

/-- The steps of the opens and closes, and of the workers of the ports `p`. -/
inductive Label where
  | enter (p : Nat)
  | leave (p : Nat)
  /-- `spawned` is false when the worker's spawn throws. -/
  | openFile (path : String) (spawned : Bool)
  | close (c p : Nat)
  | stop (c : Nat) (e : StopEnd)
  | release (c : Nat)

namespace Sys

/-- The call goes on at `p`. -/
def goto (s : Sys) (c : Nat) (p : Pc) : Sys := { s with pc := Function.update s.pc c p }

/-- Another state of a port. -/
def setPort (s : Sys) (p : Nat) (port : Port) : Sys := { s with ports := Function.update s.ports p port }

/-- Another state of a port's worker. -/
def setWorker (s : Sys) (p : Nat) (w : SqliteWorker) : Sys := s.setPort p { s.ports p with worker := w }

/-- A `stop` of a worker of the runtime `r` threw. -/
def noteThrow (s : Sys) (r : Nat) : Sys :=
  { s with rts := Function.update s.rts r { s.rts r with threw := true } }

/-- `files.getOrPut(path) { FileEntry(openRuntime(...)) }`. -/
def entry (s : Sys) (path : String) : Sys × FileEntry :=
  match s.files.lookup path with
  | some e => (s, e)
  | none =>
    ({ s with files := s.files.insert path { rt := s.nextRt }, nextRt := s.nextRt + 1
              rts := Function.update s.rts s.nextRt {} }, { rt := s.nextRt })

/-- `entry.refs++`, with a number set aside for the port; it has no worker yet. -/
def count (s : Sys) (path : String) (e : FileEntry) : Sys :=
  { s with
    next := s.next + 1
    ports := Function.update s.ports s.next ⟨path, e.rt, { closed := true }, true⟩
    files := s.files.insert path { e with refs := e.refs + 1, holders := s.next :: e.holders } }

/-- A port on the runtime of its path, made when there is none. -/
def attach (s : Sys) (path : String) : Sys := (s.entry path).1.count path (s.entry path).2

/-- `releaseFile(path)`, for the port `p`. -/
def releaseFile (s : Sys) (path : String) (p : Nat) : Sys :=
  match s.files.lookup path with
  | none => s
  | some e =>
    let refs := e.refs - 1
    if refs ≤ 0 then
      { s with files := s.files.erase path
               rts := Function.update s.rts e.rt { s.rts e.rt with wasiClosed := true, lockReleased := true } }
    else { s with files := s.files.insert path { e with refs, holders := e.holders.erase p } }

end Sys

/-- One step; none where it is not the next one. -/
def step (s : Sys) : Label → Option Sys
  | .enter p => if p < s.next then (s.ports p).worker.enter.map (s.setWorker p) else none
  | .leave p => if p < s.next then (s.ports p).worker.leave.map (s.setWorker p) else none
  | .openFile path spawned =>
    let t := s.attach path
    if spawned then some (t.setPort s.next { t.ports s.next with worker := {}, closed := false })
    else some (t.releaseFile path s.next)
  | .close c p => match s.pc c with
    | .idle =>
      if p < s.next then
        some (if (s.ports p).closed then s.goto c .done
          else (s.setPort p { s.ports p with closed := true }).goto c (.stopping p))
      else none
    | _ => none
  | .stop c e => match s.pc c with
    | .stopping p => match (s.ports p).worker.stop e with
      | none => none
      | some (w, true) => some ((s.setWorker p w).goto c (.releasing p))
      | some (w, false) => some (((s.setWorker p w).noteThrow (s.ports p).rt).goto c (.releasing p))
    | _ => none
  | .release c => match s.pc c with
    | .releasing p => some ((s.goto c .done).releaseFile (s.ports p).path p)
    | _ => none

/-- A runtime that has ended has no worker that can execute SQL, unless one
of its stops threw. -/
def Safe (s : Sys) : Prop :=
  ∀ r, (s.rts r).wasiClosed = true ∨ (s.rts r).lockReleased = true → (s.rts r).threw = false →
    ∀ p < s.next, (s.ports p).rt = r → (s.ports p).worker.Stopped

/-! ## The invariant -/

/-- The path's entry counts the port. -/
def Counts (files : Table String FileEntry) (path : String) (p : Nat) : Prop :=
  ∃ e, files.lookup path = some e ∧ p ∈ e.holders

/-- The port is counted in its runtime's entry. -/
def Holds (s : Sys) (p : Nat) : Prop := Counts s.files (s.ports p).path p

/-- The port is closed, and so is its worker unless a stop threw. -/
def Settled (s : Sys) (p : Nat) : Prop :=
  (s.ports p).closed = true ∧ ((s.rts (s.ports p).rt).threw = false → (s.ports p).worker.Stopped)

/-- The registry counts the ports that hold each runtime, and a runtime in it runs. -/
structure Inv (s : Sys) : Prop where
  refs : ∀ path e, s.files.lookup path = some e → e.refs = e.holders.length ∧ e.holders.Nodup
  running : ∀ path e, s.files.lookup path = some e → e.rt < s.nextRt ∧
    (s.rts e.rt).wasiClosed = false ∧ (s.rts e.rt).lockReleased = false
  distinct : ∀ path path' e e', s.files.lookup path = some e → s.files.lookup path' = some e' →
    e.rt = e'.rt → path = path'
  holder : ∀ path e p, s.files.lookup path = some e → p ∈ e.holders →
    p < s.next ∧ (s.ports p).path = path ∧ (s.ports p).rt = e.rt
  holds : ∀ p < s.next, Holds s p ∨ Settled s p
  port_rt : ∀ p < s.next, (s.ports p).rt < s.nextRt
  active : ∀ c p, (s.pc c).port = some p → p < s.next ∧ (s.ports p).closed = true ∧ Holds s p
  stopped : ∀ c p, s.pc c = .releasing p → Settled s p
  unique : ∀ c d p, (s.pc c).port = some p → (s.pc d).port = some p → c = d

theorem inv_start : Inv {} where
  refs _ _ h := by cases h
  running _ _ h := by cases h
  distinct _ _ _ _ h := by cases h
  holder _ _ _ h := by cases h
  holds p hp := absurd hp (Nat.not_lt_zero p)
  port_rt p hp := absurd hp (Nat.not_lt_zero p)
  active _ _ h := by cases h
  stopped _ _ h := by cases h
  unique _ _ _ h := by cases h

/-- A counted port's runtime is running. -/
theorem Inv.safe {s : Sys} (hi : Inv s) : Safe s := by
  intro r hended ht p hp hr
  rcases hi.holds p hp with ⟨e, he, hpe⟩ | ⟨-, hw⟩
  · obtain ⟨-, hwasi, hlock⟩ := hi.running _ e he
    rw [← (hi.holder _ e p he hpe).2.2, hr] at hwasi hlock
    rcases hended with h | h
    · rw [h] at hwasi; cases hwasi
    · rw [h] at hlock; cases hlock
  · exact hw (hr ▸ ht)

/-! ## The steps -/

section
variable {s : Sys}

theorem setPort_self {p : Nat} {port : Port} : (s.setPort p port).ports p = port := Function.update_self ..

theorem setPort_other {p q : Nat} {port : Port} (h : q ≠ p) : (s.setPort p port).ports q = s.ports q :=
  Function.update_of_ne h ..

/-- A change of one port that keeps its path and runtime. -/
theorem Inv.setPort (hi : Inv s) {p : Nat} {port : Port} (hpath : port.path = (s.ports p).path)
    (hrt : port.rt = (s.ports p).rt) (hclosed : ∀ c, (s.pc c).port = some p → port.closed = true)
    (hsettled : Holds s p ∨ (port.closed = true ∧ ((s.rts port.rt).threw = false → port.worker.Stopped)))
    (hstopped : ∀ c, s.pc c = .releasing p → (s.rts port.rt).threw = false → port.worker.Stopped) :
    Inv (s.setPort p port) := by
  have path : ∀ q, ((s.setPort p port).ports q).path = (s.ports q).path := fun q => by
    by_cases hq : q = p
    · subst hq; rw [setPort_self, hpath]
    · rw [setPort_other hq]
  have rt : ∀ q, ((s.setPort p port).ports q).rt = (s.ports q).rt := fun q => by
    by_cases hq : q = p
    · subst hq; rw [setPort_self, hrt]
    · rw [setPort_other hq]
  have holds : ∀ {q}, Holds s q → Holds (s.setPort p port) q := fun {q} h => by
    simp only [Holds, path]; exact h
  have settled : ∀ {q}, q ≠ p → Settled s q → Settled (s.setPort p port) q := fun {q} hq h => by
    simp only [Settled, setPort_other hq]
    exact h
  refine ⟨hi.refs, hi.running, hi.distinct, fun pa e q he hq => ?_, fun q hq => ?_, fun q hq => ?_,
    fun c q hc => ?_, fun c q hc => ?_, hi.unique⟩
  · rw [path, rt]; exact hi.holder pa e q he hq
  · by_cases hqp : q = p
    · subst hqp
      rcases hsettled with h | h
      · exact .inl (holds h)
      · exact .inr (by simp only [Settled, setPort_self]; exact h)
    · exact (hi.holds q hq).imp holds (settled hqp)
  · rw [rt]; exact hi.port_rt q hq
  · obtain ⟨h1, h2, h3⟩ := hi.active c q hc
    refine ⟨h1, ?_, holds h3⟩
    by_cases hqp : q = p
    · subst hqp; rw [setPort_self]; exact hclosed c hc
    · rw [setPort_other hqp]; exact h2
  · by_cases hqp : q = p
    · subst hqp
      simp only [Settled, setPort_self]
      exact ⟨hclosed c (by rw [show s.pc c = _ from hc]; rfl), hstopped c hc⟩
    · exact settled hqp (hi.stopped c q hc)

/-- A worker that stays closed if it is. -/
theorem Inv.setWorker (hi : Inv s) {p : Nat} {w : SqliteWorker}
    (h : (s.ports p).worker.Stopped → w.Stopped) (hp : Holds s p ∨ Settled s p) :
    Inv (s.setWorker p w) :=
  hi.setPort rfl rfl (fun c hc => (hi.active c p hc).2.1) (hp.imp_right fun hs => ⟨hs.1, fun ht => h (hs.2 ht)⟩)
    fun c hc ht => h ((hi.stopped c p hc).2 ht)

theorem Inv.noteThrow (hi : Inv s) (r : Nat) : Inv (s.noteThrow r) := by
  have ended : ∀ r', ((s.noteThrow r).rts r').wasiClosed = (s.rts r').wasiClosed ∧
      ((s.noteThrow r).rts r').lockReleased = (s.rts r').lockReleased := fun r' => by
    simp only [Sys.noteThrow]
    by_cases hr : r' = r
    · subst hr; rw [Function.update_self]; exact ⟨rfl, rfl⟩
    · rw [Function.update_of_ne hr]; exact ⟨rfl, rfl⟩
  have settled : ∀ {q}, Settled s q → Settled (s.noteThrow r) q := fun {q} h => by
    refine ⟨h.1, fun ht => h.2 ?_⟩
    simp only [Sys.noteThrow] at ht
    by_cases hr : (s.ports q).rt = r
    · subst hr; rw [Function.update_self] at ht; cases ht
    · rwa [Function.update_of_ne hr] at ht
  exact ⟨hi.refs, fun pa e he => by rw [(ended _).1, (ended _).2]; exact hi.running pa e he, hi.distinct,
    hi.holder, fun q hq => (hi.holds q hq).imp_right settled, hi.port_rt, hi.active,
    fun c q hc => settled (hi.stopped c q hc), hi.unique⟩

/-- A call moves on. -/
theorem Inv.goto (hi : Inv s) {c : Nat} {p : Pc}
    (hactive : ∀ q, p.port = some q → q < s.next ∧ (s.ports q).closed = true ∧ Holds s q)
    (hstopped : ∀ q, p = .releasing q → Settled s q)
    (hunique : ∀ q d, p.port = some q → (s.pc d).port = some q → d = c) : Inv (s.goto c p) := by
  have same : (s.goto c p).pc c = p := Function.update_self ..
  have other : ∀ d, d ≠ c → (s.goto c p).pc d = s.pc d := fun d hd => Function.update_of_ne hd ..
  refine ⟨hi.refs, hi.running, hi.distinct, hi.holder, hi.holds, hi.port_rt, fun d q hd => ?_, fun d q hd => ?_,
    fun a b q ha hb => ?_⟩
  · by_cases hdc : d = c
    · subst hdc; rw [same] at hd; exact hactive q hd
    · rw [other d hdc] at hd; exact hi.active d q hd
  · by_cases hdc : d = c
    · subst hdc; rw [same] at hd; exact hstopped q hd
    · rw [other d hdc] at hd; exact hi.stopped d q hd
  · by_cases hac : a = c
    · subst hac
      by_cases hba : b = a
      · exact hba.symm
      · rw [same] at ha
        rw [other b hba] at hb
        exact (hunique q b ha hb).symm
    · rw [other a hac] at ha
      by_cases hbc : b = c
      · subst hbc
        rw [same] at hb
        exact hunique q a hb ha
      · rw [other b hbc] at hb
        exact hi.unique a b q ha hb

/-- A path without an entry gets one, with a runtime of its own. -/
theorem Inv.entry (hi : Inv s) (path : String) :
    Inv (s.entry path).1 ∧ (s.entry path).1.files.lookup path = some (s.entry path).2 ∧
      (s.entry path).1.next = s.next ∧ (s.entry path).1.pc = s.pc := by
  simp only [Sys.entry]
  split
  · next e he => exact ⟨hi, he, rfl, rfl⟩
  · next hnone =>
    refine ⟨?_, by simp, rfl, rfl⟩
    have old : ∀ {pa e}, s.files.lookup pa = some e →
        (s.files.insert path { rt := s.nextRt }).lookup pa = some e := fun {pa e} he => by
      rw [Table.lookup_insert, if_neg]
      · exact he
      · rintro rfl; rw [hnone] at he; cases he
    have rts : ∀ r < s.nextRt, Function.update s.rts s.nextRt {} r = s.rts r :=
      fun r hr => Function.update_of_ne (Nat.ne_of_lt hr) ..
    have holds : ∀ {q}, Holds s q → Holds { s with
        files := s.files.insert path { rt := s.nextRt }, nextRt := s.nextRt + 1
        rts := Function.update s.rts s.nextRt {} } q := fun {q} ⟨e, he, hq⟩ => ⟨e, old he, hq⟩
    refine ⟨fun pa e he => ?_, fun pa e he => ?_, fun pa pb e e' he he' hrt => ?_, fun pa e q he hq => ?_,
      fun q hq => ?_, fun q hq => Nat.lt_succ_of_lt (hi.port_rt q hq), fun c q hc => ?_, fun c q hc => ?_,
      hi.unique⟩
    · rcases Table.of_lookup_insert he with ⟨-, rfl⟩ | he
      · exact ⟨rfl, List.nodup_nil⟩
      · exact hi.refs pa e he
    · rcases Table.of_lookup_insert he with ⟨-, rfl⟩ | he
      · exact ⟨Nat.lt_succ_self _, by simp only [Function.update_self], by simp only [Function.update_self]⟩
      · obtain ⟨h1, h2⟩ := hi.running pa e he
        refine ⟨Nat.lt_succ_of_lt h1, ?_⟩
        simp only [rts e.rt h1]
        exact h2
    · rcases Table.of_lookup_insert he with ⟨ha, rfl⟩ | ha <;>
        rcases Table.of_lookup_insert he' with ⟨hb, rfl⟩ | hb
      · rw [ha, hb]
      · exact absurd hrt.symm (Nat.ne_of_lt (hi.running pb e' hb).1)
      · exact absurd hrt (Nat.ne_of_lt (hi.running pa e ha).1)
      · exact hi.distinct pa pb e e' ha hb hrt
    · rcases Table.of_lookup_insert he with ⟨-, rfl⟩ | he
      · cases hq
      · exact hi.holder pa e q he hq
    · refine (hi.holds q hq).imp holds fun h => ⟨h.1, fun ht => h.2 ?_⟩
      simpa only [rts _ (hi.port_rt q hq)] using ht
    · obtain ⟨h1, h2, h3⟩ := hi.active c q hc
      exact ⟨h1, h2, holds h3⟩
    · obtain ⟨h1, h2⟩ := hi.stopped c q hc
      refine ⟨h1, fun ht => h2 ?_⟩
      simpa only [rts _ (hi.port_rt q (hi.active c q (by rw [hc]; rfl)).1)] using ht

/-- An entry rewritten with its runtime kept still has a running runtime of its own. -/
theorem Inv.insert_entry (hi : Inv s) {path : String} {e : FileEntry} (he : s.files.lookup path = some e)
    (e' : FileEntry) (hrt : e'.rt = e.rt) :
    (∀ pa f, (s.files.insert path e').lookup pa = some f → f.rt < s.nextRt ∧
      (s.rts f.rt).wasiClosed = false ∧ (s.rts f.rt).lockReleased = false) ∧
    ∀ pa pb f g, (s.files.insert path e').lookup pa = some f → (s.files.insert path e').lookup pb = some g →
      f.rt = g.rt → pa = pb := by
  refine ⟨fun pa f h => ?_, fun pa pb f g hf hg hfg => ?_⟩
  · rcases Table.of_lookup_insert h with ⟨-, rfl⟩ | h
    · rw [hrt]; exact hi.running path e he
    · exact hi.running pa f h
  · rcases Table.of_lookup_insert hf with ⟨ha, rfl⟩ | ha <;>
      rcases Table.of_lookup_insert hg with ⟨hb, rfl⟩ | hb
    · rw [ha, hb]
    · rw [ha]; exact hi.distinct path pb e g he hb (hrt.symm.trans hfg)
    · rw [hb]; exact hi.distinct pa path f e ha he (hfg.trans hrt)
    · exact hi.distinct pa pb f g ha hb hfg

/-- `refs++` for a port that has no worker yet. -/
theorem Inv.count (hi : Inv s) {path : String} {e : FileEntry} (he : s.files.lookup path = some e) :
    Inv (s.count path e) ∧ Holds (s.count path e) s.next := by
  have self : (s.count path e).ports s.next = ⟨path, e.rt, { closed := true }, true⟩ := Function.update_self ..
  have other : ∀ q < s.next, (s.count path e).ports q = s.ports q :=
    fun q hq => Function.update_of_ne (Nat.ne_of_lt hq) ..
  have holds : ∀ {q}, q < s.next → Holds s q → Holds (s.count path e) q := by
    rintro q hq ⟨e', he', hqe⟩
    simp only [Holds, other q hq]
    simp only [Counts, Sys.count, Table.lookup_insert]
    split
    · next hp =>
      rw [hp, he] at he'
      cases he'
      exact ⟨_, rfl, List.mem_cons_of_mem _ hqe⟩
    · exact ⟨e', he', hqe⟩
  have settled : ∀ {q}, q < s.next → Settled s q → Settled (s.count path e) q := by
    intro q hq h
    simp only [Settled, other q hq]
    exact h
  have lt : ∀ q, q < s.next + 1 → q ≠ s.next → q < s.next := fun q h1 h2 => by omega
  have new : Holds (s.count path e) s.next := by
    refine ⟨{ e with refs := e.refs + 1, holders := s.next :: e.holders }, ?_, List.mem_cons_self⟩
    rw [self]
    simp only [Sys.count, Table.lookup_insert, if_true]
  obtain ⟨running, distinct⟩ :=
    hi.insert_entry he { e with refs := e.refs + 1, holders := s.next :: e.holders } rfl
  refine ⟨⟨fun pa e' h => ?_, running, distinct, fun pa e' q h hq => ?_,
    fun q hq => ?_, fun q hq => ?_, fun c q hc => ?_, fun c q hc => ?_, hi.unique⟩, new⟩
  · rcases Table.of_lookup_insert h with ⟨-, rfl⟩ | h
    · obtain ⟨h1, h2⟩ := hi.refs path e he
      refine ⟨by simp only [List.length_cons, h1]; omega, List.nodup_cons.mpr ⟨fun hm => ?_, h2⟩⟩
      exact Nat.lt_irrefl _ (hi.holder path e s.next he hm).1
    · exact hi.refs pa e' h
  · have old : ∀ {e'}, s.files.lookup pa = some e' → q ∈ e'.holders →
        q < s.next + 1 ∧ ((s.count path e).ports q).path = pa ∧ ((s.count path e).ports q).rt = e'.rt := by
      intro e' h hq
      obtain ⟨h1, h2⟩ := hi.holder pa e' q h hq
      rw [other q h1]
      exact ⟨Nat.lt_succ_of_lt h1, h2⟩
    rcases Table.of_lookup_insert h with ⟨rfl, rfl⟩ | h
    · rcases List.mem_cons.mp hq with rfl | hq
      · rw [self]; exact ⟨Nat.lt_succ_self _, rfl, rfl⟩
      · exact @old e he hq
    · exact old h hq
  · by_cases hqn : q = s.next
    · rw [hqn]; exact .inl new
    · exact (hi.holds q (lt q hq hqn)).imp (holds (lt q hq hqn)) (settled (lt q hq hqn))
  · by_cases hqn : q = s.next
    · rw [hqn, self]; exact (hi.running path e he).1
    · rw [other q (lt q hq hqn)]; exact hi.port_rt q (lt q hq hqn)
  · obtain ⟨h1, h2, h3⟩ := hi.active c q hc
    exact ⟨Nat.lt_succ_of_lt h1, by rw [other q h1]; exact h2, holds h1 h3⟩
  · have h1 := (hi.active c q (by rw [show s.pc c = _ from hc]; rfl)).1
    exact settled h1 (hi.stopped c q hc)

/-- The release of a counted port that is settled and that no call has in hand any more. -/
theorem Inv.releaseFile (hi : Inv s) {p : Nat} (hp : Holds s p) (hset : Settled s p)
    (hno : ∀ c, (s.pc c).port ≠ some p) : Inv (s.releaseFile (s.ports p).path p) := by
  obtain ⟨e, he, hpe⟩ := hp
  obtain ⟨hrefs, hnodup⟩ := hi.refs _ e he
  simp only [Sys.releaseFile, he]
  split
  · next hle =>
    -- It was the last one: nobody is counted on this runtime any more.
    have hlast : ∀ q ∈ e.holders, q = p := by
      have hlen : e.holders.length = 1 := by
        have := List.length_pos_of_mem hpe
        omega
      obtain ⟨a, ha⟩ := List.length_eq_one_iff.mp hlen
      rw [ha] at hpe ⊢
      intro q hq
      rw [List.mem_singleton.mp hq, List.mem_singleton.mp hpe]
    have old : ∀ pa e', (s.files.erase (s.ports p).path).lookup pa = some e' →
        pa ≠ (s.ports p).path ∧ s.files.lookup pa = some e' := fun pa e' h => by
      rw [Table.lookup_erase] at h
      split at h
      · cases h
      · next hpa => exact ⟨hpa, h⟩
    have holds : ∀ {q}, q ≠ p → Holds s q →
        Counts (s.files.erase (s.ports p).path) (s.ports q).path q := by
      rintro q hqp ⟨e', he', hqe⟩
      refine ⟨e', ?_, hqe⟩
      rw [Table.lookup_erase, if_neg]
      · exact he'
      · intro hpath
        rw [hpath, he] at he'
        cases he'
        exact hqp (hlast q hqe)
    have threw : ∀ r, (Function.update s.rts e.rt
        { s.rts e.rt with wasiClosed := true, lockReleased := true } r).threw = (s.rts r).threw := fun r => by
      by_cases hr : r = e.rt
      · subst hr; rw [Function.update_self]
      · rw [Function.update_of_ne hr]
    refine ⟨fun pa e' h => hi.refs pa e' (old pa e' h).2, fun pa e' h => ?_,
      fun pa pb e₁ e₂ h₁ h₂ => hi.distinct pa pb e₁ e₂ (old pa e₁ h₁).2 (old pb e₂ h₂).2,
      fun pa e' q h => hi.holder pa e' q (old pa e' h).2, fun q hq => ?_, hi.port_rt, fun c q hc => ?_,
      fun c q hc => ?_, hi.unique⟩
    · obtain ⟨hpa, h⟩ := old pa e' h
      have hne : e'.rt ≠ e.rt := fun hrt => hpa (hi.distinct pa _ e' e h he hrt)
      simp only [Function.update_of_ne hne]
      exact hi.running pa e' h
    · by_cases hqp : q = p
      · subst hqp; exact .inr (by simp only [Settled, threw]; exact hset)
      · rcases hi.holds q hq with h | h
        · exact .inl (holds hqp h)
        · exact .inr (by simp only [Settled, threw]; exact h)
    · obtain ⟨h1, h2, h3⟩ := hi.active c q hc
      exact ⟨h1, h2, holds (fun hqp => hno c (hqp ▸ hc)) h3⟩
    · simp only [Settled, threw]; exact hi.stopped c q hc
  · next hgt =>
    have holds : ∀ {q}, q ≠ p → Holds s q → Counts (s.files.insert (s.ports p).path
        { e with refs := e.refs - 1, holders := e.holders.erase p }) (s.ports q).path q := by
      rintro q hqp ⟨e', he', hqe⟩
      simp only [Counts, Table.lookup_insert]
      split
      · next hpath =>
        rw [hpath, he] at he'
        cases he'
        exact ⟨_, rfl, (List.mem_erase_of_ne hqp).mpr hqe⟩
      · exact ⟨e', he', hqe⟩
    obtain ⟨running, distinct⟩ :=
      hi.insert_entry he { e with refs := e.refs - 1, holders := e.holders.erase p } rfl
    refine ⟨fun pa e' h => ?_, running, distinct, fun pa e' q h hq => ?_,
      fun q hq => ?_, hi.port_rt, fun c q hc => ?_, hi.stopped, hi.unique⟩
    · rcases Table.of_lookup_insert h with ⟨-, rfl⟩ | h
      · have hlen := List.length_erase_of_mem hpe
        have hpos := List.length_pos_of_mem hpe
        exact ⟨by simp only [hlen, hrefs]; omega, hnodup.erase p⟩
      · exact hi.refs pa e' h
    · rcases Table.of_lookup_insert h with ⟨rfl, rfl⟩ | h
      · exact hi.holder _ e q he (List.mem_of_mem_erase hq)
      · exact hi.holder pa e' q h hq
    · by_cases hqp : q = p
      · subst hqp; exact .inr hset
      · exact (hi.holds q hq).imp_left (holds hqp)
    · obtain ⟨h1, h2, h3⟩ := hi.active c q hc
      exact ⟨h1, h2, holds (fun hqp => hno c (hqp ▸ hc)) h3⟩

end

theorem Inv.step {s s' : Sys} {l : Label} (hi : Inv s) (h : step s l = some s') : Inv s' := by
  cases l with
  | enter p =>
    simp only [WorkerDbPort.step] at h
    split at h
    · next hp =>
      obtain ⟨w, hw, rfl⟩ := Option.map_eq_some_iff.mp h
      exact hi.setWorker (·.enter hw) (hi.holds p hp)
    · cases h
  | leave p =>
    simp only [WorkerDbPort.step] at h
    split at h
    · next hp =>
      obtain ⟨w, hw, rfl⟩ := Option.map_eq_some_iff.mp h
      exact hi.setWorker (·.leave hw) (hi.holds p hp)
    · cases h
  | openFile path spawned =>
    obtain ⟨hi', he, hnext, hpc⟩ := hi.entry path
    obtain ⟨hi'', hnew⟩ : Inv (s.attach path) ∧ Holds (s.attach path) (s.entry path).1.next := hi'.count he
    have hno : ∀ c, ((s.attach path).pc c).port ≠ some s.next := fun c hc =>
      Nat.lt_irrefl _ (hi.active c s.next (hpc ▸ hc)).1
    rw [hnext] at hnew
    have self : (s.attach path).ports s.next = ⟨path, (s.entry path).2.rt, { closed := true }, true⟩ := by
      rw [← hnext]; exact Function.update_self ..
    simp only [WorkerDbPort.step] at h
    split at h <;> cases h
    · exact hi''.setPort rfl rfl (fun c hc => absurd hc (hno c)) (.inl hnew)
        fun c hc => absurd (by rw [hc]; rfl) (hno c)
    · have hset : Settled (s.attach path) s.next := by
        simp only [Settled, self]
        exact ⟨trivial, fun _ => ⟨rfl, rfl⟩⟩
      have := hi''.releaseFile hnew hset hno
      rwa [show ((s.attach path).ports s.next).path = path by rw [self]] at this
  | close c p =>
    simp only [WorkerDbPort.step] at h
    split at h
    · next hpc =>
      split at h <;> cases h
      next hp =>
      split
      · exact hi.goto (by simp [Pc.port]) (by simp) (by simp [Pc.port])
      · next hopen =>
        have hholds : Holds s p := by
          rcases hi.holds p hp with h | h
          · exact h
          · exact absurd h.1 hopen
        have hnone : ∀ d, (s.pc d).port ≠ some p := fun d hd => hopen (hi.active d p hd).2.1
        have hi' : Inv (s.setPort p { s.ports p with closed := true }) :=
          hi.setPort rfl rfl (fun _ _ => rfl) (.inl hholds) fun d hd => absurd (by rw [hd]; rfl) (hnone d)
        refine hi'.goto (fun q hq => ?_) (by simp) fun q d hq hd => ?_
        · cases hq
          refine ⟨hp, by rw [setPort_self], ?_⟩
          simp only [Holds, setPort_self]
          exact hholds
        · cases hq
          exact absurd hd (hnone d)
    · cases h
  | stop c e =>
    simp only [WorkerDbPort.step] at h
    split at h
    · next p hpc =>
      have hport : (s.pc c).port = some p := by rw [hpc]; rfl
      obtain ⟨hp, hclosed, hholds⟩ := hi.active c p hport
      have moved : ∀ {w : SqliteWorker} {t : Sys}, Inv t → t.next = s.next → t.pc = s.pc → t.files = s.files →
          t.ports p = { s.ports p with worker := w } →
          ((t.rts (s.ports p).rt).threw = false → w.Stopped) → Inv (t.goto c (.releasing p)) := by
        intro w t ht hn hpcs hfiles hports hw
        refine ht.goto (fun q hq => ?_) (fun q hq => ?_) fun q d hq hd => ?_
        · cases hq
          refine ⟨hn ▸ hp, by rw [hports]; exact hclosed, ?_⟩
          simp only [Holds, hports, hfiles]
          exact hholds
        · cases hq
          exact ⟨by rw [hports]; exact hclosed, by rw [hports]; exact hw⟩
        · cases hq
          exact hi.unique d c p (hpcs ▸ hd) hport
      split at h <;> cases h
      · next w hw =>
        exact moved (hi.setWorker (·.stop hw) (.inl hholds)) rfl rfl rfl setPort_self
          fun _ => SqliteWorker.stop_returned hw
      · next w hw =>
        refine moved ((hi.setWorker (·.stop hw) (.inl hholds)).noteThrow _) rfl rfl rfl setPort_self
          fun ht => ?_
        simp only [Sys.noteThrow, Function.update_self] at ht
        cases ht
    · cases h
  | release c =>
    simp only [WorkerDbPort.step] at h
    split at h <;> cases h
    next p hpc =>
    have hport : (s.pc c).port = some p := by rw [hpc]; rfl
    have hi' : Inv (s.goto c .done) := hi.goto (by simp [Pc.port]) (by simp) (by simp [Pc.port])
    refine hi'.releaseFile (p := p) (hi.active c p hport).2.2 (hi.stopped c p hpc) fun d hd => ?_
    by_cases hdc : d = c
    · subst hdc; simp [Sys.goto, Pc.port] at hd
    · simp only [Sys.goto, Function.update_of_ne hdc] at hd
      exact hdc (hi.unique d c p hd hport)

/-- Every run of ports on any paths, opened and closed in any order. -/
theorem close_run_safe (labels : List Label) : EveryState step Safe {} labels :=
  everyState_of_invariant (fun _ _ _ hi _ hs => hi.step hs) (fun _ hi => hi.safe) inv_start everyStep_true

end WorkerDbPort

end Sqlol
