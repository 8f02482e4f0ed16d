/-
A submission on a worker's channel ends: while it is under way the driver or the worker
can move, and the two have fewer than three thousand moves before it returns, however
they are interleaved and however often SQLite is busy. The same for a worker that is
stopped.

`left` counts the moves. The one that is asleep counts for nothing until the other
wakes it, so whoever is to wake it counts for more.
-/
import Sqlol.ChannelAnswers

namespace Sqlol

namespace WorkerChannel

/-- A move of the driver or of the worker, before the deadline. -/
def Moves : Label → Prop
  | .driver | .worker | .exec .. => True
  | _ => False

/-- The moves a worker has left, with a request before it (`req` is 1) and without. -/
def Worker.left (requested asleep : Bool) : Worker → Nat
  | .opening => bif requested then 18 else 3
  | .load => bif requested then 17 else 2
  | .wait _ => bif requested then 19 else 1
  | .parked => bif requested then 18 else bif asleep then 0 else 3
  | .notify => bif requested then 22 else 7
  | .clear => 16
  | .zero => 15
  | .exec => 14
  | .count => 13
  | .finish _ => 12
  | .ended => 0

/-- The moves an attempt has left, while `done` is what it was and after it is not. -/
def Pc.left (same asleep : Bool) : Pc → Nat
  | .pause => 29
  | .write => 28
  | .readDone => 27
  | .post _ => 26
  | .wake _ => 7
  | .check _ => bif same then 3 else 2
  | .deadline _ => bif same then 2 else 5
  | .wait _ => bif same then 1 else 4
  | .parked _ => bif asleep then 0 else bif same then 4 else 3
  | .collect => 1

/-- What `submitOnce` compares `done` with. -/
def Pc.prevDone : Pc → Option UInt32
  | .post seen | .wake seen | .check seen | .deadline seen | .wait seen | .parked seen => some seen
  | .write | .readDone | .collect | .pause => none

/-- How many steps of the driver and the worker are left of a submission, at most. -/
def Channel.left (s : Channel) : Nat :=
  match s.driver with
  | .inCall _ tries pc =>
    29 * (100 - tries.length) + pc.left (pc.prevDone == some (s.futex.word .done)) (s.futex.Asleep .driver) +
      s.worker.left (s.futex.word .req == 1) (s.futex.Asleep .worker)
  | .idle | .returned _ => 0

section
variable (w : Worker) (pc : Pc) (b b' c : Bool)

theorem Worker.left_le : w.left b c ≤ 22 := by
  cases w <;> cases b <;> cases c <;> simp [Worker.left]

/-- A request, and a wake-up, give the worker as many moves at most. -/
theorem Worker.left_requested : w.left true c ≤ w.left false c + 18 := by
  cases w <;> cases c <;> simp [Worker.left]

theorem Worker.left_woken : w.left b false ≤ w.left b c + 3 := by
  cases w <;> cases b <;> cases c <;> simp [Worker.left]

theorem Pc.left_le : pc.left b c ≤ 29 := by
  cases pc <;> cases b <;> cases c <;> simp [Pc.left]

/-- A count of `done`, and a wake-up, give the driver as many. -/
theorem Pc.left_counted : pc.left b' c ≤ pc.left b c + 3 := by
  cases pc <;> cases b <;> cases b' <;> cases c <;> simp [Pc.left]

theorem Pc.left_woken : pc.left b false ≤ pc.left b c + 4 := by
  cases pc <;> cases b <;> cases c <;> simp [Pc.left]

end

theorem Channel.left_lt (s : Channel) : s.left < 3000 := by
  unfold Channel.left
  split
  · next tries pc _ =>
    have hworker := s.worker.left_le (s.futex.word .req == 1) (s.futex.Asleep .worker)
    have hpc := pc.left_le (pc.prevDone == some (s.futex.word .done)) (s.futex.Asleep .driver)
    omega
  all_goals omega

section
variable {s s' : Channel} {sql : Text} {tries : List Reply} {pc : Pc}

/-- While a submission is under way nobody has stopped the worker. -/
theorem Inv.req_eq (hs : Inv s) (hd : s.driver = .inCall sql tries pc) :
    s.futex.word .req = 0 ∨ s.futex.word .req = 1 := by
  have hagree := hs.agree
  rw [hd] at hagree
  obtain ⟨hstop, -, prevDone, p, -, hp⟩ := hagree
  cases p with
  | quiet => exact .inl (by simpa [hstop] using hp.1)
  | pending => exact .inr hp.1
  | taken | ran | answered => exact .inl hp.1

theorem Inv.req_of_finish (hs : Inv s) {done : UInt32} (hw : s.worker = .finish done)
    (hd : s.driver = .inCall sql tries pc) :
    s.futex.word .req = 0 := by
  have hagree := hs.agree
  rw [hd] at hagree
  obtain ⟨-, -, prevDone, p, -, hp⟩ := hagree
  cases p <;> simp only [InPhase, hw, Worker.Rests, reduceCtorEq, false_and, and_false, or_self] at hp
  exact hp.1

theorem left_work (hs : Inv s) (hd : s.driver = .inCall sql tries pc) (h : s.work s.worker = some s') :
    s'.left < s.left := by
  cases hw : s.worker with
  | opening =>
    rw [hw] at h
    cases h
    simp only [Channel.left, hd, hw, Worker.left]
    cases (s.futex.word .req == 1) <;> simp only [cond_true, cond_false] <;> omega
  | zero | count =>
    rw [hw] at h
    cases h
    simp only [Channel.left, hd, hw, Worker.left]
    omega
  | load =>
    rw [hw] at h
    cases h
    simp only [Channel.left, hd, hw]
    rcases hs.req_eq hd with hreq | hreq <;> simp [hreq, Worker.left]
  | wait r =>
    obtain rfl := hs.wait_zero r hw
    rw [hw] at h
    cases h
    simp only [Channel.left, hd, hw, Futex.wait_word, Futex.asleep_wait]
    rcases hs.req_eq hd with hreq | hreq <;> simp [hreq, Worker.left]
  | parked =>
    rw [hw] at h
    simp only [Channel.work] at h
    split at h
    · cases h
    · next hawake =>
      cases h
      simp only [Channel.left, hd, hw, Worker.left, hawake, decide_false, cond_false]
      cases (s.futex.word .req == 1) <;> simp
  | clear =>
    rw [hw] at h
    cases h
    have hdone : (s.futex.store .req 0).word .done = s.futex.word .done := Futex.store_word_ne (by decide)
    simp only [Channel.left, hd, hw, Worker.left, hdone, Futex.asleep_store]
    omega
  | finish done =>
    have hreq := hs.req_of_finish hw hd
    rw [hw] at h
    cases h
    have hkeep : (s.futex.store .done (done + 1)).word .req = s.futex.word .req := Futex.store_word_ne (by decide)
    have hcount := pc.left_counted (pc.prevDone == some (s.futex.word .done))
      (pc.prevDone == some ((s.futex.store .done (done + 1)).word .done)) (s.futex.Asleep .driver)
    simp only [Channel.left, hd, hw, Worker.left, hkeep, hreq, Futex.asleep_store]
    simp only [show ((0 : UInt32) == 1) = false by decide, cond_false]
    omega
  | notify =>
    rw [hw] at h
    cases h
    have hawake : ¬ (s.futex.notify .done 1).Asleep .driver := not_asleep_notify hs.sleeps .driver
    have hwoken := pc.left_woken (pc.prevDone == some (s.futex.word .done)) (s.futex.Asleep .driver)
    simp only [Channel.left, hd, hw, Worker.left, hawake, decide_false, Futex.notify_word]
    cases (s.futex.word .req == 1) <;> simp only [cond_true, cond_false] <;> omega
  | exec | ended => rw [hw] at h; cases h

theorem left_exec (hd : s.driver = .inCall sql tries pc) (hw : s.worker = .exec) (atoll : Text → Int)
    (rows : List (List (Option Text))) (rc : Int) : (s.exec atoll rows rc).left < s.left := by
  simp only [Channel.exec, Channel.left, hd, hw, Worker.left]
  omega

theorem left_drive (hs : Inv s) (hd : s.driver = .inCall sql tries pc) (h : s.drive sql tries pc = some s') :
    s'.left < s.left := by
  cases pc with
  | write | readDone | pause =>
    cases h
    simp only [Channel.left, hd, Pc.left, Channel.putSql]
    omega
  | deadline seen =>
    cases h
    simp only [Channel.left, hd, Pc.left, Pc.prevDone]
    cases (some seen == some (s.futex.word .done)) <;> simp
  | post seen =>
    cases h
    have hrequested := s.worker.left_requested (s.futex.Asleep .worker)
    have hquiet : s.futex.word .req = 0 := by
      have hagree := hs.agree
      rw [hd] at hagree
      obtain ⟨hstop, -, prevDone, p, hpc, hp⟩ := hagree
      obtain ⟨-, rfl⟩ := hpc
      simpa [hstop] using hp.1
    simp only [Channel.left, hd, Pc.left, Futex.store_word_self, Futex.asleep_store, hquiet]
    simp only [show ((0 : UInt32) == 1) = false by decide, beq_self_eq_true]
    omega
  | wake seen =>
    cases h
    have hawake : ¬ (s.futex.notify .req 1).Asleep .worker := not_asleep_notify hs.sleeps .worker
    have hwoken := s.worker.left_woken (s.futex.word .req == 1) (s.futex.Asleep .worker)
    simp only [Channel.left, hd, Pc.left, hawake, decide_false, Futex.notify_word]
    cases ((Pc.check seen).prevDone == some (s.futex.word .done)) <;> simp only [cond_true, cond_false] <;> omega
  | check seen =>
    cases h
    simp only [Channel.left, hd, Pc.left, Pc.prevDone]
    by_cases hdone : s.futex.word .done = seen
    · simp [hdone]
    · have hbeq : (seen == s.futex.word .done) = false := beq_false_of_ne (Ne.symm hdone)
      simp [hdone, hbeq]
  | wait seen =>
    cases h
    have hawake : ¬ s.futex.Asleep .driver := hs.sleeps.driver_awake (by rw [hd]; rintro _ _ _ ⟨⟩)
    simp only [Channel.left, hd, Pc.left, Pc.prevDone, Futex.wait_word, Futex.asleep_wait, hawake]
    by_cases hdone : s.futex.word .done = seen
    · simp [hdone]
    · have hbeq : (seen == s.futex.word .done) = false := beq_false_of_ne (Ne.symm hdone)
      simp [hdone, hbeq]
  | parked seen =>
    simp only [Channel.drive] at h
    split at h
    · cases h
    · next hawake =>
      cases h
      simp only [Channel.left, hd, Pc.left, Pc.prevDone, hawake, decide_false, cond_false]
      cases (some seen == some (s.futex.word .done)) <;> simp
  | collect =>
    cases h
    simp only [Channel.collect]
    split
    · next hagain =>
      have hlen := hagain.2
      simp only [Channel.left, hd, Pc.left, List.length_append, List.length_cons, List.length_nil]
      omega
    · simp only [Channel.left, hd, Pc.left]
      omega

/-! ## Nobody waits for nothing -/

theorem work_of_awake (hawake : ¬ s.futex.Asleep .worker) (hexec : s.worker ≠ .exec) (hended : s.worker ≠ .ended) :
    ∃ s', s.work s.worker = some s' := by
  cases hw : s.worker with
  | exec => exact absurd hw hexec
  | ended => exact absurd hw hended
  | parked => exact ⟨_, if_neg hawake⟩
  | opening | load | wait | clear | zero | count | finish | notify => exact ⟨_, rfl⟩

theorem drive_of_awake (hawake : ¬ s.futex.Asleep .driver) : ∃ s', s.drive sql tries pc = some s' := by
  cases pc with
  | parked => exact ⟨_, if_neg hawake⟩
  | write | readDone | post | wake | check | deadline | wait | collect | pause => exact ⟨_, rfl⟩

/-- A worker asleep while `req` is not 0 is to be woken. -/
theorem Inv.owed_of_asleep (hs : Inv s) (ha : s.futex.Asleep .worker) (hreq : s.futex.word .req ≠ 0) :
    s.stopOwed = true ∨ ∃ sql tries seen, s.driver = .inCall sql tries (.wake seen) := by
  obtain ⟨x, hx, hxt⟩ := ha
  have hat := hs.sleeps.atWait x hx
  have haddr : x.addr = .req := (hs.sleeps.each.own x hx).trans (by rw [hxt]; rfl)
  rw [AtWait, hxt] at hat
  rcases hs.sleeps.covered x hx with hseen | howed
  · rw [haddr, hat.2] at hseen
    exact absurd hseen hreq
  · rw [haddr] at howed
    exact howed

/-- A driver asleep while `done` is not what it was is about to be woken. -/
theorem Inv.notify_of_asleep (hs : Inv s) {seen : UInt32} (hd : s.driver = .inCall sql tries (.parked seen))
    (ha : s.futex.Asleep .driver) : s.futex.word .done = seen ∨ s.worker = .notify := by
  obtain ⟨x, hx, hxt⟩ := ha
  have hat := hs.sleeps.atWait x hx
  have haddr : x.addr = .done := (hs.sleeps.each.own x hx).trans (by rw [hxt]; rfl)
  rw [AtWait, hxt] at hat
  obtain ⟨sql', tries', hd'⟩ := hat
  cases hd.symm.trans hd'
  rcases hs.sleeps.covered x hx with hseen | howed
  · exact .inl (haddr ▸ hseen)
  · rw [haddr] at howed
    exact .inr howed

/-- While a submission is under way the driver or the worker can move. -/
theorem Inv.moves (atoll : Text → Int) (hs : Inv s) (hd : s.driver = .inCall sql tries pc) :
    ∃ l s', Moves l ∧ step atoll s l = some s' := by
  by_cases ha : s.futex.Asleep .driver
  case neg =>
    obtain ⟨s', h⟩ : ∃ s', s.drive sql tries pc = some s' := drive_of_awake ha
    exact ⟨.driver, s', trivial, by simp only [step, hd, h]⟩
  -- The driver sleeps, so it is the worker that moves.
  suffices hmove : s.worker = .exec ∨ ∃ s', s.work s.worker = some s' by
    rcases hmove with hexec | ⟨s', h⟩
    · exact ⟨.exec [] 0, _, trivial, if_pos hexec⟩
    · exact ⟨.worker, s', trivial, h⟩
  obtain ⟨seen, rfl⟩ : ∃ seen, pc = .parked seen := by
    by_contra hno
    exact hs.sleeps.driver_awake (fun sql' tries' seen h => hno ⟨seen, by cases hd.symm.trans h; rfl⟩) ha
  rcases hs.notify_of_asleep hd ha with hdone | hnotify
  · have hagree := hs.agree
    rw [hd] at hagree
    obtain ⟨hstop, -, prevDone, p, ⟨rfl, hne⟩, hp⟩ := hagree
    cases p with
    | quiet => exact absurd rfl hne
    | pending =>
      obtain ⟨hreq, -, hrest, -⟩ := hp
      refine .inr (work_of_awake (fun hasleep => ?_) ?_ ?_)
      · rcases hs.owed_of_asleep hasleep (by rw [hreq]; decide) with howed | ⟨_, _, _, hd'⟩
        · exact absurd (hs.sleeps.owes howed) (by rw [hstop]; decide)
        · cases hd.symm.trans hd'
      · intro hw
        simp [hw, Worker.Rests] at hrest
      · intro hw
        simp [hw, Worker.Rests] at hrest
    | taken =>
      rcases hp.2.2.1 with hw | hw
      · exact .inr (by rw [hw]; exact ⟨_, rfl⟩)
      · exact .inl hw
    | ran => rcases hp.2.2.1 with hw | hw <;> exact .inr (by rw [hw]; exact ⟨_, rfl⟩)
    | answered =>
      have hcount := hp.2.1.symm.trans hdone
      simp at hcount
  · exact .inr (by rw [hnotify]; exact ⟨_, rfl⟩)

end

/-- A move costs one, while the submission is under way. -/
theorem left_step {atoll : Text → Int} {s s' : Channel} {l : Label} (hs : Inv s) (hout : s.driver.out = false)
    (hl : Moves l) (h : step atoll s l = some s') : s'.left < s.left := by
  cases hd : s.driver with
  | idle | returned => rw [hd] at hout; cases hout
  | inCall sql tries pc =>
    cases l with
    | driver =>
      simp only [step, hd] at h
      exact left_drive hs hd h
    | worker => exact left_work hs hd h
    | exec rows rc =>
      simp only [step] at h
      split at h
      · next hw =>
        cases h
        exact left_exec hd hw atoll rows rc
      · cases h
    | submit | giveUp | timeout | leave | stop | stopWake => exact hl.elim

theorem Moves.careful {l : Label} (hl : Moves l) (s : Channel) : Careful s l := by
  cases l with
  | driver | worker | exec => trivial
  | submit | giveUp | timeout | leave | stop | stopWake => exact hl.elim

theorem left_run {atoll : Text → Int} : ∀ {ms : List Label} {s s' : Channel}, Inv s → (∀ l ∈ ms, Moves l) →
    EveryState (step atoll) (·.driver.out = false) s ms → run (step atoll) s ms = some s' → ms.length + s'.left ≤ s.left
  | [], s, s', _, _, _, h => by
    cases h
    simp
  | l :: ms, s, s', hs, hms, hout, h => by
    simp only [run, Option.bind_eq_some_iff] at h
    obtain ⟨m, hm, h⟩ := h
    have hl := hms l List.mem_cons_self
    have hlt := left_step hs hout.1 hl hm
    have hrest := left_run (inv_step atoll hs (hl.careful s) hm) (fun l hl => hms l (List.mem_cons_of_mem _ hl))
      (hout.2 m hm) h
    rw [List.length_cons]
    omega

theorem inv_run {atoll : Text → Int} {ls : List Label} {s : Channel} (hok : EveryStep (step atoll) Careful {} ls)
    (hrun : run (step atoll) {} ls = some s) : Inv s :=
  (everyState_of_invariant (fun _ _ _ hs hok h => inv_step atoll hs hok h) (fun _ => id) inv_init hok).last hrun

/-- No wake-up is lost: a submission that is under way can go on, and it returns before
the driver and the worker have made three thousand moves. -/
theorem submission_returns {atoll : Text → Int} {ls : List Label} {s : Channel}
    (hok : EveryStep (step atoll) Careful {} ls) (hrun : run (step atoll) {} ls = some s)
    (hcall : s.driver.out = false) :
    (∃ l s', Moves l ∧ step atoll s l = some s') ∧
      ∀ ms s', (∀ l ∈ ms, Moves l) → run (step atoll) s ms = some s' →
        EveryState (step atoll) (·.driver.out = false) s ms → ms.length < 3000 := by
  have hs := inv_run hok hrun
  constructor
  · cases hd : s.driver with
    | idle | returned => rw [hd] at hcall; cases hcall
    | inCall sql tries pc => exact hs.moves atoll hd
  · intro ms s' hms h hout
    have hle := left_run hs hms hout h
    have hlt := s.left_lt
    omega

theorem busy_once_returns :
    ∃ s, run (step fun _ => 7) {} (busyOnce.take 12) = some s ∧ s.driver.out = false ∧
      ∃ l s', Moves l ∧ step (fun _ => 7) s l = some s' :=
  ⟨_, rfl, rfl, (@submission_returns _ (busyOnce.take 12) _ (by decide) rfl rfl).1⟩

/-! ## The stop -/

/-- The steps a stopped worker has left. -/
def Worker.stopLeft : Worker → Nat
  | .wait _ => 3
  | .opening | .parked | .notify => 2
  | .load => 1
  | .clear | .zero | .exec | .count | .finish _ | .ended => 0

/-- How many steps are left behind a stop. -/
def Channel.stopLeft (s : Channel) : Nat := s.worker.stopLeft + bif s.stopOwed then 1 else 0

section
variable {s s' : Channel}

/-- Once stopped the worker has no request left. -/
theorem Inv.rests_of_stopped (hs : Inv s) (hstop : s.stopped = true) :
    s.futex.word .req = 3 ∧ s.worker.Rests true ∧ s.driver.out = true := by
  have hagree := hs.agree
  cases hd : s.driver with
  | idle | returned =>
    rw [hd] at hagree
    obtain ⟨prevDone, hreq, -, hrest, -⟩ := hagree
    exact ⟨by simpa [hstop] using hreq, by rwa [hstop] at hrest, rfl⟩
  | inCall =>
    rw [hd] at hagree
    exact absurd hagree.1 (by rw [hstop]; decide)

theorem Inv.stop_moves (atoll : Text → Int) (hs : Inv s) (hstop : s.stopped = true) (hw : s.worker ≠ .ended) :
    ∃ l s', (l = .worker ∨ l = .stopWake) ∧ step atoll s l = some s' := by
  obtain ⟨hreq, hrest, hout⟩ := hs.rests_of_stopped hstop
  by_cases ha : s.futex.Asleep .worker
  · rcases hs.owed_of_asleep ha (by rw [hreq]; decide) with howed | ⟨_, _, _, hd⟩
    · exact ⟨.stopWake, _, .inr rfl, if_pos howed⟩
    · rw [hd] at hout
      cases hout
  · obtain ⟨s', h⟩ := work_of_awake ha hrest.idle.2 hw
    exact ⟨.worker, s', .inl rfl, h⟩

theorem stopLeft_step {atoll : Text → Int} {l : Label} (hs : Inv s) (hstop : s.stopped = true)
    (hl : l = .worker ∨ l = .stopWake) (h : step atoll s l = some s') :
    s'.stopLeft < s.stopLeft ∧ s'.stopped = true := by
  obtain ⟨hreq, hrest, -⟩ := hs.rests_of_stopped hstop
  rcases hl with rfl | rfl
  · simp only [step] at h
    cases hw : s.worker <;> rw [hw] at h hrest
    case ended => cases h
    case parked =>
      simp only [Channel.work] at h
      split at h <;> cases h
      exact ⟨by simp [Channel.stopLeft, hw, Worker.stopLeft], hstop⟩
    case load =>
      cases h
      refine ⟨?_, hstop⟩
      simp only [Channel.stopLeft, hw, hreq]
      exact Nat.add_lt_add_right (by decide) _
    case opening | wait | notify =>
      cases h
      exact ⟨by simp [Channel.stopLeft, hw, Worker.stopLeft], hstop⟩
    case clear | zero | exec | count | finish => cases hrest
  · simp only [step] at h
    split at h
    · next howed =>
      cases h
      simp [Channel.stopLeft, howed, hstop]
    · cases h

theorem stopLeft_run {atoll : Text → Int} : ∀ {ms : List Label} {s s' : Channel}, Inv s → s.stopped = true →
    (∀ l ∈ ms, l = .worker ∨ l = .stopWake) → run (step atoll) s ms = some s' → ms.length + s'.stopLeft ≤ s.stopLeft
  | [], s, s', _, _, _, h => by
    cases h
    simp
  | l :: ms, s, s', hs, hstop, hms, h => by
    simp only [run, Option.bind_eq_some_iff] at h
    obtain ⟨m, hm, h⟩ := h
    have hl := hms l List.mem_cons_self
    have hlt := stopLeft_step hs hstop hl hm
    have hok : Careful s l := by rcases hl with rfl | rfl <;> trivial
    have hrest := stopLeft_run (inv_step atoll hs hok hm) hlt.2 (fun l hl => hms l (List.mem_cons_of_mem _ hl)) h
    rw [List.length_cons]
    omega

/-- A worker stopped between two submissions closes its connection: it can go on until
it has, and has four steps at most before it. -/
theorem stopped_worker_ends {atoll : Text → Int} {ls : List Label} {s : Channel}
    (hok : EveryStep (step atoll) Careful {} ls) (hrun : run (step atoll) {} ls = some s) (hstop : s.stopped = true) :
    (s.worker ≠ .ended → ∃ l s', (l = .worker ∨ l = .stopWake) ∧ step atoll s l = some s') ∧
      ∀ ms s', (∀ l ∈ ms, l = .worker ∨ l = .stopWake) → run (step atoll) s ms = some s' → ms.length ≤ 4 := by
  have hs := inv_run hok hrun
  refine ⟨hs.stop_moves atoll hstop, fun ms s' hms h => ?_⟩
  have hle := stopLeft_run hs hstop hms h
  have hfour : s.stopLeft ≤ 4 := by
    have hworker : s.worker.stopLeft ≤ 3 := by
      cases s.worker <;> simp [Worker.stopLeft]
    simp only [Channel.stopLeft]
    cases s.stopOwed <;> simp only [cond_true, cond_false] <;> omega
  omega

theorem busy_once_stops :
    ∃ s, run (step fun _ => 7) {} (busyOnce.take 38) = some s ∧ s.stopped = true ∧
      (s.worker ≠ .ended → ∃ l s', (l = .worker ∨ l = .stopWake) ∧ step (fun _ => 7) s l = some s') :=
  ⟨_, rfl, rfl, (@stopped_worker_ends _ (busyOnce.take 38) _ (by decide) rfl rfl).1⟩

end

end WorkerChannel

end Sqlol
