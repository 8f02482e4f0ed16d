/-
What a worker's channel gives its driver, in every run in which no submission is given
up and `close` comes between two submissions: each statement posted is run once and in
the order of the posts, and the reply a submission collects is the one its own
statement got. No wake-up is lost: while a submission is under way one of the two can
move, and neither goes round for ever.

A request passes through five phases. It is quiet before the post; pending until the
worker takes the request; taken until SQLite has run it; ran until `done` is counted
up; answered until the driver has collected. The worker moves a request on through
the middle ones, whatever the driver does meanwhile, and is done with its own memory
in the last.
-/
import Sqlol.WorkerChannel

namespace Sqlol

namespace WorkerChannel

/-- No submission is under way. -/
def Driver.out : Driver → Bool
  | .idle | .returned _ => true
  | .inCall .. => false

/-- No submission is given up, and `close` comes between two of them and last. -/
def Careful (s : Channel) : Label → Prop
  | .giveUp => False
  | .stop => s.driver.out = true
  | .submit _ => s.stopped = false
  | _ => True

instance (s : Channel) : ∀ l, Decidable (Careful s l)
  | .giveUp => inferInstanceAs (Decidable False)
  | .stop => inferInstanceAs (Decidable (s.driver.out = true))
  | .submit _ => inferInstanceAs (Decidable (s.stopped = false))
  | .driver | .timeout | .leave | .worker | .exec .. | .stopWake => inferInstanceAs (Decidable True)

/-- Where a statement is that the driver has posted. -/
inductive Phase where
  | quiet
  | pending
  | taken
  | ran
  | answered
  deriving DecidableEq

/-- The worker waits for a request; it may still have a notification to give. -/
def Worker.Rests (stopped : Bool) : Worker → Prop
  | .opening | .load | .parked | .notify => True
  | .wait r => r = 0
  | .ended => stopped = true
  | .clear | .zero | .exec | .count | .finish _ => False

/-- The request is in this phase: `past` is what had been collected before it. -/
def InPhase (s : Channel) (past : List (Text × Reply)) (sql : Text) (prevDone : UInt32) : Phase → Prop
  | .quiet =>
    s.futex.word .req = (if s.stopped then 3 else 0) ∧ s.futex.word .done = prevDone ∧ s.worker.Rests s.stopped ∧
      s.executed = past ∧ s.posted = past.map Prod.fst
  | .pending =>
    s.futex.word .req = 1 ∧ s.futex.word .done = prevDone ∧ (s.worker.Rests false ∨ s.worker = .clear) ∧
      cString s.sql = sql ∧ s.executed = past ∧ s.posted = past.map Prod.fst ++ [sql]
  | .taken =>
    s.futex.word .req = 0 ∧ s.futex.word .done = prevDone ∧ (s.worker = .zero ∨ s.worker = .exec) ∧
      cString s.sql = sql ∧ s.executed = past ∧ s.posted = past.map Prod.fst ++ [sql]
  | .ran =>
    s.futex.word .req = 0 ∧ s.futex.word .done = prevDone ∧ (s.worker = .count ∨ s.worker = .finish prevDone) ∧
      s.executed = past ++ [(sql, s.reply)] ∧ s.posted = s.executed.map Prod.fst
  | .answered =>
    s.futex.word .req = 0 ∧ s.futex.word .done = prevDone + 1 ∧ s.worker.Rests false ∧
      s.executed = past ++ [(sql, s.reply)] ∧ s.posted = s.executed.map Prod.fst

/-- The phases the driver can find its request in. -/
def Pc.Allows : Pc → UInt32 → Phase → Prop
  | .write, _, p | .readDone, _, p | .pause, _, p => p = .quiet
  | .post seen, prevDone, p => seen = prevDone ∧ p = .quiet
  | .wake seen, prevDone, p | .check seen, prevDone, p | .deadline seen, prevDone, p | .wait seen, prevDone, p
  | .parked seen, prevDone, p => seen = prevDone ∧ p ≠ .quiet
  | .collect, _, p => p = .answered

/-- The statement is in the channel between the write and the post. -/
def Pc.Written : Pc → Prop
  | .readDone | .post _ => True
  | _ => False

/-- The two ends agree on the request. -/
def Agree (s : Channel) (past : List (Text × Reply)) : Driver → Prop
  | .idle | .returned _ => ∃ prevDone, InPhase s past [] prevDone .quiet
  | .inCall sql _ pc =>
    s.stopped = false ∧ (pc.Written → cString s.sql = cString sql) ∧
      ∃ prevDone p, pc.Allows prevDone p ∧ InPhase s past (cString sql) prevDone p

/-- The addresses that are still to be notified. -/
def owed (s : Channel) : Set Word
  | .req => s.stopOwed = true ∨ ∃ sql tries seen, s.driver = .inCall sql tries (.wake seen)
  | .done => s.worker = .notify

/-- The word that each party waits on. -/
def home : Party → Word
  | .driver => .done
  | .worker => .req

theorem home_injective : Function.Injective home := by
  intro t u h
  cases t <;> cases u <;> first | rfl | cases h

/-- Whoever sleeps is where the source sleeps. -/
def AtWait (s : Channel) (x : Sleeper Word Party UInt32) : Prop :=
  match x.thread with
  | .driver => ∃ sql tries, s.driver = .inCall sql tries (.parked x.seen)
  | .worker => s.worker = .parked ∧ x.seen = 0

/-- Who sleeps at which address, and which notifications are owed. -/
structure Sleeps (s : Channel) : Prop where
  covered : s.futex.Covered (owed s)
  each : s.futex.OneEach home
  atWait : ∀ x ∈ s.futex.sleepers, AtWait s x
  owes : s.stopOwed = true → s.stopped = true

/-- A call that returned: busy every time but the last, and then only at the hundred-and-first. -/
def Tried (rs : List Reply) : Prop :=
  ∃ tries r, rs = tries ++ [r] ∧ (∀ t ∈ tries, t.rc = 5) ∧ tries.length ≤ 100 ∧ (r.rc = 5 → tries.length = 100)

/-- What has been collected so far, call by call. -/
structure Returns (s : Channel) : Prop where
  calls : ∀ call ∈ s.calls, Tried call.2
  tries : ∀ sql tries pc, s.driver = .inCall sql tries pc → (∀ t ∈ tries, t.rc = 5) ∧ tries.length ≤ 100
  outcome : ∀ r, s.driver = .returned (some r) → ∃ calls sql tries, s.calls = calls ++ [(sql, tries ++ [r])]

/-- What holds of the channel in every run. -/
structure Inv (s : Channel) : Prop where
  agree : Agree s s.collected s.driver
  sleeps : Sleeps s
  returns : Returns s

/-! ## The worker -/

/-- Where the worker goes from the load of `req`. -/
def afterLoad (r : UInt32) : Worker := if r = 1 then .clear else if r = 3 then .ended else .wait r

/-- At rest the worker changes no word, and leaves its rest only by what it loads. -/
theorem work_of_rests {s s' : Channel} {stopped : Bool} (hr : s.worker.Rests stopped)
    (h : s.work s.worker = some s') :
    ∃ f w, s' = { s with futex := f, worker := w } ∧ f.word = s.futex.word ∧
      (w.Rests stopped ∨ w = afterLoad (s.futex.word .req)) := by
  cases hw : s.worker with
  | opening =>
    rw [hw] at h
    cases h
    exact ⟨s.futex, .load, rfl, rfl, .inl trivial⟩
  | load =>
    rw [hw] at h
    cases h
    exact ⟨s.futex, _, rfl, rfl, .inr rfl⟩
  | wait r =>
    rw [hw] at h
    cases h
    refine ⟨_, .parked, rfl, ?_, .inl trivial⟩
    simp only [Futex.wait]
    split <;> rfl
  | parked =>
    rw [hw] at h
    simp only [Channel.work] at h
    split at h
    · cases h
    · cases h
      exact ⟨s.futex, .load, rfl, rfl, .inl trivial⟩
  | notify =>
    rw [hw] at h
    cases h
    exact ⟨_, .load, rfl, rfl, .inl trivial⟩
  | ended => rw [hw] at h; cases h
  | clear | zero | exec | count | finish => rw [hw] at hr; cases hr

/-- A step of the worker leaves a request where it is or moves it on. -/
inductive Phase.Next : Phase → Phase → Prop where
  | stay (p) : Next p p
  | take : Next .pending .taken
  | run : Next .taken .ran
  | answer : Next .ran .answered

theorem Pc.Allows.next {pc : Pc} {prevDone : UInt32} {p p' : Phase} (h : pc.Allows prevDone p) (hn : p.Next p') :
    pc.Allows prevDone p' := by
  cases hn with
  | stay => exact h
  | take | run | answer => cases pc <;> simp_all [Pc.Allows]

section
variable {s s' : Channel} {past : List (Text × Reply)} {sql : Text} {prevDone : UInt32} {p : Phase}

theorem inPhase_work (hs : InPhase s past sql prevDone p) (h : s.work s.worker = some s') :
    ∃ p', p.Next p' ∧ InPhase s' past sql prevDone p' := by
  cases p with
  | quiet =>
    obtain ⟨hreq, hdone, hrest, hexec, hposted⟩ := hs
    obtain ⟨f, w, rfl, hword, hw⟩ := work_of_rests hrest h
    refine ⟨.quiet, .stay _, by simpa only [hword] using hreq, by simpa only [hword] using hdone, ?_, hexec, hposted⟩
    rcases hw with hw | rfl
    · exact hw
    · rw [hreq]
      cases hstop : s.stopped <;> simp [afterLoad, Worker.Rests]
  | pending =>
    obtain ⟨hreq, hdone, hrest | hclear, hsql, hexec, hposted⟩ := hs
    · obtain ⟨f, w, rfl, hword, hw⟩ := work_of_rests hrest h
      refine ⟨.pending, .stay _, by simpa only [hword] using hreq, by simpa only [hword] using hdone, ?_, hsql, hexec,
        hposted⟩
      refine hw.imp_right fun hw => ?_
      rw [hw, hreq]
      rfl
    · rw [hclear] at h
      cases h
      exact ⟨.taken, .take, Futex.store_word_self, by rwa [Futex.store_word_ne (by decide)], .inl rfl, hsql, hexec,
        hposted⟩
  | taken =>
    obtain ⟨hreq, hdone, hzero | hexec', hsql, hexec, hposted⟩ := hs
    · rw [hzero] at h
      cases h
      exact ⟨.taken, .stay _, hreq, hdone, .inr rfl, hsql, hexec, hposted⟩
    · rw [hexec'] at h
      cases h
  | ran =>
    obtain ⟨hreq, hdone, hcount | hfinish, hexec, hposted⟩ := hs
    · rw [hcount] at h
      cases h
      exact ⟨.ran, .stay _, hreq, hdone, .inr (by rw [hdone]), hexec, hposted⟩
    · rw [hfinish] at h
      cases h
      exact ⟨.answered, .answer, by rwa [Futex.store_word_ne (by decide)], Futex.store_word_self, trivial, hexec,
        hposted⟩
  | answered =>
    obtain ⟨hreq, hdone, hrest, hexec, hposted⟩ := hs
    obtain ⟨f, w, rfl, hword, hw⟩ := work_of_rests hrest h
    refine ⟨.answered, .stay _, by simpa only [hword] using hreq, by simpa only [hword] using hdone, ?_, hexec, hposted⟩
    rcases hw with hw | rfl
    · exact hw
    · rw [hreq]
      rfl

/-- `sqlite3_exec` runs in the one phase that has it, on the statement posted. -/
theorem inPhase_exec (hs : InPhase s past sql prevDone p) (hw : s.worker = .exec) (atoll : Text → Int)
    (rows : List (List (Option Text))) (rc : Int) :
    p = .taken ∧ InPhase (s.exec atoll rows rc) past sql prevDone .ran := by
  cases p with
  | taken =>
    obtain ⟨hreq, hdone, -, hsql, hexec, hposted⟩ := hs
    refine ⟨rfl, hreq, hdone, .inl rfl, ?_, ?_⟩
    · simp only [Channel.exec, hsql, hexec]
      rfl
    · simp only [Channel.exec, hsql, hexec, hposted, List.map_append, List.map_cons, List.map_nil]
  | quiet | pending | ran | answered => simp_all [InPhase, Worker.Rests]

end

/-- The worker leaves alone what the driver has and what is written down of the calls. -/
theorem work_eq {s s' : Channel} (h : s.work s.worker = some s') :
    ∃ f w c, s' = { s with futex := f, worker := w, capture := c } := by
  cases hw : s.worker <;> rw [hw] at h
  case exec | ended => cases h
  case parked =>
    simp only [Channel.work] at h
    split at h
    · cases h
    · cases h; exact ⟨_, _, _, rfl⟩
  all_goals cases h; exact ⟨_, _, _, rfl⟩

theorem agree_work {s s' : Channel} {past : List (Text × Reply)} {d : Driver} (hs : Agree s past d)
    (h : s.work s.worker = some s') : Agree s' past d := by
  cases d with
  | idle | returned =>
    obtain ⟨prevDone, hp⟩ := hs
    obtain ⟨p', hn, hp'⟩ := inPhase_work hp h
    cases hn
    exact ⟨prevDone, hp'⟩
  | inCall sql tries pc =>
    obtain ⟨hstop, hwritten, prevDone, p, hpc, hp⟩ := hs
    obtain ⟨p', hn, hp'⟩ := inPhase_work hp h
    obtain ⟨f, w, c, rfl⟩ := work_eq h
    exact ⟨hstop, hwritten, prevDone, p', hpc.next hn, hp'⟩

theorem agree_exec {s : Channel} {past : List (Text × Reply)} {d : Driver} (hs : Agree s past d)
    (hw : s.worker = .exec) (atoll : Text → Int) (rows : List (List (Option Text))) (rc : Int) :
    Agree (s.exec atoll rows rc) past d := by
  cases d with
  | idle | returned =>
    obtain ⟨prevDone, hp⟩ := hs
    exact absurd (inPhase_exec hp hw atoll rows rc).1 (by decide)
  | inCall sql tries pc =>
    obtain ⟨hstop, hwritten, prevDone, p, hpc, hp⟩ := hs
    obtain ⟨rfl, hp'⟩ := inPhase_exec hp hw atoll rows rc
    exact ⟨hstop, hwritten, prevDone, .ran, hpc.next .run, hp'⟩

/-! ## The driver -/

theorem cString_append_nul (sql rest : Text) : cString (sql ++ 0 :: rest) = cString sql := by
  simp only [cString]
  induction sql with
  | nil => rfl
  | cons b sql ih =>
    simp only [List.cons_append, List.takeWhile_cons, ih]

/-- The waiting of a driver, and its wake-up call, change no word. -/
theorem inPhase_words {s : Channel} {past : List (Text × Reply)} {sql : Text} {prevDone : UInt32} {p : Phase}
    {f : Futex Word Party UInt32} {d : Driver} {o : Bool} (hs : InPhase s past sql prevDone p)
    (hf : f.word = s.futex.word) : InPhase { s with futex := f, driver := d, stopOwed := o } past sql prevDone p := by
  cases p <;> simp only [InPhase, hf] at hs ⊢ <;> exact hs

section
variable {s s' : Channel} {sql : Text} {tries : List Reply} {pc : Pc}

theorem collected_collect (hd : s.driver = .inCall sql tries pc) :
    (s.collect sql tries).collected = s.collected ++ [(cString sql, s.reply)] := by
  simp only [Channel.collect]
  split
  · simp [Channel.collected, hd]
  · simp [Channel.collected, hd]

theorem agree_drive (hs : Agree s s.collected s.driver) (hd : s.driver = .inCall sql tries pc)
    (h : s.drive sql tries pc = some s') : Agree s' s'.collected s'.driver := by
  have hcol := collected_collect hd
  rw [hd] at hs
  obtain ⟨hstop, hwritten, prevDone, p, hpc, hp⟩ := hs
  -- While the call goes on, what has been collected stays.
  have hsame : ∀ f t pc', InPhase { s with futex := f, sql := t, driver := .inCall sql tries pc' } s.collected
      (cString sql) prevDone p → InPhase { s with futex := f, sql := t, driver := .inCall sql tries pc' }
      ({ s with futex := f, sql := t, driver := .inCall sql tries pc' } : Channel).collected (cString sql) prevDone
        p := by
    intro f t pc' hp'
    simpa only [Channel.collected, hd] using hp'
  cases pc with
  | write =>
    cases h
    cases hpc
    exact ⟨hstop, fun _ => cString_append_nul .., prevDone, .quiet, rfl, hsame s.futex _ _ hp⟩
  | readDone =>
    cases h
    cases hpc
    exact ⟨hstop, fun _ => hwritten trivial, prevDone, .quiet, ⟨hp.2.1, rfl⟩, hsame s.futex s.sql _ hp⟩
  | post seen =>
    cases h
    obtain ⟨rfl, rfl⟩ := hpc
    obtain ⟨hreq, hdone, hrest, hexec, hposted⟩ := hp
    refine ⟨hstop, fun hw => hw.elim, seen, .pending, ⟨rfl, by decide⟩, ?_⟩
    simp only [Channel.collected, hd] at hexec hposted ⊢
    refine ⟨Futex.store_word_self, by rwa [Futex.store_word_ne (by decide)], .inl (hstop ▸ hrest), hwritten trivial,
      hexec, ?_⟩
    rw [hposted, hwritten trivial]
  | wake seen =>
    cases h
    exact ⟨hstop, fun hw => hw.elim, prevDone, p, hpc, hsame _ s.sql _ (inPhase_words hp rfl)⟩
  | check seen =>
    cases h
    obtain ⟨rfl, hne⟩ := hpc
    refine ⟨hstop, fun hw => ?_, seen, p, ?_, hsame s.futex s.sql _ hp⟩
    · split at hw <;> exact hw.elim
    · split
      · exact ⟨rfl, hne⟩
      · next hdone =>
        cases p with
        | answered => rfl
        | quiet => exact absurd rfl hne
        | pending | taken | ran => exact absurd hp.2.1 hdone
  | deadline seen =>
    cases h
    exact ⟨hstop, fun hw => hw.elim, prevDone, p, hpc, hsame s.futex s.sql _ hp⟩
  | wait seen =>
    cases h
    refine ⟨hstop, fun hw => hw.elim, prevDone, p, hpc, hsame _ s.sql _ (inPhase_words hp ?_)⟩
    simp only [Futex.wait]
    split <;> rfl
  | parked seen =>
    simp only [Channel.drive] at h
    split at h <;> cases h
    exact ⟨hstop, fun hw => hw.elim, prevDone, p, hpc, hsame s.futex s.sql _ hp⟩
  | collect =>
    cases h
    cases hpc
    obtain ⟨hreq, hdone, hrest, hexec, hposted⟩ := hp
    have hquiet : InPhase (s.collect sql tries) (s.collected ++ [(cString sql, s.reply)]) (cString sql) (prevDone + 1)
        .quiet := by
      simp only [Channel.collect]
      split <;> exact ⟨by simpa [hstop] using hreq, hdone, by simpa [hstop] using hrest, hexec,
        by rw [← hexec]; exact hposted⟩
    rw [hcol]
    revert hquiet
    simp only [Channel.collect]
    split
    · exact fun hquiet => ⟨hstop, fun hw => hw.elim, _, .quiet, rfl, hquiet⟩
    · exact fun hquiet => ⟨_, hquiet⟩
  | pause =>
    cases h
    cases hpc
    exact ⟨hstop, fun hw => hw.elim, prevDone, .quiet, rfl, hsame s.futex s.sql _ hp⟩

theorem returns_drive (hs : Returns s) (hd : s.driver = .inCall sql tries pc) (h : s.drive sql tries pc = some s') :
    Returns s' := by
  obtain ⟨hbusy, hlen⟩ := hs.tries _ _ _ hd
  -- A call that goes on without a new reply.
  have hsame : ∀ pc' (t : Channel), t.driver = .inCall sql tries pc' → t.calls = s.calls → Returns t := by
    intro pc' t htd htc
    refine ⟨by rw [htc]; exact hs.calls, fun sql' tries' pc'' h' => ?_, fun r hr => ?_⟩
    · rw [htd] at h'
      cases h'
      exact ⟨hbusy, hlen⟩
    · rw [htd] at hr
      cases hr
  cases pc with
  | collect =>
    cases h
    simp only [Channel.collect]
    split
    · next hagain =>
      refine ⟨hs.calls, fun sql' tries' pc' h' => ?_, fun r hr => by cases hr⟩
      cases h'
      refine ⟨fun t ht => ?_, by rw [List.length_append]; exact hagain.2⟩
      rcases List.mem_append.mp ht with ht | ht
      · exact hbusy t ht
      · rw [List.mem_singleton.mp ht]
        exact hagain.1
    · next hend =>
      refine ⟨fun call hcall => ?_, fun sql' tries' pc' h' => (nomatch h'), fun r hr => ?_⟩
      · rcases List.mem_append.mp hcall with hcall | hcall
        · exact hs.calls call hcall
        · rw [List.mem_singleton.mp hcall]
          refine ⟨tries, s.reply, rfl, hbusy, hlen, fun hrc => ?_⟩
          by_contra hne
          exact hend ⟨hrc, by omega⟩
      · cases hr
        exact ⟨s.calls, sql, tries, rfl⟩
  | parked =>
    simp only [Channel.drive] at h
    split at h <;> cases h
    exact hsame _ _ rfl rfl
  | write | readDone | post | wake | check | deadline | wait | pause =>
    cases h
    exact hsame _ _ rfl rfl

end

/-! ## Sleepers -/

section
variable {s s' : Channel}

/-- Who sleeps on `done` is the driver, on `req` the worker. -/
theorem Sleeps.thread_of_addr (hs : Sleeps s) {x : Sleeper Word Party UInt32} (hx : x ∈ s.futex.sleepers) {t : Party}
    (ht : x.addr = home t) : x.thread = t :=
  home_injective ((hs.each.own x hx).symm.trans ht)

/-- One wake-up leaves nobody asleep on its word. -/
theorem Sleeps.covered_notify (hs : Sleeps s) (i : Word) : (s.futex.notify i 1).Covered (owed s \ {i}) :=
  hs.covered.notify (hs.each.filter_length home_injective i)

/-- A driver that is not parked does not sleep. -/
theorem Sleeps.driver_awake (hs : Sleeps s) (h : ∀ sql tries seen, s.driver ≠ .inCall sql tries (.parked seen)) :
    ¬ s.futex.Asleep .driver := by
  rintro ⟨x, hx, hxt⟩
  have := hs.atWait x hx
  rw [AtWait, hxt] at this
  obtain ⟨sql, tries, hd⟩ := this
  exact h sql tries x.seen hd

theorem Sleeps.worker_awake (hs : Sleeps s) (h : s.worker ≠ .parked) : ¬ s.futex.Asleep .worker := by
  rintro ⟨x, hx, hxt⟩
  have := hs.atWait x hx
  rw [AtWait, hxt] at this
  exact h this.1

/-- A step that puts nobody to sleep and moves nobody that sleeps. -/
theorem Sleeps.of_step (hs : Sleeps s) (hsub : s'.futex.sleepers.Sublist s.futex.sleepers)
    (hcov : s'.futex.Covered (owed s'))
    (hdriver : s'.futex.Asleep .driver → s'.driver = s.driver)
    (hworker : s'.futex.Asleep .worker → s'.worker = s.worker)
    (howes : s'.stopOwed = true → s'.stopped = true) : Sleeps s' := by
  refine ⟨hcov, hs.each.sublist hsub, fun x hx => ?_, howes⟩
  have hat := hs.atWait x (hsub.subset hx)
  simp only [AtWait] at hat ⊢
  cases hxt : x.thread with
  | driver =>
    simp only [hxt] at hat ⊢
    rw [hdriver ⟨x, hx, hxt⟩]
    exact hat
  | worker =>
    simp only [hxt] at hat ⊢
    rw [hworker ⟨x, hx, hxt⟩]
    exact hat

theorem asleep_of_sublist {f g : Futex Word Party UInt32} {t : Party} (hsub : g.sleepers.Sublist f.sleepers)
    (h : g.Asleep t) : f.Asleep t := by
  obtain ⟨x, hx, hxt⟩ := h
  exact ⟨x, hsub.subset hx, hxt⟩

/-- A thread that is awake goes to sleep, where the source does. -/
theorem Sleeps.wait (hs : Sleeps s) {t : Party} {v : UInt32} (hawake : ¬ s.futex.Asleep t)
    (hf : s'.futex = s.futex.wait t (home t) v) (howed : owed s ⊆ owed s') (hat : AtWait s' ⟨t, home t, v⟩)
    (hother : ∀ x, x.thread ≠ t → AtWait s x → AtWait s' x) (howes : s'.stopOwed = true → s'.stopped = true) :
    Sleeps s' := by
  refine ⟨hf ▸ hs.covered.wait.mono howed, hf ▸ hs.each.wait hawake, fun x hx => ?_, howes⟩
  rw [hf] at hx
  rcases Futex.of_mem_wait hx with hx | ⟨rfl, -⟩
  · exact hother x (fun hxt => hawake ⟨x, hx, hxt⟩) (hs.atWait x hx)
  · exact hat

theorem not_asleep_notify (hs : Sleeps s) (t : Party) : ¬ (s.futex.notify (home t) 1).Asleep t := by
  rintro ⟨x, hx, hxt⟩
  have hne := Futex.addr_ne_of_mem_wakeFirst (hs.each.filter_length home_injective (home t)) hx
  exact hne ((hs.each.own x ((Futex.wakeFirst_sublist ..).subset hx)).trans (by rw [hxt]))

/-- The worker, awake, goes on without touching a word. -/
theorem Sleeps.move_worker (hs : Sleeps s) (hawake : ¬ s.futex.Asleep .worker) (hn : s.worker ≠ .notify) (w : Worker)
    (c : Capture) : Sleeps { s with worker := w, capture := c } := by
  refine hs.of_step (.refl _) (hs.covered.mono fun i hi => ?_) (fun _ => rfl) (fun h => absurd h hawake) hs.owes
  cases i with
  | req => exact hi
  | done => exact absurd hi hn

theorem sleeps_work (hs : Sleeps s) (hwait : ∀ r, s.worker = .wait r → r = 0) (h : s.work s.worker = some s') :
    Sleeps s' := by
  cases hw : s.worker with
  | opening | load | zero | count =>
    rw [hw] at h
    cases h
    exact hs.move_worker (hs.worker_awake (by rw [hw]; exact nofun)) (by rw [hw]; exact nofun) _ _
  | parked =>
    rw [hw] at h
    simp only [Channel.work] at h
    split at h
    · cases h
    · next hawake =>
      cases h
      exact hs.move_worker hawake (by rw [hw]; exact nofun) _ _
  | wait r =>
    obtain rfl := hwait r hw
    rw [hw] at h
    cases h
    have hawake : ¬ s.futex.Asleep .worker := hs.worker_awake (by rw [hw]; exact nofun)
    refine hs.wait hawake rfl (fun i hi => ?_) ⟨rfl, rfl⟩ (fun x hxt hat => ?_) hs.owes
    · cases i with
      | req => exact hi
      | done => exact nomatch hw.symm.trans hi
    · obtain ⟨thread, addr, seen⟩ := x
      cases thread with
      | driver => exact hat
      | worker => exact absurd rfl hxt
  | clear =>
    rw [hw] at h
    cases h
    have hawake : ¬ s.futex.Asleep .worker := hs.worker_awake (by rw [hw]; exact nofun)
    refine hs.of_step (.refl _) ?_ (fun _ => rfl) (fun ha => absurd ha hawake) hs.owes
    refine (hs.covered.store_unseen fun x hx hreq => ?_).mono fun i hi => ?_
    · exact hawake ⟨x, hx, hs.thread_of_addr hx hreq⟩
    · cases i with
      | req => exact hi
      | done => exact nomatch hw.symm.trans hi
  | finish done =>
    rw [hw] at h
    cases h
    have hawake : ¬ s.futex.Asleep .worker := hs.worker_awake (by rw [hw]; exact nofun)
    refine hs.of_step (.refl _) (hs.covered.store.mono fun i hi => ?_) (fun _ => rfl) (fun ha => absurd ha hawake)
      hs.owes
    cases i with
    | req => exact hi.resolve_left nofun
    | done => rfl
  | notify =>
    rw [hw] at h
    cases h
    have hawake : ¬ s.futex.Asleep .worker := hs.worker_awake (by rw [hw]; exact nofun)
    have hsub := Futex.wakeFirst_sublist Word.done 1 s.futex.sleepers
    refine hs.of_step hsub ((hs.covered_notify .done).mono fun i hi => ?_) (fun _ => rfl)
      (fun ha => absurd (asleep_of_sublist hsub ha) hawake) hs.owes
    cases i with
    | req => exact hi.1
    | done => exact absurd rfl hi.2
  | exec | ended => rw [hw] at h; cases h

/-- The driver, awake, goes on without touching a word. -/
theorem Sleeps.move_driver (hs : Sleeps s) (hawake : ¬ s.futex.Asleep .driver)
    (hn : ∀ sql tries seen, s.driver ≠ .inCall sql tries (.wake seen)) {t : Channel} (hf : t.futex = s.futex)
    (hw : t.worker = s.worker) (ho : t.stopOwed = s.stopOwed) (hst : t.stopped = s.stopped) : Sleeps t := by
  refine hs.of_step (hf ▸ .refl _) ?_ (fun h => absurd (hf ▸ h) hawake) (fun _ => hw)
    (by rw [ho, hst]; exact hs.owes)
  rw [hf]
  refine hs.covered.mono fun i hi => ?_
  cases i with
  | req => exact .inl (ho ▸ hi.resolve_right fun ⟨sql, tries, seen, hd⟩ => hn sql tries seen hd)
  | done => exact hw.trans hi

theorem sleeps_drive {sql : Text} {tries : List Reply} {pc : Pc} (hs : Sleeps s) (hd : s.driver = .inCall sql tries pc)
    (h : s.drive sql tries pc = some s') : Sleeps s' := by
  cases pc with
  | parked seen =>
    simp only [Channel.drive] at h
    split at h
    · cases h
    · next hawake =>
      cases h
      exact hs.move_driver hawake (by rw [hd]; exact nofun) rfl rfl rfl rfl
  | write | readDone | check | deadline | pause =>
    cases h
    have hawake : ¬ s.futex.Asleep .driver := hs.driver_awake (by rw [hd]; exact nofun)
    exact hs.move_driver hawake (by rw [hd]; exact nofun) rfl rfl rfl rfl
  | collect =>
    cases h
    have hawake : ¬ s.futex.Asleep .driver := hs.driver_awake (by rw [hd]; exact nofun)
    refine hs.move_driver hawake (by rw [hd]; exact nofun) ?_ ?_ ?_ ?_ <;> simp only [Channel.collect] <;> split <;> rfl
  | post seen =>
    cases h
    have hawake : ¬ s.futex.Asleep .driver := hs.driver_awake (by rw [hd]; exact nofun)
    refine hs.of_step (.refl _) (hs.covered.store.mono fun i hi => ?_) (fun ha => absurd ha hawake) (fun _ => rfl)
      hs.owes
    cases i with
    | req => exact .inr ⟨sql, tries, seen, rfl⟩
    | done => exact hi.resolve_left nofun
  | wake seen =>
    cases h
    have hawake : ¬ s.futex.Asleep .driver := hs.driver_awake (by rw [hd]; exact nofun)
    have hsub := Futex.wakeFirst_sublist Word.req 1 s.futex.sleepers
    refine hs.of_step hsub ((hs.covered_notify .req).mono fun i hi => ?_)
      (fun ha => absurd (asleep_of_sublist hsub ha) hawake) (fun _ => rfl) hs.owes
    cases i with
    | req => exact absurd rfl hi.2
    | done => exact hi.1
  | wait seen =>
    cases h
    have hawake : ¬ s.futex.Asleep .driver := hs.driver_awake (by rw [hd]; exact nofun)
    refine hs.wait hawake rfl (fun i hi => ?_) ⟨sql, tries, rfl⟩ (fun x hxt hat => ?_) hs.owes
    · cases i with
      | req =>
        refine .inl (hi.resolve_right fun ⟨sql', tries', seen', hd'⟩ => ?_)
        exact nomatch hd.symm.trans hd'
      | done => exact hi
    · obtain ⟨thread, addr, seen'⟩ := x
      cases thread with
      | driver => exact absurd rfl hxt
      | worker => exact hat

end

/-! ## Every step -/

section
variable {s s' : Channel}

/-- Words that stay as they are leave the two ends agreed. -/
theorem agree_words {past : List (Text × Reply)} {d d' : Driver} {f : Futex Word Party UInt32} {owed : Bool}
    (hs : Agree s past d) (hf : f.word = s.futex.word) :
    Agree { s with futex := f, driver := d', stopOwed := owed } past d := by
  cases d with
  | idle | returned =>
    obtain ⟨prevDone, hp⟩ := hs
    exact ⟨prevDone, inPhase_words hp hf⟩
  | inCall sql tries pc =>
    obtain ⟨hstop, hwritten, prevDone, p, hpc, hp⟩ := hs
    exact ⟨hstop, hwritten, prevDone, p, hpc, inPhase_words hp hf⟩

theorem Worker.Rests.stop {w : Worker} {stopped : Bool} (h : w.Rests stopped) : w.Rests true := by
  cases w with
  | opening | load | parked | notify | wait | ended => first | exact h | trivial
  | clear | zero | exec | count | finish => cases h

/-- `close` while no submission is under way. -/
theorem agree_stop {past : List (Text × Reply)} (hd : s.driver.out = true)
    (hs : Agree s past s.driver) :
    Agree { s with futex := s.futex.store .req 3, stopped := true, stopOwed := true } past s.driver := by
  cases hcase : s.driver with
  | idle | returned =>
    rw [hcase] at hs
    obtain ⟨prevDone, hreq, hdone, hrest, hbooks⟩ := hs
    exact ⟨prevDone, Futex.store_word_self, by rwa [Futex.store_word_ne (by decide)], hrest.stop, hbooks⟩
  | inCall sql tries pc => rw [hcase] at hd; cases hd

theorem inv_init : Inv {} where
  agree := ⟨0, rfl, rfl, trivial, rfl, rfl⟩
  sleeps := ⟨nofun, ⟨.nil, nofun⟩, nofun, nofun⟩
  returns := ⟨nofun, nofun, nofun⟩

/-- A worker at `wait` has loaded 0: it loads no other word that it would wait on. -/
theorem Inv.wait_zero (hs : Inv s) : ∀ r, s.worker = .wait r → r = 0 := by
  intro r hw
  have hrest : ∀ {past sql prevDone p}, InPhase s past sql prevDone p → r = 0 := by
    intro past sql prevDone p hp
    cases p <;> simp only [InPhase, hw] at hp
    case quiet => exact hp.2.2.1
    case pending => exact hp.2.2.1.resolve_right nofun
    case taken => exact (hp.2.2.1.elim nofun nofun)
    case ran => exact (hp.2.2.1.elim nofun nofun)
    case answered => exact hp.2.2.1
  have hagree := hs.agree
  cases hd : s.driver <;> rw [hd] at hagree
  case idle | returned => exact hrest hagree.choose_spec
  case inCall =>
    obtain ⟨-, -, prevDone, p, -, hp⟩ := hagree
    exact hrest hp

theorem Returns.of_driver {d : Driver} {f : Futex Word Party UInt32} (hs : Returns s)
    (hd : ∀ sql tries pc, d = .inCall sql tries pc → tries = []) (hr : ∀ r, d ≠ .returned (some r)) :
    Returns { s with driver := d, futex := f } := by
  refine ⟨hs.calls, fun sql tries pc h => ?_, fun r h => absurd h (hr r)⟩
  rw [hd sql tries pc h]
  exact ⟨nofun, Nat.zero_le _⟩

theorem inv_step (atoll : Text → Int) {l : Label} (hs : Inv s) (hok : Careful s l) (h : step atoll s l = some s') :
    Inv s' := by
  cases l with
  | submit sql =>
    simp only [step] at h
    cases hd : s.driver with
    | idle =>
      have hagree := hs.agree
      have hawake := hs.sleeps.driver_awake (by rw [hd]; exact nofun)
      have hcol : s.collected = s.calls.flatMap (fun call => call.2.map fun r => (cString call.1, r)) ++ [] := by
        simp only [Channel.collected, hd]
      rw [hd, hcol] at hagree
      obtain ⟨prevDone, hp⟩ := hagree
      simp only [hd] at h
      split at h
      · cases h
        refine ⟨⟨hok, fun hw => hw.elim, prevDone, .quiet, rfl, inPhase_words hp rfl⟩, ?_, ?_⟩
        · exact hs.sleeps.move_driver hawake (by rw [hd]; exact nofun) rfl rfl rfl rfl
        · exact hs.returns.of_driver (by rintro _ _ _ ⟨⟩; rfl) nofun
      · cases h
        refine ⟨⟨prevDone, inPhase_words hp rfl⟩, ?_, ?_⟩
        · exact hs.sleeps.move_driver hawake (by rw [hd]; exact nofun) rfl rfl rfl rfl
        · exact hs.returns.of_driver nofun nofun
    | inCall | returned => rw [hd] at h; cases h
  | driver =>
    simp only [step] at h
    cases hd : s.driver with
    | inCall sql tries pc =>
      rw [hd] at h
      exact ⟨agree_drive hs.agree hd h, sleeps_drive hs.sleeps hd h, returns_drive hs.returns hd h⟩
    | idle | returned => rw [hd] at h; cases h
  | giveUp => exact hok.elim
  | timeout =>
    simp only [step] at h
    split at h
    · cases h
      refine ⟨agree_words hs.agree rfl, ?_, ⟨hs.returns.calls, hs.returns.tries, hs.returns.outcome⟩⟩
      exact hs.sleeps.of_step List.filter_sublist hs.sleeps.covered.timeout (fun _ => rfl) (fun _ => rfl) hs.sleeps.owes
    · cases h
  | leave =>
    simp only [step] at h
    cases hd : s.driver with
    | returned outcome =>
      have hagree := hs.agree
      have hcol : s.collected = s.calls.flatMap (fun call => call.2.map fun r => (cString call.1, r)) ++ [] := by
        simp only [Channel.collected, hd]
      rw [hd, hcol] at hagree
      obtain ⟨prevDone, hp⟩ := hagree
      simp only [hd] at h
      cases h
      refine ⟨⟨prevDone, inPhase_words hp rfl⟩, ?_, hs.returns.of_driver nofun nofun⟩
      exact hs.sleeps.move_driver (hs.sleeps.driver_awake (by rw [hd]; exact nofun)) (by rw [hd]; exact nofun)
        rfl rfl rfl rfl
    | idle | inCall => rw [hd] at h; cases h
  | worker =>
    obtain ⟨f, w, c, rfl⟩ := work_eq h
    exact ⟨agree_work hs.agree h, sleeps_work hs.sleeps hs.wait_zero h,
      ⟨hs.returns.calls, hs.returns.tries, hs.returns.outcome⟩⟩
  | exec rows rc =>
    simp only [step] at h
    split at h
    · next hw =>
      cases h
      refine ⟨agree_exec hs.agree hw atoll rows rc, ?_, ⟨hs.returns.calls, hs.returns.tries, hs.returns.outcome⟩⟩
      refine hs.sleeps.of_step (.refl _) (hs.sleeps.covered.mono fun i hi => ?_) (fun _ => rfl) (fun ha => ?_)
        hs.sleeps.owes
      · cases i with
        | req => exact hi
        | done => exact nomatch hw.symm.trans hi
      · exact absurd ha (hs.sleeps.worker_awake (by rw [hw]; exact nofun))
    · cases h
  | stop =>
    cases h
    refine ⟨agree_stop hok hs.agree, ?_, ⟨hs.returns.calls, hs.returns.tries, hs.returns.outcome⟩⟩
    refine hs.sleeps.of_step (.refl _) (hs.sleeps.covered.store.mono fun i hi => ?_) (fun _ => rfl) (fun _ => rfl)
      fun _ => rfl
    cases i with
    | req => exact .inl rfl
    | done => exact hi.resolve_left nofun
  | stopWake =>
    simp only [step] at h
    split at h
    · cases h
      refine ⟨agree_words hs.agree rfl, ?_, ⟨hs.returns.calls, hs.returns.tries, hs.returns.outcome⟩⟩
      have hsub := Futex.wakeFirst_sublist Word.req 1 s.futex.sleepers
      refine hs.sleeps.of_step hsub ((hs.sleeps.covered_notify .req).mono fun i hi => ?_) (fun _ => rfl)
        (fun _ => rfl) nofun
      cases i with
      | req => exact absurd rfl hi.2
      | done => exact hi.1
    · cases h

end

/-- Every statement posted is run once and in order, and every reply collected is the
one its own statement got; a call returns the last reply to its own statement, and the
plain words of the channel are never in use at both ends. -/
structure Faithful (s : Channel) : Prop where
  once : s.executed.map Prod.fst <+: s.posted ∧ s.posted.length ≤ s.executed.length + 1
  own : s.collected <+: s.executed
  settled : s.driver.out = true → s.executed = s.collected ∧ s.posted = s.executed.map Prod.fst
  calls : ∀ call ∈ s.calls, Tried call.2
  outcome : ∀ r, s.driver = .returned (some r) → ∃ calls sql tries, s.calls = calls ++ [(sql, tries ++ [r])]
  apart : ∀ sql tries, s.driver = .inCall sql tries .write ∨ s.driver = .inCall sql tries .collect →
    s.worker ≠ .zero ∧ s.worker ≠ .exec

theorem InPhase.once {s : Channel} {past : List (Text × Reply)} {sql : Text} {prevDone : UInt32} {p : Phase}
    (h : InPhase s past sql prevDone p) :
    (s.executed.map Prod.fst <+: s.posted ∧ s.posted.length ≤ s.executed.length + 1) ∧ past <+: s.executed := by
  cases p with
  | quiet | answered | pending | taken | ran => simp_all [InPhase]

theorem Worker.Rests.idle {w : Worker} {stopped : Bool} (h : w.Rests stopped) : w ≠ .zero ∧ w ≠ .exec := by
  constructor <;> rintro rfl <;> cases h

theorem Inv.faithful {s : Channel} (hs : Inv s) : Faithful s := by
  have hagree := hs.agree
  cases hd : s.driver with
  | idle | returned =>
    rw [hd] at hagree
    obtain ⟨prevDone, hp⟩ := hagree
    obtain ⟨hreq, hdone, hrest, hexec, hposted⟩ := id hp
    refine ⟨hp.once.1, hp.once.2, fun _ => ⟨hexec, by rw [hexec]; exact hposted⟩, hs.returns.calls,
      hs.returns.outcome, ?_⟩
    rintro sql tries (h | h) <;> exact nomatch hd.symm.trans h
  | inCall sql tries pc =>
    rw [hd] at hagree
    obtain ⟨-, -, prevDone, p, hpc, hp⟩ := hagree
    refine ⟨hp.once.1, hp.once.2, fun hout => (nomatch hd ▸ hout), hs.returns.calls, hs.returns.outcome, ?_⟩
    rintro sql' tries' (h | h)
    · cases hd.symm.trans h
      cases hpc
      exact hp.2.2.1.idle
    · cases hd.symm.trans h
      cases hpc
      exact hp.2.2.1.idle

theorem channel_run_answers {atoll : Text → Int} {ls : List Label} (hok : EveryStep (step atoll) Careful {} ls) :
    EveryState (step atoll) Faithful {} ls :=
  everyState_of_invariant (fun _ _ _ hs hok h => inv_step atoll hs hok h) (fun _ => Inv.faithful) inv_init hok

/-- A statement that is busy once, tried again; then the worker is stopped. -/
def busyOnce : List Label :=
  [.worker, .submit [1], .driver, .worker, .driver, .worker, .driver, .driver, .driver, .driver, .driver, .worker,
    .worker, .worker, .worker, .exec [] 5, .worker, .worker, .worker, .driver, .driver, .driver, .driver, .driver,
    .driver, .driver, .driver, .worker, .worker, .worker, .exec [[none], [some [9]]] 0, .worker, .worker, .driver,
    .driver, .leave, .stop, .worker, .stopWake, .worker]

theorem busy_once_answered :
    EveryState (step fun _ => 7) Faithful {} busyOnce ∧
      (run (step fun _ => 7) {} busyOnce).map (·.calls) = some [([1], [⟨5, 0, []⟩, ⟨0, 7, [9]⟩])] :=
  ⟨channel_run_answers (by decide), by decide⟩

/-! ## What `row_cb2` keeps -/

/-- The first row whose first column is not NULL, and not the first row. -/
theorem foldl_row_cb2 (atoll : Text → Int) (rows : List (List (Option Text))) :
    rows.foldl (row_cb2 atoll) {} =
      match rows.findSome? firstColumn with
      | some value => { result := atoll value, got := true, restext := value.take 2047 }
      | none => {} := by
  have hgot : ∀ (rows : List (List (Option Text))) (c : Capture), c.got = true → rows.foldl (row_cb2 atoll) c = c := by
    intro rows
    induction rows with
    | nil => exact fun _ _ => rfl
    | cons vals rows ih =>
      intro c hc
      have hstep : row_cb2 atoll c vals = c := by
        simp only [row_cb2, hc]
      rw [List.foldl_cons, hstep, ih c hc]
  induction rows with
  | nil => rfl
  | cons vals rows ih =>
    rw [List.foldl_cons, List.findSome?_cons]
    cases hv : firstColumn vals with
    | none =>
      have hstep : row_cb2 atoll {} vals = {} := by
        simp only [row_cb2, hv]
      rw [hstep, ih]
    | some value =>
      have hstep : row_cb2 atoll {} vals = { result := atoll value, got := true, restext := value.take 2047 } := by
        simp only [row_cb2, hv]
      rw [hstep, hgot rows _ rfl]

/-- A statement's answer has the code it returned, and the first value that is not NULL. -/
def Captures (atoll : Text → Int) (s : Channel) : Label → Prop
  | .exec rows rc => s.worker = .exec → (s.exec atoll rows rc).reply =
      match rows.findSome? firstColumn with
      | some value => ⟨rc, atoll value, value.take 2047⟩
      | none => ⟨rc, 0, []⟩
  | _ => True

theorem captures_of_clear {atoll : Text → Int} {s : Channel} (hs : s.worker = .exec → s.capture = {}) (l : Label) :
    Captures atoll s l := by
  cases l with
  | exec rows rc =>
    intro hw
    simp only [Channel.exec, Channel.reply, hs hw, foldl_row_cb2]
    cases rows.findSome? firstColumn <;> rfl
  | submit | driver | giveUp | timeout | leave | worker | stop | stopWake => trivial

/-- The worker comes to `sqlite3_exec` with nothing kept of the statement before. -/
theorem clear_step {atoll : Text → Int} {s s' : Channel} {l : Label} (hs : s.worker = .exec → s.capture = {})
    (h : step atoll s l = some s') : s'.worker = .exec → s'.capture = {} := by
  cases l with
  | worker =>
    simp only [step] at h
    cases hw : s.worker <;> rw [hw] at h
    case exec | ended => cases h
    case parked =>
      simp only [Channel.work] at h
      split at h <;> cases h
      exact nofun
    case load =>
      cases h
      simp only
      split
      · exact nofun
      · split <;> exact nofun
    case zero => cases h; exact fun _ => rfl
    all_goals cases h; exact nofun
  | driver =>
    simp only [step] at h
    split at h
    · next sql tries pc _ =>
      have hkeep : s'.worker = s.worker ∧ s'.capture = s.capture := by
        cases pc with
        | parked =>
          simp only [Channel.drive] at h
          split at h <;> cases h
          exact ⟨rfl, rfl⟩
        | collect =>
          cases h
          simp only [Channel.collect]
          split <;> exact ⟨rfl, rfl⟩
        | write | readDone | post | wake | check | deadline | wait | pause =>
          cases h
          exact ⟨rfl, rfl⟩
      rw [hkeep.1, hkeep.2]
      exact hs
    · cases h
  | exec rows rc =>
    simp only [step] at h
    split at h <;> cases h
    exact nofun
  | submit sql =>
    simp only [step] at h
    split at h
    · split at h <;> cases h <;> exact hs
    · cases h
  | giveUp | timeout | leave | stopWake =>
    simp only [step] at h
    split at h <;> cases h <;> exact hs
  | stop => cases h; exact hs

theorem channel_run_captures {atoll : Text → Int} (ls : List Label) :
    EveryStep (step atoll) (Captures atoll) {} ls :=
  everyStep_of_invariant (I := fun s => s.worker = .exec → s.capture = {})
    (fun _ _ _ hs _ h => clear_step hs h) (fun _ l hs _ => captures_of_clear hs l) nofun everyStep_true

end WorkerChannel

end Sqlol
