/-
Who owns the database, over all interleavings of `acquire` and `close`.

The invariant `Inv` is about inodes, `FileLock`s and tokens and does not look
at the OS's locks. It is kept by every step as long as a lock is only granted
on an inode that carries no `FileLock` (`Excludes`). With locks owned by their
handle that always is so, and the token round trip does what it is for
(`handle_run_owned`). With POSIX record locks it is not: closing `c2`, and
closing `ch` after an overlap, drop the lock on the very inode it guards, so
a second process can own the same inode (`posix_two_owners`), and exclusion
is left to runs where nobody tries in that window (`posix_run_exclusive`).
-/
import Sqlol.Runs
import Sqlol.DbOwnerLock

namespace Sqlol

namespace DbOwnerLock

/-! ## What a call knows -/

/-- The inode the current attempt works on. -/
def Pc.inode : Pc → Option Nat
  | .opened _ i | .locked _ i | .written _ i _ | .forced _ i _ | .reopened _ i _ _ | .readBack _ i _ _ _
  | .checked _ i _ _ => some i
  | _ => none

/-- The inode the call has a `FileLock` on. -/
def Pc.held : Pc → Option Nat
  | .locked _ i | .written _ i _ | .forced _ i _ | .reopened _ i _ _ | .readBack _ i _ _ _
  | .checked _ i _ _ | .releasing _ i | .owner i | .deleted i => some i
  | _ => none

/-- The inode and the token it was written to. -/
def Pc.token : Pc → Option (Nat × Int)
  | .written _ i token | .forced _ i token | .reopened _ i token _ | .readBack _ i token _ _
  | .checked _ i token _ => some (i, token)
  | _ => none

/-- What the round trip has shown so far. -/
def Pc.Verified (path : Option Nat) : Pc → Prop
  | .reopened _ i _ j => i ≤ j ∧ (j = i → path = some i)
  | .readBack _ i token _ seen | .checked _ i token seen => seen = some token → path = some i
  | .owner i => path = some i
  | _ => True

theorem Pc.held_of_token {p : Pc} {i : Nat} {t : Int} (h : p.token = some (i, t)) : p.held = some i := by
  cases p <;> simp_all [Pc.token, Pc.held]

theorem Pc.inode_of_token {p : Pc} {i : Nat} {t : Int} (h : p.token = some (i, t)) : p.inode = some i := by
  cases p <;> simp_all [Pc.token, Pc.inode]

/-- What is verified stays so while the path keeps naming the held inode. -/
theorem Pc.Verified.mono {p : Pc} {path path' : Option Nat} (h : p.Verified path)
    (hp : ∀ i, p.held = some i → path = some i → path' = some i) : p.Verified path' := by
  cases p with
  | reopened left i token j => exact ⟨h.1, fun hj => hp i rfl (h.2 hj)⟩
  | readBack left i token j seen => exact fun hs => hp i rfl (h hs)
  | checked left i token seen => exact fun hs => hp i rfl (h hs)
  | owner i => exact hp i rfl h
  | _ => trivial

/-! ## The invariant -/

/-- The path names the newest inode; an inode has one `FileLock`; a token
read from a file was drawn by one call, which wrote it to no newer inode than
the one it works on; and what a call has verified is so. -/
structure Inv (s : Sys) : Prop where
  path_last : ∀ j, s.path = some j → j + 1 = s.next
  excl : ∀ i c d, (i, c) ∈ s.fileLocks → (i, d) ∈ s.fileLocks → c = d
  held : ∀ c i, (s.pc c).held = some i → (i, c) ∈ s.fileLocks
  inode_lt : ∀ c i, (s.pc c).inode = some i → i < s.next
  token : ∀ c i t, (s.pc c).token = some (i, t) → s.content i = some t ∧ (some c, t) ∈ s.drawn ∧ t ≠ 0
  drawn_inj : ∀ a b t, (a, t) ∈ s.drawn → (b, t) ∈ s.drawn → a = b
  content_drawn : ∀ k t, s.content k = some t → ∃ a, (a, t) ∈ s.drawn
  content_lt : ∀ k t, s.content k = some t → k < s.next
  content_le : ∀ k t c i, s.content k = some t → (some c, t) ∈ s.drawn → (s.pc c).inode = some i → k ≤ i
  verified : ∀ c, (s.pc c).Verified s.path

theorem inv_start (sidecar : Option (Option Int)) : Inv (start sidecar) := by
  rcases sidecar with _ | _ | t <;>
    constructor <;> simp [start, Pc.held, Pc.inode, Pc.token, Pc.Verified]

/-- Two calls that hold one inode are the same call. -/
theorem Inv.held_inj {s : Sys} (hi : Inv s) {c d i : Nat} (hc : (s.pc c).held = some i)
    (hd : (s.pc d).held = some i) : c = d :=
  hi.excl i c d (hi.held c i hc) (hi.held d i hd)

/-- A call moves on, perhaps giving up locks of its own: the files, the path
and the other calls are as before. -/
theorem Inv.advance {s s' : Sys} (hi : Inv s) {c : Nat} {p : Pc} (hpath : s'.path = s.path)
    (hnext : s'.next = s.next) (hcontent : s'.content = s.content) (hdrawn : s'.drawn = s.drawn)
    (hpc : s'.pc = Function.update s.pc c p)
    (hsub : ∀ l ∈ s'.fileLocks, l ∈ s.fileLocks)
    (hkeep : ∀ i d, d ≠ c → (i, d) ∈ s.fileLocks → (i, d) ∈ s'.fileLocks)
    (hheld : ∀ i, p.held = some i → (i, c) ∈ s'.fileLocks)
    (hinode : ∀ i, p.inode = some i → (s.pc c).inode = some i ∨ i + 1 = s.next)
    (htoken : ∀ i t, p.token = some (i, t) → (s.pc c).token = some (i, t))
    (hver : p.Verified s.path) : Inv s' := by
  have same : s'.pc c = p := by rw [hpc, Function.update_self]
  have other : ∀ d, d ≠ c → s'.pc d = s.pc d := fun d hd => by rw [hpc, Function.update_of_ne hd]
  refine ⟨hpath ▸ hnext ▸ hi.path_last, fun i a b ha hb => hi.excl i a b (hsub _ ha) (hsub _ hb),
    fun d i hd => ?_, fun d i hd => ?_, fun d i t hd => ?_, hdrawn ▸ hi.drawn_inj,
    hcontent ▸ hdrawn ▸ hi.content_drawn, hcontent ▸ hnext ▸ hi.content_lt, fun k t d i hk hdr hd => ?_,
    fun d => ?_⟩
  · by_cases hdc : d = c
    · subst hdc; rw [same] at hd; exact hheld i hd
    · rw [other d hdc] at hd; exact hkeep i d hdc (hi.held d i hd)
  · rw [hnext]
    by_cases hdc : d = c
    · subst hdc
      rw [same] at hd
      rcases hinode i hd with h | h
      · exact hi.inode_lt d i h
      · omega
    · rw [other d hdc] at hd; exact hi.inode_lt d i hd
  · rw [hcontent, hdrawn]
    by_cases hdc : d = c
    · subst hdc; rw [same] at hd; exact hi.token d i t (htoken i t hd)
    · rw [other d hdc] at hd; exact hi.token d i t hd
  · rw [hcontent] at hk
    rw [hdrawn] at hdr
    by_cases hdc : d = c
    · subst hdc
      rw [same] at hd
      rcases hinode i hd with h | h
      · exact hi.content_le k t d i hk hdr h
      · have := hi.content_lt k t hk; omega
    · rw [other d hdc] at hd; exact hi.content_le k t d i hk hdr hd
  · rw [hpath]
    by_cases hdc : d = c
    · subst hdc; rw [same]; exact hver
    · rw [other d hdc]; exact hi.verified d

/-- The common case: the locks stay. -/
theorem Inv.goto {s : Sys} (hi : Inv s) {c : Nat} {p : Pc}
    (hheld : ∀ i, p.held = some i → (s.pc c).held = some i)
    (hinode : ∀ i, p.inode = some i → (s.pc c).inode = some i ∨ i + 1 = s.next)
    (htoken : ∀ i t, p.token = some (i, t) → (s.pc c).token = some (i, t))
    (hver : p.Verified s.path) : Inv (s.goto c p) :=
  hi.advance rfl rfl rfl rfl rfl (fun _ h => h) (fun _ _ _ h => h) (fun i h => hi.held c i (hheld i h))
    hinode htoken hver

/-- A move that keeps inode, lock and token. -/
theorem Inv.stay {s : Sys} (hi : Inv s) {c : Nat} {p : Pc} (hheld : p.held = (s.pc c).held)
    (hinode : p.inode = (s.pc c).inode) (htoken : p.token = (s.pc c).token) (hver : p.Verified s.path) :
    Inv (s.goto c p) :=
  hi.goto (fun _ h => hheld ▸ h) (fun _ h => .inl (hinode ▸ h)) (fun _ _ h => htoken ▸ h) hver

/-- A move that forgets them. -/
theorem Inv.leave {s : Sys} (hi : Inv s) {c : Nat} {p : Pc} (hheld : p.held = none) (hinode : p.inode = none)
    (htoken : p.token = none) (hver : p.Verified s.path) : Inv (s.goto c p) :=
  hi.goto (by simp [hheld]) (by simp [hinode]) (by simp [htoken]) hver

section
variable {kind : LockKind} {proc : Nat → Nat} {s : Sys} {c : Nat}

/-- The OS's locks are no part of the invariant. -/
theorem Inv.closeOther (hi : Inv s) (i : Nat) : Inv (s.closeOther kind proc c i) :=
  ⟨hi.path_last, hi.excl, hi.held, hi.inode_lt, hi.token, hi.drawn_inj, hi.content_drawn, hi.content_lt,
    hi.content_le, hi.verified⟩

/-- A call that gives its lock up, or fails to, and holds nothing afterwards. -/
theorem Inv.letGo (hi : Inv s) {p : Pc} (ok : Bool) (i : Nat) (hheld : p.held = none) (hinode : p.inode = none)
    (htoken : p.token = none) (hver : p.Verified s.path) :
    Inv ((if ok then s.releaseOwn kind proc c i else s).goto c p) := by
  cases ok with
  | false =>
    exact hi.leave hheld hinode htoken hver
  | true =>
    refine hi.advance rfl rfl rfl rfl rfl (fun l hl => (List.mem_filter.mp hl).1) (fun k d hd hl => ?_)
      (by simp [hheld]) (by simp [hinode]) (by simp [htoken]) hver
    exact List.mem_filter.mpr ⟨hl, by simp [hd]⟩

/-- Opening the path: the newest inode, or a new one. -/
theorem Inv.open (hi : Inv s) (left : Nat) : Inv (s.create.1.goto c (.opened left s.create.2)) := by
  simp only [Sys.create]
  split
  · next i hp =>
    refine hi.goto (fun _ h => by cases h) (fun k hk => ?_) (fun _ _ h => by cases h) trivial
    cases hk
    exact .inr (hi.path_last _ hp)
  · next hp =>
    have hnew : ∀ k t, Function.update s.content s.next none k = some t → s.content k = some t := by
      intro k t hk
      by_cases hkn : k = s.next
      · subst hkn; simp at hk
      · rwa [Function.update_of_ne hkn] at hk
    have hkept : Inv { s with path := some s.next, next := s.next + 1
                              content := Function.update s.content s.next none } := by
      refine ⟨fun j hj => by cases hj; rfl, hi.excl, hi.held, fun d i hd => ?_, fun d i t hd => ?_, hi.drawn_inj,
        fun k t hk => hi.content_drawn k t (hnew k t hk), fun k t hk => ?_,
        fun k t d i hk => hi.content_le k t d i (hnew k t hk), fun d => ?_⟩
      · exact Nat.lt_succ_of_lt (hi.inode_lt d i hd)
      · have hne : i ≠ s.next := Nat.ne_of_lt (hi.inode_lt d i (Pc.inode_of_token hd))
        simp only [Function.update_of_ne hne]
        exact hi.token d i t hd
      · exact Nat.lt_succ_of_lt (hi.content_lt k t (hnew k t hk))
      · exact (hi.verified d).mono fun i _ h => by rw [hp] at h; cases h
    refine hkept.goto (fun _ h => by cases h) (fun k hk => ?_) (fun _ _ h => by cases h) trivial
    cases hk
    exact .inr rfl

/-- A lock on an inode without one. -/
theorem Inv.grant (hi : Inv s) {left i : Nat} (hpc : s.pc c = .opened left i)
    (hfree : ∀ d, (i, d) ∉ s.fileLocks) :
    Inv ({ s with
      fileLocks := (i, c) :: s.fileLocks
      osLocks := (i, c) :: s.osLocks }.goto c (.locked left i)) := by
  have hkept : Inv { s with fileLocks := (i, c) :: s.fileLocks, osLocks := (i, c) :: s.osLocks } := by
    refine ⟨hi.path_last, fun k a b ha hb => ?_, fun d k hd => List.mem_cons_of_mem _ (hi.held d k hd),
      hi.inode_lt, hi.token, hi.drawn_inj, hi.content_drawn, hi.content_lt, hi.content_le, hi.verified⟩
    simp only [List.mem_cons, Prod.mk.injEq] at ha hb
    rcases ha with ⟨rfl, rfl⟩ | ha
    · rcases hb with ⟨-, rfl⟩ | hb
      · rfl
      · exact absurd hb (hfree b)
    · rcases hb with ⟨rfl, rfl⟩ | hb
      · exact absurd ha (hfree a)
      · exact hi.excl k a b ha hb
  refine hkept.advance rfl rfl rfl rfl rfl (fun _ h => h) (fun _ _ _ h => h) (fun k hk => ?_)
    (fun k hk => .inl ?_) (fun _ _ h => by cases h) trivial
  · cases hk; exact List.mem_cons_self
  · cases hk; rw [show _ = _ from hpc]; rfl

/-- With a fresh token drawn, a token still has one drawer. -/
theorem Inv.write_drawn (hi : Inv s) {t : Int} (hfresh : ∀ x ∈ s.drawn, x.2 = t → x.1 = some c) (a b : Option Nat)
    (t' : Int) (ha : (a, t') ∈ (some c, t) :: s.drawn) (hb : (b, t') ∈ (some c, t) :: s.drawn) : a = b := by
  simp only [List.mem_cons, Prod.mk.injEq] at ha hb
  rcases ha with ⟨rfl, rfl⟩ | ha <;> rcases hb with ⟨rfl, hb⟩ | hb
  · rfl
  · exact (hfresh _ hb rfl).symm
  · exact hfresh _ ha hb
  · exact hi.drawn_inj a b t' ha hb

/-- Writing a token that no other call has drawn, to a held inode. -/
theorem Inv.write (hi : Inv s) {left i : Nat} {t : Int} (hpc : s.pc c = .locked left i) (h0 : t ≠ 0)
    (hfresh : ∀ x ∈ s.drawn, x.2 = t → x.1 = some c) :
    Inv ({ s with content := Function.update s.content i (some t)
                  drawn := (some c, t) :: s.drawn }.goto c (.written left i t)) := by
  have hci : (s.pc c).inode = some i := by rw [hpc]; rfl
  have hch : (s.pc c).held = some i := by rw [hpc]; rfl
  have hinj := hi.write_drawn hfresh
  -- The move to `written` changes neither inode nor lock of any call.
  have hinode : ∀ d, (Function.update s.pc c (.written left i t) d).inode = (s.pc d).inode := fun d => by
    by_cases hdc : d = c
    · subst hdc; rw [Function.update_self, hci]; rfl
    · rw [Function.update_of_ne hdc]
  have hheld : ∀ d, (Function.update s.pc c (.written left i t) d).held = (s.pc d).held := fun d => by
    by_cases hdc : d = c
    · subst hdc; rw [Function.update_self, hch]; rfl
    · rw [Function.update_of_ne hdc]
  have hwrote : ∀ k t', Function.update s.content i (some t) k = some t' →
      (k = i ∧ t' = t) ∨ (k ≠ i ∧ s.content k = some t') := fun k t' hk => by
    by_cases hki : k = i
    · subst hki; rw [Function.update_self] at hk; cases hk; exact .inl ⟨rfl, rfl⟩
    · rw [Function.update_of_ne hki] at hk; exact .inr ⟨hki, hk⟩
  refine ⟨hi.path_last, hi.excl, fun d k hd => hi.held d k (hheld d ▸ hd),
    fun d k hd => hi.inode_lt d k (hinode d ▸ hd), fun d k t' hd => ?_, hinj, fun k t' hk => ?_,
    fun k t' hk => ?_, fun k t' d m hk hdr hd => ?_, fun d => ?_⟩
  · by_cases hdc : d = c
    · subst hdc
      simp only [Sys.goto, Function.update_self] at hd
      cases hd
      exact ⟨Function.update_self .., List.mem_cons_self, h0⟩
    · simp only [Sys.goto, Function.update_of_ne hdc] at hd
      -- Another call's token is in another inode: each inode has one holder.
      have hne : k ≠ i := fun hki => hdc (hi.held_inj (hki ▸ Pc.held_of_token hd) hch)
      obtain ⟨h1, h2, h3⟩ := hi.token d k t' hd
      exact ⟨by simp only [Sys.goto, Function.update_of_ne hne]; exact h1, List.mem_cons_of_mem _ h2, h3⟩
  · rcases hwrote k t' hk with ⟨-, rfl⟩ | ⟨-, hk⟩
    · exact ⟨some c, List.mem_cons_self⟩
    · obtain ⟨a, ha⟩ := hi.content_drawn k t' hk
      exact ⟨a, List.mem_cons_of_mem _ ha⟩
  · rcases hwrote k t' hk with ⟨rfl, -⟩ | ⟨-, hk⟩
    · exact hi.inode_lt c k hci
    · exact hi.content_lt k t' hk
  · have hdm : (s.pc d).inode = some m := hinode d ▸ hd
    rcases hwrote k t' hk with ⟨rfl, rfl⟩ | ⟨-, hk⟩
    · have hdc : d = c := Option.some.inj (hinj _ _ _ hdr List.mem_cons_self)
      subst hdc
      rw [hci] at hdm
      cases hdm
      exact Nat.le_refl _
    · -- If the file already held this token it was drawn before, and by the same call.
      obtain ⟨a, ha⟩ := hi.content_drawn k t' hk
      have had : a = some d := hinj _ _ _ (List.mem_cons_of_mem _ ha) hdr
      exact hi.content_le k t' d m hk (had ▸ ha) hdm
  · by_cases hdc : d = c
    · subst hdc; simp only [Sys.goto, Function.update_self]; trivial
    · simp only [Sys.goto, Function.update_of_ne hdc]; exact hi.verified d

/-- An owner takes the path away: it is its own inode's, which nobody else holds. -/
theorem Inv.delete (hi : Inv s) {i : Nat} (hpc : s.pc c = .owner i) (ok : Bool) :
    Inv ((if ok then { s with path := none } else s).goto c (.deleted i)) := by
  have hch : (s.pc c).held = some i := by rw [hpc]; rfl
  have hown : s.path = some i := by have := hi.verified c; rwa [hpc] at this
  have hdel : Inv (s.goto c (.deleted i)) :=
    hi.goto (fun k hk => by cases hk; exact hch) (fun _ h => by cases h) (fun _ _ h => by cases h) trivial
  cases ok with
  | false => exact hdel
  | true =>
    refine ⟨fun _ h => (nomatch h), hdel.excl, hdel.held, hdel.inode_lt, hdel.token, hdel.drawn_inj,
      hdel.content_drawn, hdel.content_lt, hdel.content_le, fun d => ?_⟩
    by_cases hdc : d = c
    · subst hdc; simp only [Sys.goto, if_true, Function.update_self]; trivial
    · simp only [Sys.goto, if_true, Function.update_of_ne hdc]
      refine (hi.verified d).mono fun k hk hpk => ?_
      rw [hown] at hpk
      cases hpk
      exact absurd (hi.held_inj hk hch) hdc

/-- A process dies with its calls and its locks. -/
theorem Inv.crash (hi : Inv s) (p : Nat) :
    Inv { s with
      pc := fun c => if proc c = p then .dead else s.pc c
      fileLocks := s.fileLocks.filter fun l => proc l.2 ≠ p
      osLocks := s.osLocks.filter fun l => proc l.2 ≠ p } := by
  have old : ∀ {α : Type} (f : Pc → Option α) d x, f .dead = none →
      f (if proc d = p then .dead else s.pc d) = some x → proc d ≠ p ∧ f (s.pc d) = some x := by
    intro α f d x hf h
    split at h
    · rw [hf] at h; cases h
    · next hp => exact ⟨hp, h⟩
  refine ⟨hi.path_last, fun i a b ha hb => hi.excl i a b (List.mem_filter.mp ha).1 (List.mem_filter.mp hb).1,
    fun d i hd => ?_, fun d i hd => hi.inode_lt d i (old Pc.inode d i rfl hd).2,
    fun d i t hd => hi.token d i t (old Pc.token d _ rfl hd).2, hi.drawn_inj, hi.content_drawn, hi.content_lt,
    fun k t d i hk hdr hd => hi.content_le k t d i hk hdr (old Pc.inode d i rfl hd).2, fun d => ?_⟩
  · obtain ⟨hp, hd⟩ := old Pc.held d i rfl hd
    exact List.mem_filter.mpr ⟨hi.held d i hd, by simpa using hp⟩
  · simp only
    split
    · trivial
    · exact hi.verified d

end

/-! ## One step -/

/-- Tokens are non-zero, and different calls draw different ones. -/
def FreshToken (s : Sys) : Label → Prop
  | .write c token _ => token ≠ 0 ∧ ∀ x ∈ s.drawn, x.2 = token → x.1 = some c
  | _ => True

instance (s : Sys) : ∀ l, Decidable (FreshToken s l)
  | .write c token _ => inferInstanceAs (Decidable (token ≠ 0 ∧ ∀ x ∈ s.drawn, x.2 = token → x.1 = some c))
  | .call _ | .open .. | .tryLock .. | .closeRefused .. | .force .. | .reopen .. | .read .. | .closeRead ..
  | .decide _ | .release .. | .closeChannel .. | .giveUp _ | .delete .. | .unlock .. | .closeOwned ..
  | .closeAgain .. | .reap _ | .crash _ => inferInstanceAs (Decidable True)

/-- No lock is closed twice. -/
def Label.Once : Label → Bool
  | .closeAgain .. => false
  | _ => true

/-- A lock is granted only on an inode that carries none. -/
def Excludes (kind : LockKind) (proc : Nat → Nat) (s : Sys) : Label → Prop
  | .tryLock c _ => ∀ left i, s.pc c = .opened left i → s.grants kind proc c i = true → ∀ d, (i, d) ∉ s.fileLocks
  | _ => True

section
variable {kind : LockKind} {proc : Nat → Nat} {s s' : Sys}

/-- The token read back is the call's own only from the inode it has locked. -/
theorem Inv.read (hi : Inv s) {c left i j : Nat} {t : Int} (hpc : s.pc c = .reopened left i t j) (ok : Bool) :
    Inv (s.goto c (.readBack left i t j (if ok then some ((s.content j).getD 0) else none))) := by
  have hti : (s.pc c).token = some (i, t) := by rw [hpc]; rfl
  refine hi.stay (by rw [hpc]; rfl) (by rw [hpc]; rfl) (by rw [hpc]; rfl) fun hseen => ?_
  obtain ⟨-, hdr, h0⟩ := hi.token c i t hti
  have hver := hi.verified c
  rw [hpc] at hver
  cases ok with
  | false => cases hseen
  | true =>
    simp only [if_true, Option.some.injEq] at hseen
    cases hj : s.content j with
    | none => rw [hj] at hseen; exact absurd hseen.symm h0
    | some u =>
      rw [hj, Option.getD_some] at hseen
      subst hseen
      have hle : j ≤ i := hi.content_le j u c i hj hdr (Pc.inode_of_token hti)
      exact hver.2 (Nat.le_antisymm hle hver.1)

/-- **One step** keeps the invariant, given what it rests on. -/
theorem Inv.step {l : Label} (hi : Inv s) (hfresh : FreshToken s l) (honce : l.Once = true)
    (hex : Excludes kind proc s l) (h : step kind proc s l = some s') : Inv s' := by
  cases l with
  | call c =>
    simp only [DbOwnerLock.step] at h
    split at h <;> cases h
    exact hi.leave rfl rfl rfl trivial
  | «open» c ok =>
    simp only [DbOwnerLock.step] at h
    split at h
    · split at h <;> cases h
      · exact hi.open _
      · exact hi.leave rfl rfl rfl trivial
    · cases h
  | tryLock c ok =>
    simp only [DbOwnerLock.step] at h
    split at h
    · next left i hpc =>
      split at h
      · cases h
        exact hi.leave rfl rfl rfl trivial
      · split at h <;> cases h
        · next hg => exact hi.grant hpc (hex left i hpc hg)
        · exact hi.leave rfl rfl rfl trivial
    · cases h
  | closeRefused c ok =>
    simp only [DbOwnerLock.step] at h
    split at h
    · split at h <;> cases h
      · exact (hi.closeOther _).leave rfl rfl rfl trivial
      · exact hi.leave rfl rfl rfl trivial
    · cases h
  | write c token ok =>
    simp only [DbOwnerLock.step] at h
    split at h
    · next left i hpc =>
      split at h <;> cases h
      · exact hi.write hpc hfresh.1 hfresh.2
      · exact hi.leave rfl rfl rfl trivial
    · cases h
  | force c ok =>
    simp only [DbOwnerLock.step] at h
    split at h
    · next left i token hpc =>
      split at h <;> cases h
      · exact hi.stay (by rw [hpc]; rfl) (by rw [hpc]; rfl) (by rw [hpc]; rfl) trivial
      · exact hi.leave rfl rfl rfl trivial
    · cases h
  | reopen c ok =>
    simp only [DbOwnerLock.step] at h
    split at h
    · next left i token hpc =>
      split at h
      · next j hj =>
        split at h <;> cases h
        · refine hi.stay (by rw [hpc]; rfl) (by rw [hpc]; rfl) (by rw [hpc]; rfl) ⟨?_, fun hji => hji ▸ hj⟩
          have h1 := hi.path_last j hj
          have h2 := hi.inode_lt c i (by rw [hpc]; rfl)
          omega
        · exact hi.stay (by rw [hpc]; rfl) (by rw [hpc]; rfl) (by rw [hpc]; rfl) fun hs => by cases hs
      · cases h
        exact hi.stay (by rw [hpc]; rfl) (by rw [hpc]; rfl) (by rw [hpc]; rfl) fun hs => by cases hs
    · cases h
  | read c ok =>
    simp only [DbOwnerLock.step] at h
    split at h <;> cases h
    next hpc => exact hi.read hpc ok
  | closeRead c ok =>
    simp only [DbOwnerLock.step] at h
    split at h <;> cases h
    next left i token j seen hpc =>
    have hver := hi.verified c
    rw [hpc] at hver
    have hpc' : (s.closeOther kind proc c j).pc c = _ := hpc
    refine (hi.closeOther j).stay (by rw [hpc']; rfl) (by rw [hpc']; rfl) (by rw [hpc']; rfl) fun hs => ?_
    cases ok with
    | false => cases hs
    | true => exact hver hs
  | decide c =>
    simp only [DbOwnerLock.step] at h
    split at h <;> cases h
    next left i token seen hpc =>
    have hver := hi.verified c
    rw [hpc] at hver
    have hch : (s.pc c).held = some i := by rw [hpc]; rfl
    split
    · next hs =>
      exact hi.goto (fun k hk => by rw [hch, ← hk]; rfl) (fun _ h => by cases h) (fun _ _ h => by cases h)
        (hver hs)
    · exact hi.goto (fun k hk => by rw [hch, ← hk]; rfl) (fun _ h => by cases h) (fun _ _ h => by cases h)
        trivial
  | release c ok | closeChannel c ok | unlock c ok | closeOwned c ok =>
    simp only [DbOwnerLock.step] at h
    split at h <;> cases h
    exact hi.letGo ok _ rfl rfl rfl trivial
  | giveUp c =>
    simp only [DbOwnerLock.step] at h
    split at h <;> cases h
    exact hi.leave rfl rfl rfl trivial
  | delete c ok =>
    simp only [DbOwnerLock.step] at h
    split at h <;> cases h
    next hpc => exact hi.delete hpc ok
  | closeAgain c ok => cases honce
  | reap c =>
    simp only [DbOwnerLock.step] at h
    split at h <;> cases h
    exact hi.letGo true _ rfl rfl rfl trivial
  | crash p =>
    simp only [DbOwnerLock.step] at h
    cases h
    exact hi.crash p

theorem Inv.owner_path (hi : Inv s) {c i : Nat} (hc : s.pc c = .owner i) : s.path = some i := by
  have := hi.verified c
  rwa [hc] at this

theorem Inv.owner_inj (hi : Inv s) {c d i j : Nat} (hc : s.pc c = .owner i) (hd : s.pc d = .owner j) :
    c = d := by
  have hij : some i = some j := (hi.owner_path hc).symm.trans (hi.owner_path hd)
  cases hij
  exact hi.held_inj (by rw [hc]; rfl) (by rw [hd]; rfl)

end

/-! ## Locks owned by their handle -/

/-- With handle locks the OS and the JVM agree. -/
theorem handle_mirror {proc : Nat → Nat} {s s' : Sys} {l : Label} (hm : s.osLocks = s.fileLocks)
    (h : step .handle proc s l = some s') : s'.osLocks = s'.fileLocks := by
  have hown : ∀ c i, (s.releaseOwn .handle proc c i).osLocks = (s.releaseOwn .handle proc c i).fileLocks :=
    fun c i => by simp only [Sys.releaseOwn, Sys.osDrop, if_true, hm]
  cases l with
  | crash p =>
    simp only [step, Option.some.injEq] at h
    subst h
    simp only [hm]
  | «open» c ok =>
    simp only [step] at h
    split at h
    · split at h <;> cases h
      · simp only [Sys.create, Sys.goto]
        split <;> exact hm
      · exact hm
    · cases h
  | reopen c ok =>
    simp only [step] at h
    split at h
    · split at h
      · split at h <;> cases h <;> exact hm
      · cases h; exact hm
    · cases h
  | tryLock c ok =>
    simp only [step] at h
    split at h
    · split at h
      · cases h; exact hm
      · split at h <;> cases h
        · simp only [Sys.goto, hm]
        · exact hm
    · cases h
  | release c ok | closeChannel c ok | unlock c ok | closeOwned c ok =>
    simp only [step] at h
    split at h <;> cases h
    cases ok with
    | true => exact hown c _
    | false => exact hm
  | reap c =>
    simp only [step] at h
    split at h <;> cases h
    exact hown c _
  | closeAgain c ok | delete c ok =>
    simp only [step] at h
    split at h <;> cases h
    all_goals cases ok <;> exact hm
  | closeRefused c ok | write c t ok | force c ok =>
    simp only [step] at h
    split at h
    · split at h <;> cases h <;> exact hm
    · cases h
  | call c | read c ok | closeRead c ok | decide c | giveUp c =>
    simp only [step] at h
    split at h <;> cases h
    exact hm

theorem handle_excludes {proc : Nat → Nat} {s : Sys} (hm : s.osLocks = s.fileLocks) (l : Label) :
    Excludes .handle proc s l := by
  cases l with
  | tryLock c ok =>
    intro left i _ hg d hd
    simp only [Sys.grants, Sys.conflicts, Bool.and_eq_true, Bool.not_eq_true', List.any_eq_false, hm] at hg
    have := hg.2 (i, d) hd
    simp at this
  | _ => trivial

/-- An owner has the lock on the inode that the path names, and is the only one. -/
structure Owned (s : Sys) : Prop where
  holds : ∀ c i, s.pc c = .owner i → s.path = some i ∧ (i, c) ∈ s.osLocks
  unique : ∀ c d i j, s.pc c = .owner i → s.pc d = .owner j → c = d

/-- **The token round trip works** for locks owned by their handle: over any
interleaving of the steps of any calls in any processes, with failures and
crashes at every point and any sidecar left behind at the start. -/
theorem handle_run_owned (proc : Nat → Nat) (sidecar : Option (Option Int)) (labels : List Label)
    (h : EveryStep (step .handle proc) (fun s l => FreshToken s l ∧ l.Once = true) (start sidecar) labels) :
    EveryState (step .handle proc) Owned (start sidecar) labels := by
  refine everyState_of_invariant (I := fun s => Inv s ∧ s.osLocks = s.fileLocks)
    (fun s l s' hi hok hs => ⟨hi.1.step hok.1 hok.2 (handle_excludes hi.2 l) hs, handle_mirror hi.2 hs⟩)
    (fun s hi => ?_) ⟨inv_start sidecar, ?_⟩ h
  · refine ⟨fun c i hc => ⟨hi.1.owner_path hc, ?_⟩, fun c d i j hc hd => hi.1.owner_inj hc hd⟩
    rw [hi.2]
    exact hi.1.held c i (by rw [hc]; rfl)
  · rcases sidecar with _ | _ | t <;> rfl

/-- One `acquire` from its call to its return. -/
def acquires (c : Nat) (token : Int) : List Label :=
  [.call c, .open c true, .tryLock c true, .write c token true, .force c true, .reopen c true, .read c true,
   .closeRead c true, .decide c]

/-- An owner that crashes, the next one that finds its sidecar and closes,
and a third one that had opened the deleted inode and has to try again. -/
def takeover : List Label :=
  acquires 0 7 ++ [.crash 0] ++ acquires 1 8 ++ [.call 2, .open 2 true, .delete 1 true, .unlock 1 true] ++
    [.tryLock 2 true, .write 2 9 true, .force 2 true, .reopen 2 true, .decide 2, .release 2 true,
     .closeChannel 2 true] ++ (acquires 2 10).drop 1

theorem handle_run_owned_takeover :
    (run (step .handle id) (start (some (some 3))) takeover).map (fun s => (s.pc 0, s.pc 1, s.pc 2)) =
      some (.dead, .released 0, .owner 1) ∧
    EveryState (step .handle id) Owned (start (some (some 3))) takeover :=
  ⟨by decide +kernel, handle_run_owned id (some (some 3)) takeover (by decide +kernel)⟩

/-! ## POSIX record locks -/

/-- Nobody tries an inode on which another process has a `FileLock` whose
POSIX lock is gone. -/
def NotLost (proc : Nat → Nat) (s : Sys) : Label → Prop
  | .tryLock c _ => ∀ l ∈ s.fileLocks, (s.pc c).inode = some l.1 → proc l.2 ≠ proc c → l ∈ s.osLocks
  | _ => True

instance (proc : Nat → Nat) (s : Sys) : ∀ l, Decidable (NotLost proc s l)
  | .tryLock c _ => inferInstanceAs (Decidable
      (∀ l ∈ s.fileLocks, (s.pc c).inode = some l.1 → proc l.2 ≠ proc c → l ∈ s.osLocks))
  | .call _ | .open .. | .closeRefused .. | .write .. | .force .. | .reopen .. | .read .. | .closeRead ..
  | .decide _ | .release .. | .closeChannel .. | .giveUp _ | .delete .. | .unlock .. | .closeOwned ..
  | .closeAgain .. | .reap _ | .crash _ => inferInstanceAs (Decidable True)

theorem NotLost.excludes {kind : LockKind} {proc : Nat → Nat} {s : Sys} {l : Label} (h : NotLost proc s l) :
    Excludes kind proc s l := by
  cases l with
  | tryLock c ok =>
    intro left i hpc hg d hd
    simp only [Sys.grants, Sys.overlaps, Bool.and_eq_true, Bool.not_eq_true', List.any_eq_false, decide_eq_true_eq,
      not_and] at hg
    have hproc : proc d ≠ proc c := hg.1 (i, d) hd rfl
    have hos : (i, d) ∈ s.osLocks := h (i, d) hd (by rw [hpc]; rfl) hproc
    have hfree := hg.2
    cases kind with
    | process =>
      simp only [Sys.conflicts, List.any_eq_false, decide_eq_true_eq, not_and] at hfree
      exact hfree (i, d) hos rfl hproc
    | handle =>
      simp only [Sys.conflicts, List.any_eq_false, decide_eq_true_eq] at hfree
      exact hfree (i, d) hos rfl
  | _ => trivial

/-- No two processes own the database. -/
def Exclusive (proc : Nat → Nat) (s : Sys) : Prop :=
  ∀ c d i j, s.pc c = .owner i → s.pc d = .owner j → proc c = proc d

/-- **What POSIX locks leave of it**: in every run with fresh tokens, no lock
closed twice, and no attempt on an inode whose lock its holder has lost, one
process owns the database at a time. -/
theorem posix_run_exclusive (proc : Nat → Nat) (sidecar : Option (Option Int)) (labels : List Label)
    (h : EveryStep (step .process proc) (fun s l => (FreshToken s l ∧ l.Once = true) ∧ NotLost proc s l)
      (start sidecar) labels) :
    EveryState (step .process proc) (Exclusive proc) (start sidecar) labels := by
  refine everyState_of_invariant (fun s l s' hi hok hs => hi.step hok.1.1 hok.1.2 hok.2.excludes hs)
    (fun s hi => ?_) (inv_start sidecar) h
  intro c d i j hc hd
  exact congrArg proc (hi.owner_inj hc hd)

theorem posix_run_exclusive_handover :
    (run (step .process id) (start none)
      (acquires 0 7 ++ [.delete 0 true, .unlock 0 true, .closeOwned 0 true] ++ acquires 1 8)).map
        (fun s => (s.pc 0, s.pc 1)) = some (.closed, .owner 1) ∧
    EveryState (step .process id) (Exclusive id) (start none)
      (acquires 0 7 ++ [.delete 0 true, .unlock 0 true, .closeOwned 0 true] ++ acquires 1 8) :=
  ⟨by decide +kernel, posix_run_exclusive id none _ (by decide +kernel)⟩

/-- **Two owners**: the first one's round trip closes `c2`, a descriptor of
the inode it has locked, and the second process finds the inode unlocked. -/
theorem posix_two_owners :
    ¬ EveryState (step .process id) (Exclusive id) (start none) (acquires 0 7 ++ acquires 1 8) := by
  intro hall
  have hend : (run (step .process id) (start none) (acquires 0 7 ++ acquires 1 8)).map
      (fun s => (s.pc 0, s.pc 1)) = some (.owner 0, .owner 0) := by decide +kernel
  obtain ⟨s, hs, he⟩ := Option.map_eq_some_iff.mp hend
  simp only [Prod.mk.injEq] at he
  exact absurd (hall.last hs 0 1 0 0 he.1 he.2) (by decide)

end DbOwnerLock

end Sqlol
