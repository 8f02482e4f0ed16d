/-
The keys that one `WorkerDB` connection has, and what each of its steps does to
them against what it does to the registry.

`Holds` are the keys that must be registered, `Owes` those that the connection may
still free. A step registers one key or frees some; `step_spec` says that it keeps
what the connection holds registered and frees nothing that it holds, as long as
the key that `nextKey` gives it is one it does not have yet. That is all the
registry's side needs (`CallbackAgreement`).
-/
import Sqlol.CallbackRegistry

namespace Sqlol

namespace CallbackRegistry

namespace Op

/-- The hook keys that are taken out of their fields and not freed yet. -/
def old : Op → List (Hook × Nat)
  | .hooking _ _ old | .freeing old _ | .closing old => old
  | _ => []

/-- The hooks that SQLite may still have an old key for. -/
def unset (op : Op) (h : Hook) : Prop :=
  match op with
  | .hooking hooks _ _ => h ∈ hooks
  | .closing _ => True
  | _ => False

/-- The key on its way into SQLite. -/
def made : Op → Option (Kind × Nat)
  | .creating what k => some (what.kind, k)
  | _ => none

/-- The key that SQLite has refused. -/
def turnedDown : Op → Option (Kind × Nat)
  | .refused what k => some (what.kind, k)
  | _ => none

/-- The fields are 0: before `open`, and from `_close` on. -/
def blank : Op → Bool
  | .unopened | .closing _ | .ended => true
  | .freeing _ last => last
  | _ => false

/-- SQLite has no connection. -/
def shut : Op → Bool
  | .unopened | .ended => true
  | .freeing _ last => last
  | _ => false

end Op

namespace WorkerDb

/-- The keys that have to be registered: a hook's in its field or still to free, a function's or a
collation's in SQLite or on the way there. -/
def Holds (d : WorkerDb) : Kind → Nat → Prop
  | .hook h, k => k ≠ 0 ∧ (d.key h = k ∨ (h, k) ∈ d.op.old)
  | kind, k => (∃ slot, (slot, k) ∈ d.entries ∧ slot.kind = kind) ∨ d.op.made = some (kind, k)

/-- A refused key may be registered still. -/
def Owes (d : WorkerDb) (kind : Kind) (k : Nat) : Prop := d.Holds kind k ∨ d.op.turnedDown = some (kind, k)

/-- Whether DB's listener sets have the hook on; the other two are always free to set. -/
def listening (d : WorkerDb) : Hook → Bool
  | .busy | .progress => true
  | .commit | .rollback => d.commitListeners ≠ []
  | .update => d.updateListeners ≠ []

/-- What the fields of one connection and SQLite's slots have to do with each other, at every point of an
operation. -/
structure WF (d : WorkerDb) : Prop where
  hook : ∀ h k, d.hook h = some k → k ≠ 0 ∧ (d.key h = k ∨ (h, k) ∈ d.op.old ∧ d.op.unset h)
  old : ∀ h k, (h, k) ∈ d.op.old → k ≠ 0 → d.key h ≠ k
  nodup : (d.op.old.map (·.1)).Nodup
  made : ∀ kind k, d.op.made = some (kind, k) ∨ d.op.turnedDown = some (kind, k) → ∀ slot, (slot, k) ∉ d.entries
  listening : ∀ h, d.listening h = false → d.key h = 0
  rollback : d.op = .registerRollback → d.key .rollback = 0 ∧ d.commitListeners ≠ []
  blank : d.op.blank = true → ∀ h, d.key h = 0
  shut : d.op.shut = true → d.entries = []

theorem wf_default : ({} : WorkerDb).WF where
  hook h k hk := by cases hk
  old h k hm := by cases hm
  nodup := List.nodup_nil
  made kind k hm slot := by simp
  listening _ _ := rfl
  rollback h := by cases h
  blank _ _ := rfl
  shut _ := rfl

/-- What a step does to the connection's keys, against what it does to the registry. -/
def Moves (d d' : WorkerDb) (key : Nat) : Effect → Prop
  | .register kind =>
    (∀ kd k, d'.Holds kd k → d.Holds kd k ∨ kd = kind ∧ k = key) ∧
      (∀ kd k, d'.Owes kd k ↔ d.Owes kd k ∨ kd = kind ∧ k = key)
  | .free keys =>
    (∀ kd k, d'.Holds kd k → d.Holds kd k ∧ k ∉ keys) ∧ (∀ kd k, d'.Owes kd k → d.Owes kd k) ∧
      (∀ kd k, d.Owes kd k → k ∉ keys → d'.Owes kd k) ∧ (∀ k ∈ keys, ∃ kd, d.Owes kd k)

end WorkerDb

/-! ## One step of a connection -/

namespace WorkerDb

variable {d d' : WorkerDb} {key : Nat} {kind : Kind}

/-- A step that leaves the registry alone. -/
theorem Moves.still (hh : ∀ kd k, d'.Holds kd k → d.Holds kd k) (ho : ∀ kd k, d'.Owes kd k ↔ d.Owes kd k) :
    Moves d d' key (.free []) :=
  ⟨fun kd k h => ⟨hh kd k h, List.not_mem_nil⟩, fun kd k => (ho kd k).mp, fun kd k h _ => (ho kd k).mpr h, by simp⟩

theorem holds_congr (hk : d'.key = d.key) (he : d'.entries = d.entries) (ho : d'.op.old = d.op.old)
    (hm : d'.op.made = d.op.made) (kd : Kind) (k : Nat) : d'.Holds kd k ↔ d.Holds kd k := by
  cases kd <;> simp only [Holds, hk, he, ho, hm]

theorem Moves.congr {op : Op} (hop : d.op = op) (hk : d'.key = d.key) (he : d'.entries = d.entries)
    (ho : d'.op.old = op.old) (hm : d'.op.made = op.made) (ht : d'.op.turnedDown = op.turnedDown) :
    Moves d d' key (.free []) := by
  subst hop
  have hiff := holds_congr hk he ho hm
  exact .still (fun kd k => (hiff kd k).mp) fun kd k => by simp only [Owes, hiff, ht]

/-- The fields change while nothing else is under way: each key is in its field still, or in `old`
with its hook to be set. -/
structure Shifts (d d' : WorkerDb) : Prop where
  before : d.op = .idle ∨ d.op = .registerRollback
  hook : d'.hook = d.hook
  entries : d'.entries = d.entries
  keep : ∀ h, d.key h ≠ 0 → d'.key h = d.key h ∨ (h, d.key h) ∈ d'.op.old ∧ d'.op.unset h
  old : ∀ h k, (h, k) ∈ d'.op.old → k = d.key h ∧ (k ≠ 0 → d'.key h ≠ k)
  nodup : (d'.op.old.map (·.1)).Nodup
  made : d'.op.made = none
  turnedDown : d'.op.turnedDown = none
  listening : ∀ h, d'.listening h = false → d'.key h = 0
  rollback : d'.op = .registerRollback → d'.key .rollback = 0 ∧ d'.commitListeners ≠ []
  blank : d'.op.blank = true → ∀ h, d'.key h = 0
  shut : d'.op.shut = false

theorem Shifts.op_before (hs : Shifts d d') :
    d.op.old = [] ∧ (∀ h, ¬ d.op.unset h) ∧ d.op.made = none ∧ d.op.turnedDown = none := by
  rcases hs.before with hb | hb <;> simp [hb, Op.old, Op.unset, Op.made, Op.turnedDown]

theorem Shifts.wf (hs : Shifts d d') (hd : d.WF) : d'.WF where
  hook h k hk := by
    rw [hs.hook] at hk
    obtain ⟨hk, rfl | hk'⟩ := hd.hook h k hk
    · exact ⟨hk, hs.keep h hk⟩
    · exact absurd hk'.2 (hs.op_before.2.1 h)
  old h k hm := (hs.old h k hm).2
  nodup := hs.nodup
  made kd k hm := by simp [hs.made, hs.turnedDown] at hm
  listening := hs.listening
  rollback := hs.rollback
  blank := hs.blank
  shut h := by simp [hs.shut] at h

/-- The keys after it: those before it, and the one that is new. -/
theorem Shifts.holds (hs : Shifts d d') (key : Nat) (added : Option Hook)
    (hnew : ∀ h, d'.key h ≠ 0 → d'.key h = d.key h ∨ added = some h ∧ d'.key h = key)
    (hadd : ∀ h, added = some h → key ≠ 0 ∧ d'.key h = key) (kd : Kind) (k : Nat) :
    d'.Holds kd k ↔ d.Holds kd k ∨ ∃ h, added = some h ∧ kd = .hook h ∧ k = key := by
  obtain ⟨ho, -, hm, -⟩ := hs.op_before
  cases kd with
  | hook g =>
    simp only [Holds, ho, List.not_mem_nil, or_false]
    constructor
    · rintro ⟨hk, rfl | hk'⟩
      · rcases hnew g hk with hg | ⟨ha, hg⟩
        · exact .inl ⟨hk, hg.symm⟩
        · exact .inr ⟨g, ha, rfl, hg⟩
      · exact .inl ⟨hk, (hs.old g k hk').1.symm⟩
    · rintro (⟨hk, rfl⟩ | ⟨h, ha, hg, rfl⟩)
      · exact ⟨hk, (hs.keep g hk).imp_right And.left⟩
      · cases hg
        exact ⟨(hadd g ha).1, .inl (hadd g ha).2⟩
  | _ => simp [Holds, hs.entries, hs.made, hm]

theorem Shifts.owes (hs : Shifts d d') (kd : Kind) (k : Nat) :
    (d'.Owes kd k ↔ d'.Holds kd k) ∧ (d.Owes kd k ↔ d.Holds kd k) := by
  simp [Owes, hs.turnedDown, hs.op_before.2.2.2]

theorem Shifts.free (hs : Shifts d d') (hnew : ∀ h, d'.key h ≠ 0 → d'.key h = d.key h) :
    Moves d d' key (.free []) := by
  have hiff : ∀ kd k, d'.Holds kd k ↔ d.Holds kd k := by
    simpa using hs.holds key none (fun h hk => .inl (hnew h hk)) (by simp)
  refine .still (fun kd k => (hiff kd k).mp) fun kd k => ?_
  rw [(hs.owes kd k).1, (hs.owes kd k).2, hiff]

theorem Shifts.register (hs : Shifts d d') {h : Hook} (hk : key ≠ 0) (hset : d'.key h = key)
    (hnew : ∀ g, g ≠ h → d'.key g ≠ 0 → d'.key g = d.key g) : Moves d d' key (.register (.hook h)) := by
  have hiff : ∀ kd k, d'.Holds kd k ↔ d.Holds kd k ∨ kd = .hook h ∧ k = key := by
    have hall : ∀ g, d'.key g ≠ 0 → d'.key g = d.key g ∨ some h = some g ∧ d'.key g = key := by
      intro g hg
      by_cases hgh : g = h
      · exact .inr ⟨by rw [hgh], by rw [hgh, hset]⟩
      · exact .inl (hnew g hgh hg)
    simpa [eq_comm] using hs.holds key (some h) hall (by simp [hk, hset])
  refine ⟨fun kd k => (hiff kd k).mp, fun kd k => ?_⟩
  rw [(hs.owes kd k).1, (hs.owes kd k).2, hiff]

theorem replace_shifts {h : Hook} {armed : Bool} (hd : d.WF) (hi : d.op = .idle) (hkey : key ≠ 0 → d.key h ≠ key)
    (hl : key ≠ 0 → d.listening h = true) : Shifts d (d.replace h key armed) where
  before := .inl hi
  hook := rfl
  entries := rfl
  keep g hg := by
    by_cases hgh : g = h
    · subst hgh
      exact .inr (by simp [replace, Op.old, Op.unset])
    · exact .inl (by simp [replace, setKey, hgh])
  old g k hm := by
    simp only [replace, Op.old, List.mem_singleton, Prod.mk.injEq] at hm
    obtain ⟨rfl, rfl⟩ := hm
    refine ⟨rfl, fun hk => ?_⟩
    simp only [replace, setKey, Function.update_self]
    rintro rfl
    exact hkey hk rfl
  nodup := by simp [replace, Op.old]
  made := rfl
  turnedDown := rfl
  listening g hg := by
    by_cases hgh : g = h
    · subst hgh
      by_contra hk
      simp only [replace, setKey, Function.update_self] at hk
      have hg : d.listening g = false := hg
      rw [hl hk] at hg
      cases hg
    · simp only [replace, setKey, Function.update_of_ne hgh]
      exact hd.listening g hg
  rollback h := by cases h
  blank h := by cases h
  shut := rfl

/-- A hook that had no key gets one. -/
theorem setKey_shifts {h : Hook} {op : Op} {commitListeners updateListeners : List Nat} (hd : d.WF)
    (hb : d.op = .idle ∨ d.op = .registerRollback) (h0 : d.key h = 0) (hold : op.old = []) (hm : op.made = none)
    (ht : op.turnedDown = none) (hblank : op.blank = false) (hshut : op.shut = false)
    (hr : op = .registerRollback → h ≠ .rollback ∧ d.key .rollback = 0 ∧ commitListeners ≠ [])
    (hl : { d with commitListeners, updateListeners }.listening h = true)
    (hls : ∀ g, { d with commitListeners, updateListeners }.listening g = false → d.listening g = false) :
    Shifts d { d.setKey h key with commitListeners, updateListeners, op } where
  before := hb
  hook := rfl
  entries := rfl
  keep g hg := by
    have hgh : g ≠ h := by rintro rfl; exact hg h0
    exact .inl (by simp [setKey, hgh])
  old g k hk := by simp [hold] at hk
  nodup := by simp [hold]
  made := hm
  turnedDown := ht
  listening g hg := by
    have hgh : g ≠ h := by
      rintro rfl
      have hg : { d with commitListeners, updateListeners }.listening g = false := hg
      rw [hl] at hg
      cases hg
    simp only [setKey, Function.update_of_ne hgh]
    exact hd.listening g (hls g hg)
  rollback ho := by
    obtain ⟨hne, hk, hc⟩ := hr ho
    exact ⟨by simpa [setKey, hne.symm] using hk, hc⟩
  blank h := by simp [hblank] at h
  shut := hshut

theorem Shifts.setListeners (hs : Shifts d d') {commitListeners updateListeners : List Nat}
    (hr : d'.op ≠ .registerRollback)
    (hl : ∀ g, { d' with commitListeners, updateListeners }.listening g = false → d'.key g = 0) :
    Shifts d { d' with commitListeners, updateListeners } :=
  { hs with
    listening := hl
    rollback := fun h => absurd h hr }

theorem WF.setListeners {commitListeners updateListeners : List Nat} (hd : d.WF) (hi : d.op = .idle)
    (hl : ∀ g, { d with commitListeners, updateListeners }.listening g = false → d.listening g = false) :
    { d with commitListeners, updateListeners }.WF where
  hook := hd.hook
  old := hd.old
  nodup := hd.nodup
  made := hd.made
  listening g hg := hd.listening g (hl g hg)
  rollback h := by cases hi.symm.trans h
  blank := hd.blank
  shut := hd.shut

/-- An operation goes on: the fields of the hooks stay as they are, and no key is added to `old`. -/
theorem WF.next (hd : d.WF) {functionKeys : String → Option Int} {hook : Hook → Option Nat}
    {entries : List (Slot × Nat)} {op : Op}
    (hhook : ∀ h k, hook h = some k → k ≠ 0 ∧ (d.key h = k ∨ (h, k) ∈ op.old ∧ op.unset h))
    (hold : op.old.Sublist d.op.old)
    (hmade : ∀ kd k, op.made = some (kd, k) ∨ op.turnedDown = some (kd, k) → ∀ slot, (slot, k) ∉ entries)
    (hr : op ≠ .registerRollback) (hb : op.blank = true → d.op.blank = true) (hs : op.shut = true → entries = []) :
    { d with functionKeys, hook, entries, op }.WF where
  hook := hhook
  old h k hk := hd.old h k (hold.subset hk)
  nodup := (hold.map _).nodup hd.nodup
  made := hmade
  listening := hd.listening
  rollback h := absurd h hr
  blank h := hd.blank (hb h)
  shut := hs

/-- The same when SQLite's hooks and the keys to free stay as well. -/
theorem WF.goOn (hd : d.WF) {op op' : Op} (ho : d.op = op) {functionKeys : String → Option Int}
    {entries : List (Slot × Nat)} (hold : op'.old = op.old) (hunset : ∀ h, op.unset h → op'.unset h)
    (hm : op'.made = none) (ht : op'.turnedDown = none) (hr : op' ≠ .registerRollback)
    (hb : op'.blank = true → op.blank = true) (hs : op'.shut = true → entries = []) :
    { d with functionKeys, entries, op := op' }.WF := by
  subst ho
  refine hd.next (fun h k hk => ?_) (by rw [hold]) (by simp [hm, ht]) hr hb hs
  obtain ⟨hk0, hk'⟩ := hd.hook h k hk
  exact ⟨hk0, hk'.imp_right fun ⟨hmem, hu⟩ => ⟨hold ▸ hmem, hunset h hu⟩⟩

theorem WF.toIdle (hd : d.WF) {op : Op} (ho : d.op = op) {functionKeys : String → Option Int}
    {entries : List (Slot × Nat)} (hold : op.old = []) (hunset : ∀ h, ¬ op.unset h) :
    { d with functionKeys, entries, op := .idle }.WF :=
  hd.goOn ho hold.symm (fun h hu => absurd hu (hunset h)) rfl rfl (by simp) (fun hb => by cases hb)
    (fun hb => by cases hb)

/-- While no hook is to be set, SQLite has the keys that are in the fields. -/
theorem WF.key_of_hook (hd : d.WF) (hu : ∀ h, ¬ d.op.unset h) {h : Hook} {k : Nat} (hk : d.hook h = some k) :
    k ≠ 0 ∧ d.key h = k := by
  obtain ⟨hk0, hk' | hk'⟩ := hd.hook h k hk
  · exact ⟨hk0, hk'⟩
  · exact absurd hk'.2 (hu h)

theorem arm_wf {h : Hook} {hooks : List Hook} {armed : Bool} {old : List (Hook × Nat)} (hd : d.WF)
    (ho : d.op = .hooking (h :: hooks) armed old) : { d.arm h armed with op := .hooking hooks armed old }.WF := by
  refine hd.next (fun g k hk => ?_) (by rw [ho]; exact List.Sublist.refl old) (by simp [Op.made, Op.turnedDown])
    (by simp) (fun hb => by cases hb) (fun hb => by cases hb)
  by_cases hgh : g = h
  · subst hgh
    simp only [arm, Function.update_self, Option.ite_none_right_eq_some, Option.some.injEq] at hk
    obtain ⟨⟨-, hk0⟩, rfl⟩ := hk
    exact ⟨hk0, .inl rfl⟩
  · simp only [arm, Function.update_of_ne hgh] at hk
    obtain ⟨hk0, hk'⟩ := hd.hook g k hk
    simp only [ho, Op.old, Op.unset, List.mem_cons, hgh, false_or] at hk'
    exact ⟨hk0, hk'⟩

theorem freed_wf {g : Hook} {k : Nat} {old : List (Hook × Nat)} {closing : Bool} (hd : d.WF)
    (ho : d.op = .freeing ((g, k) :: old) closing) : { d with op := .freeing old closing }.WF := by
  refine hd.next (fun h j hj => ?_) (by rw [ho]; exact List.sublist_cons_self _ old) (by simp [Op.made, Op.turnedDown])
    (by simp) (fun hb => by rw [ho]; exact hb) (fun hs => hd.shut (by rw [ho]; exact hs))
  exact (hd.key_of_hook (by simp [ho, Op.unset]) hj).imp_right .inl

/-- Each key has one kind, as it was registered under one. -/
def OneKind (d : WorkerDb) : Prop := ∀ {kd kd' k}, d.Owes kd k → d.Owes kd' k → kd = kd'

theorem freed_moves {g : Hook} {k : Nat} {old : List (Hook × Nat)} {closing : Bool} (hd : d.WF) (h1 : d.OneKind)
    (ho : d.op = .freeing ((g, k) :: old) closing) :
    Moves d { d with op := .freeing old closing } key (.free (if k = 0 then [] else [k])) := by
  have hiff : ∀ kd j, d.Holds kd j ↔
      { d with op := .freeing old closing }.Holds kd j ∨ k ≠ 0 ∧ kd = .hook g ∧ j = k := by
    intro kd j
    cases kd with
    | hook h =>
      simp only [Holds, ho, Op.old, List.mem_cons, Prod.mk.injEq, Kind.hook.injEq]
      grind
    | _ => simp [Holds, ho, Op.made]
  have hgone : ∀ kd j, { d with op := .freeing old closing }.Holds kd j → j ∉ if k = 0 then [] else [k] := by
    intro kd j hj hmem
    have hk : k ≠ 0 ∧ j = k := by grind
    obtain ⟨hk, rfl⟩ := hk
    have hkd := h1 (.inl ((hiff kd j).mpr (.inl hj))) (.inl ((hiff _ j).mpr (.inr ⟨hk, rfl, rfl⟩)))
    subst hkd
    obtain ⟨-, hj | hj⟩ := hj
    · exact hd.old g j (by rw [ho]; exact List.mem_cons_self) hk hj
    · have hn := hd.nodup
      rw [ho] at hn
      exact (List.nodup_cons.mp hn).1 (List.mem_map_of_mem hj)
  have hne : ∀ kd j, d.Owes kd j ↔ d.Holds kd j := fun kd j => by simp [Owes, ho, Op.turnedDown]
  refine ⟨fun kd j hj => ⟨(hiff kd j).mpr (.inl hj), hgone kd j hj⟩, fun kd j hj => ?_, fun kd j hj hmem => ?_, ?_⟩
  · rw [hne, hiff]
    exact hj.imp_right fun h => by cases h
  · rw [hne, hiff] at hj
    rcases hj with hj | ⟨hk, -, rfl⟩
    · exact .inl hj
    · simp [hk] at hmem
  · intro j hj
    have hk : k ≠ 0 ∧ j = k := by grind
    exact ⟨.hook g, .inl ((hiff _ _).mpr (.inr ⟨hk.1, rfl, hk.2⟩))⟩

theorem holds_of_ne {kd : Kind} {k : Nat} (hne : ∀ h, kd ≠ .hook h) :
    d.Holds kd k ↔ (∃ slot, (slot, k) ∈ d.entries ∧ slot.kind = kd) ∨ d.op.made = some (kd, k) := by
  cases kd with
  | hook h => exact absurd rfl (hne h)
  | _ => rfl

theorem slot_kind_ne (slot : Slot) (h : Hook) : slot.kind ≠ .hook h := by cases slot <;> simp [Slot.kind]

theorem creation_kind_ne (what : Creation) (h : Hook) : what.kind ≠ .hook h := by
  cases what <;> simp [Creation.kind]

theorem kind_of_mem_slots {what : Creation} {slot : Slot} (h : slot ∈ what.slots) : slot.kind = what.kind := by
  cases what with
  | function name nArgs flags =>
    obtain ⟨enc, -, rfl⟩ := List.mem_map.mp h
    rfl
  | collation name =>
    cases List.mem_singleton.mp h
    rfl

theorem exists_mem_slots (what : Creation) : ∃ slot, slot ∈ what.slots := by
  cases what with
  | function name nArgs flags =>
    have hne : encodings flags ≠ [] := by unfold encodings; split <;> simp
    obtain ⟨enc, henc⟩ := List.exists_mem_of_ne_nil _ hne
    exact ⟨_, List.mem_map_of_mem henc⟩
  | collation name => exact ⟨_, List.mem_singleton_self _⟩

theorem holds_of_mem_entries {slot : Slot} {k : Nat} (h : (slot, k) ∈ d.entries) : d.Holds slot.kind k :=
  (holds_of_ne (slot_kind_ne slot)).mpr (.inl ⟨slot, h, rfl⟩)

theorem create_wf {what : Creation} (hd : d.WF) (hi : d.op = .idle) (hfresh : ∀ kd, ¬ d.Owes kd key) :
    { d with op := .creating what key }.WF := by
  refine hd.next (fun h k hk => ?_) (List.nil_sublist _) (fun kd k hk slot hs => ?_) (by simp) (fun hb => by cases hb)
    (fun hb => by cases hb)
  · exact (hd.key_of_hook (by simp [hi, Op.unset]) hk).imp_right .inl
  · simp only [Op.made, Op.turnedDown, Option.some.injEq, Prod.mk.injEq, reduceCtorEq, or_false] at hk
    obtain ⟨-, rfl⟩ := hk
    exact hfresh _ (.inl (holds_of_mem_entries hs))

theorem create_moves {what : Creation} (hi : d.op = .idle) :
    Moves d { d with op := .creating what key } key (.register what.kind) := by
  have hiff : ∀ kd k, { d with op := .creating what key }.Holds kd k ↔ d.Holds kd k ∨ kd = what.kind ∧ k = key := by
    intro kd k
    cases kd with
    | hook h => simp [Holds, hi, Op.old, (creation_kind_ne what h).symm]
    | _ => simp [Holds, hi, Op.made, eq_comm]
  refine ⟨fun kd k => (hiff kd k).mp, fun kd k => ?_⟩
  simp [Owes, hiff, hi, Op.turnedDown]

/-- SQLite refuses the creation, with or without a call of the destructor. -/
theorem refuse_wf {what : Creation} {k : Nat} (hd : d.WF) (ho : d.op = .creating what k) :
    { d with op := .refused what k }.WF := by
  refine hd.next (fun h j hj => ?_) (List.nil_sublist _) (fun kd j hj => ?_) (by simp) (fun hb => by cases hb)
    (fun hb => by cases hb)
  · exact (hd.key_of_hook (by simp [ho, Op.unset]) hj).imp_right .inl
  · have hm := hd.made kd j
    simp only [ho, Op.made, Op.turnedDown, reduceCtorEq, or_false] at hm
    simp only [Op.made, Op.turnedDown, reduceCtorEq, false_or] at hj
    exact hm hj

/-- A key that is made or refused is nowhere else. -/
theorem not_elsewhere {what : Creation} {k : Nat} (hd : d.WF) (h1 : d.OneKind)
    (ho : d.op = .creating what k ∨ d.op = .refused what k) {op : Op} (hold : op.old = []) (hm : op.made = none)
    {kd : Kind} (h : { d with op }.Holds kd k) : False := by
  have hdo : d.op.old = [] := by rcases ho with ho | ho <;> rw [ho] <;> rfl
  have howes : d.Owes what.kind k := by
    rcases ho with ho | ho
    · exact .inl ((holds_of_ne (creation_kind_ne what)).mpr (.inr (by rw [ho]; rfl)))
    · exact .inr (by rw [ho]; rfl)
  cases kd with
  | hook g =>
    have hg : d.Owes (.hook g) k := .inl (by simpa [Holds, hold, hdo] using h)
    exact creation_kind_ne what g (h1 howes hg)
  | _ =>
    rw [holds_of_ne (by simp)] at h
    rcases h with ⟨slot, hs, -⟩ | h
    · refine hd.made what.kind k ?_ slot hs
      rcases ho with ho | ho <;> simp [ho, Op.made, Op.turnedDown]
    · simp [hm] at h

theorem refuse_moves {what : Creation} {k : Nat} {destroyed : Bool} (hd : d.WF) (h1 : d.OneKind)
    (ho : d.op = .creating what k) :
    Moves d { d with op := .refused what k } key (.free (if destroyed then [k] else [])) := by
  have hholds : ∀ kd j, { d with op := .refused what k }.Holds kd j → d.Holds kd j := by
    intro kd j hj
    cases kd with
    | hook h => simpa [Holds, ho, Op.old] using hj
    | _ => exact .inl (by simpa [Holds, Op.made] using hj)
  have howes : ∀ kd j, { d with op := .refused what k }.Owes kd j ↔ d.Owes kd j := by
    intro kd j
    cases kd with
    | hook h => simp [Owes, Holds, ho, Op.old, Op.turnedDown, creation_kind_ne what h]
    | _ => simp [Owes, Holds, ho, Op.made, Op.turnedDown]
  refine ⟨fun kd j hj => ⟨hholds kd j hj, fun hmem => ?_⟩, fun kd j => (howes kd j).mp,
    fun kd j hj _ => (howes kd j).mpr hj, fun j hj => ?_⟩
  · have hjk : j = k := by grind
    subst hjk
    exact not_elsewhere hd h1 (.inl ho) rfl rfl hj
  · have hjk : j = k := by grind
    subst hjk
    exact ⟨what.kind, .inl ((holds_of_ne (creation_kind_ne what)).mpr (.inr (by rw [ho]; rfl)))⟩

/-- The caller frees a refused key, again if the destructor ran. -/
theorem refused_moves {what : Creation} {k : Nat} (hd : d.WF) (h1 : d.OneKind) (ho : d.op = .refused what k) :
    Moves d { d with op := .idle } key (.free [k]) := by
  have hholds : ∀ kd j, { d with op := .idle }.Holds kd j ↔ d.Holds kd j :=
    holds_congr rfl rfl (by rw [ho]; rfl) (by rw [ho]; rfl)
  refine ⟨fun kd j hj => ⟨(hholds kd j).mp hj, fun hmem => ?_⟩, fun kd j hj => ?_, fun kd j hj hmem => ?_,
    fun j hj => ?_⟩
  · cases List.mem_singleton.mp hmem
    exact not_elsewhere hd h1 (.inr ho) rfl rfl hj
  · exact .inl ((hholds kd j).mp (hj.resolve_right (by simp [Op.turnedDown])))
  · rcases hj with hj | hj
    · exact .inl ((hholds kd j).mpr hj)
    · simp only [ho, Op.turnedDown, Option.some.injEq, Prod.mk.injEq] at hj
      exact absurd (List.mem_singleton.mpr hj.2.symm) hmem
  · cases List.mem_singleton.mp hj
    exact ⟨what.kind, .inr (by rw [ho]; rfl)⟩

theorem mem_gone {before after : List (Slot × Nat)} {k : Nat} :
    k ∈ gone before after ↔ (∃ slot, (slot, k) ∈ before) ∧ ∀ slot, (slot, k) ∉ after := by
  simp [gone]

/-- The entries change, and SQLite destroys what has gone. -/
theorem entries_moves {functionKeys : String → Option Int} {entries : List (Slot × Nat)} {op : Op}
    (h1 : d.OneKind) (hold : op.old = d.op.old) (hm : op.made = none) (ht : op.turnedDown = none)
      (htd : d.op.turnedDown = none)
    (hsub : ∀ slot k, (slot, k) ∈ entries → d.Holds slot.kind k)
    (hmade : ∀ kd k, d.op.made = some (kd, k) → ∃ slot, (slot, k) ∈ entries ∧ slot.kind = kd) :
    Moves d { d with functionKeys, entries, op } key (.free (gone d.entries entries)) := by
  have hholds : ∀ kd k, { d with functionKeys, entries, op }.Holds kd k →
      d.Holds kd k ∧ k ∉ gone d.entries entries := by
    intro kd k hk
    cases kd with
    | hook h =>
      have hd : d.Holds (.hook h) k := by simpa [Holds, hold] using hk
      refine ⟨hd, fun hmem => ?_⟩
      obtain ⟨slot, hs⟩ := (mem_gone.mp hmem).1
      exact slot_kind_ne slot h (h1 (.inl (holds_of_mem_entries hs)) (.inl hd))
    | _ =>
      rw [holds_of_ne (by simp)] at hk
      obtain ⟨slot, hs, hkind⟩ := hk.resolve_right (by simp [hm])
      exact ⟨hkind ▸ hsub slot k hs, fun hmem => (mem_gone.mp hmem).2 slot hs⟩
  refine ⟨hholds, fun kd k hk => .inl (hholds kd k (hk.resolve_right (by simp [ht]))).1, fun kd k hk hmem => .inl ?_,
    fun k hk => ?_⟩
  · have hk := hk.resolve_right (by simp [htd])
    cases kd with
    | hook h => simpa [Holds, hold] using hk
    | _ =>
      refine .inl ?_
      rcases (holds_of_ne (by simp)).mp hk with ⟨slot, hs, hkind⟩ | hk'
      · -- Another entry has the key still, and it has the same kind.
        obtain ⟨other, ho⟩ : ∃ other, (other, k) ∈ entries := by
          by_contra hno
          exact hmem (mem_gone.mpr ⟨⟨slot, hs⟩, fun other ho => hno ⟨other, ho⟩⟩)
        exact ⟨other, ho, h1 (.inl (hsub other k ho)) (.inl hk)⟩
      · exact hmade _ k hk'
  · obtain ⟨slot, hs⟩ := (mem_gone.mp hk).1
    exact ⟨slot.kind, .inl (holds_of_mem_entries hs)⟩

/-- The counter holds a key that the connection has no use for, and that is not 0 if a hook is to have it. -/
def Fresh (d : WorkerDb) (key : Nat) (kind : Kind) : Prop :=
  (∀ kd, ¬ d.Owes kd key) ∧ ∀ h, kind = .hook h → key ≠ 0

theorem Fresh.key_ne {h : Hook} (hf : d.Fresh key (.hook h)) (g : Hook) : d.key g ≠ key := by
  rintro rfl
  exact hf.1 (.hook g) (.inl ⟨hf.2 h rfl, .inl rfl⟩)

theorem proceed_spec {e : Effect} (hd : d.WF) (h1 : d.OneKind) (hf : ∀ kind, e = .register kind → d.Fresh key kind)
    (h : d.proceed key = some (d', e)) : d'.WF ∧ Moves d d' key e := by
  unfold proceed at h
  split at h <;> rename_i ho
  · -- The second key of `set_commit_listener`; the first is in its field already.
    cases h
    have hf := hf _ rfl
    obtain ⟨h0, hc⟩ := hd.rollback ho
    have hs : Shifts d { d.setKey .rollback key with op := .hooking [.commit, .rollback] true [] } :=
      setKey_shifts hd (.inr ho) h0 rfl rfl rfl rfl rfl (fun h => by cases h) (decide_eq_true hc)
        (fun _ hg => hg)
    exact ⟨hs.wf hd, hs.register (hf.2 _ rfl) (by simp [setKey]) (fun g hg _ => by simp [setKey, hg])⟩
  · cases h
    exact ⟨arm_wf hd ho, .congr ho rfl rfl rfl rfl rfl⟩
  · cases h
    exact ⟨hd.goOn ho rfl (fun g hg => by cases hg) rfl rfl (by simp) (fun hb => by cases hb) (fun hb => by cases hb),
      .congr ho rfl rfl rfl rfl rfl⟩
  · cases h
    exact ⟨freed_wf hd ho, freed_moves hd h1 ho⟩
  · cases h
    rename_i closing
    cases closing with
    | true =>
      exact ⟨hd.goOn ho rfl (fun g hg => hg.elim) rfl rfl (by simp) (fun _ => rfl) (fun _ => hd.shut (by rw [ho]; rfl)),
        .congr ho rfl rfl rfl rfl rfl⟩
    | false => exact ⟨hd.toIdle ho rfl (fun g hg => hg.elim), .congr ho rfl rfl rfl rfl rfl⟩
  · cases h
    exact ⟨hd.toIdle ho rfl (fun g hg => hg.elim), refused_moves hd h1 ho⟩
  · cases h

/-- A creation that SQLite accepts takes the place of what had its slots. -/
theorem created_spec {functionKeys : String → Option Int} {what : Creation} {k : Nat} (hd : d.WF) (h1 : d.OneKind)
    (ho : d.op = .creating what k) {entries : List (Slot × Nat)}
    (he : entries = what.slots.map (·, k) ++ d.without what.slots) :
    { d with functionKeys, entries, op := .idle }.WF ∧
      Moves d { d with functionKeys, entries, op := .idle } key (.free (gone d.entries entries)) := by
  have hnew : d.Holds what.kind k := (holds_of_ne (creation_kind_ne what)).mpr (.inr (by rw [ho]; rfl))
  refine ⟨hd.toIdle ho rfl (fun g hg => hg.elim),
    entries_moves h1 (by rw [ho]; rfl) rfl rfl (by rw [ho]; rfl) (fun slot j hj => ?_) (fun kd j hj => ?_)⟩
  · rw [he, List.mem_append] at hj
    rcases hj with hj | hj
    · obtain ⟨_, hs, hj⟩ := List.mem_map.mp hj
      cases hj
      rw [kind_of_mem_slots hs]
      exact hnew
    · exact holds_of_mem_entries (List.mem_filter.mp hj).1
  · simp only [ho, Op.made, Option.some.injEq, Prod.mk.injEq] at hj
    obtain ⟨rfl, rfl⟩ := hj
    obtain ⟨slot, hs⟩ := exists_mem_slots what
    rw [he]
    exact ⟨slot, List.mem_append_left _ (List.mem_map_of_mem hs), kind_of_mem_slots hs⟩

/-- An entry is removed, or dropped by `sqlite3_close`. -/
theorem without_moves {slots : List Slot} {op : Op} (h1 : d.OneKind) (hold : op.old = d.op.old) (hm : op.made = none)
    (hmd : d.op.made = none) (ht : op.turnedDown = none) (htd : d.op.turnedDown = none) :
    Moves d { d with entries := d.without slots, op } key (.free (gone d.entries (d.without slots))) :=
  entries_moves h1 hold hm ht htd (fun _ _ hj => holds_of_mem_entries (List.mem_filter.mp hj).1)
    (fun _ _ hj => by simp [hmd] at hj)

theorem answer_spec {e : Effect} {ok destroyed : Bool} (hd : d.WF) (h1 : d.OneKind)
    (h : d.answer ok destroyed = some (d', e)) : d'.WF ∧ Moves d d' key e := by
  unfold answer at h
  split at h <;> rename_i ho
  · rename_i what k
    split at h
    · cases what with
      | function name nArgs flags =>
        cases h
        exact created_spec hd h1 ho rfl
      | collation name =>
        cases h
        exact created_spec hd h1 ho rfl
    · cases h
      exact ⟨refuse_wf hd ho, refuse_moves hd h1 ho⟩
  · split at h
    · cases h
      exact ⟨hd.toIdle ho rfl (fun g hg => hg.elim),
        without_moves h1 (by rw [ho]; rfl) rfl (by rw [ho]; rfl) rfl (by rw [ho]; rfl)⟩
    · cases h
      exact ⟨hd.toIdle ho rfl (fun g hg => hg.elim), .congr ho rfl rfl rfl rfl rfl⟩
  · cases h

theorem replace_new {h : Hook} {armed : Bool} (hd : d.WF) (hi : d.op = .idle) (hl : d.listening h = true)
    (hf : d.Fresh key (.hook h)) :
    (d.replace h key armed).WF ∧ Moves d (d.replace h key armed) key (.register (.hook h)) := by
  have hs : Shifts d (d.replace h key armed) := replace_shifts hd hi (fun _ => hf.key_ne h) (fun _ => hl)
  exact ⟨hs.wf hd, hs.register (hf.2 h rfl) (by simp [replace, setKey]) fun g hg _ => by simp [replace, setKey, hg]⟩

theorem replace_zero {h : Hook} {armed : Bool} (hd : d.WF) (hi : d.op = .idle) :
    (d.replace h 0 armed).WF ∧ Moves d (d.replace h 0 armed) key (.free []) := by
  have hs : Shifts d (d.replace h 0 armed) := replace_shifts hd hi (fun h => absurd rfl h) (fun h => absurd rfl h)
  refine ⟨hs.wf hd, hs.free fun g hg => ?_⟩
  have hgh : g ≠ h := by
    rintro rfl
    simp [replace, setKey] at hg
  simp [replace, setKey, hgh]

theorem addCommitListener_spec {e : Effect} {listener : Nat} (hd : d.WF) (hi : d.op = .idle)
    (hf : ∀ kind, e = .register kind → d.Fresh key kind) (h : d.addCommitListener key listener = (d', e)) :
    d'.WF ∧ Moves d d' key e := by
  unfold addCommitListener at h
  split at h
  · cases h
    exact ⟨hd, .congr rfl rfl rfl rfl rfl rfl⟩
  have hl : ∀ g, { d with commitListeners := listener :: d.commitListeners }.listening g = false →
      d.listening g = false := by
    intro g hg
    cases g <;> simp_all [listening]
  dsimp only at h
  split at h
  next hlen =>
    have hnil : d.commitListeners = [] := by simpa using hlen
    have hzero : d.key .commit = 0 ∧ d.key .rollback = 0 :=
      ⟨hd.listening _ (by simp [listening, hnil]), hd.listening _ (by simp [listening, hnil])⟩
    have hs : Shifts d { d.setKey .commit key with
        commitListeners := listener :: d.commitListeners, op := .registerRollback } :=
      setKey_shifts hd (.inl hi) hzero.1 rfl rfl rfl rfl rfl (fun _ => ⟨by simp, hzero.2, by simp⟩)
        (by simp [listening]) hl
    cases h
    exact ⟨hs.wf hd, hs.register ((hf _ rfl).2 _ rfl) (by simp [setKey]) fun g hg _ => by simp [setKey, hg]⟩
  next =>
    cases h
    exact ⟨hd.setListeners hi hl, .congr rfl rfl rfl rfl rfl rfl⟩

theorem addUpdateListener_spec {e : Effect} {listener : Nat} (hd : d.WF) (hi : d.op = .idle)
    (hf : ∀ kind, e = .register kind → d.Fresh key kind) (h : d.addUpdateListener key listener = (d', e)) :
    d'.WF ∧ Moves d d' key e := by
  unfold addUpdateListener at h
  split at h
  · cases h
    exact ⟨hd, .congr rfl rfl rfl rfl rfl rfl⟩
  have hl : ∀ g, { d with updateListeners := listener :: d.updateListeners }.listening g = false →
      d.listening g = false := by
    intro g hg
    cases g <;> simp_all [listening]
  dsimp only at h
  split at h
  next hlen =>
    have hzero : d.key .update = 0 := hd.listening _ (by simpa [listening] using hlen)
    have hs : Shifts d { d.setKey .update key with
        updateListeners := listener :: d.updateListeners, op := .hooking [.update] true [] } :=
      setKey_shifts hd (.inl hi) hzero rfl rfl rfl rfl rfl (fun h => by cases h) (by simp [listening]) hl
    cases h
    exact ⟨hs.wf hd, hs.register ((hf _ rfl).2 _ rfl) (by simp [setKey]) fun g hg _ => by simp [setKey, hg]⟩
  next =>
    cases h
    exact ⟨hd.setListeners hi hl, .congr rfl rfl rfl rfl rfl rfl⟩

theorem removeCommitListener_spec {e : Effect} {listener : Nat} (hd : d.WF) (hi : d.op = .idle)
    (h : d.removeCommitListener key listener = (d', e)) : d'.WF ∧ Moves d d' key e := by
  unfold removeCommitListener at h
  split at h
  next hmem =>
    dsimp only at h
    split at h
    next hnil =>
      have hs : Shifts d
          ({ d with commitListeners := d.commitListeners.erase listener }.setCommitListener key false).1 :=
        { before := .inl hi
          hook := rfl
          entries := rfl
          keep := fun g _ => by cases g <;> simp [setCommitListener, setKey, Op.old, Op.unset]
          old := fun g k hk => by
            simp only [setCommitListener, Op.old, List.mem_cons, Prod.mk.injEq, List.not_mem_nil, or_false] at hk
            rcases hk with ⟨rfl, rfl⟩ | ⟨rfl, rfl⟩ <;>
              exact ⟨rfl, fun hk => by simpa [setCommitListener, setKey] using hk.symm⟩
          nodup := by simp [setCommitListener, Op.old]
          made := rfl
          turnedDown := rfl
          listening := fun g hg => by
            cases g with
            | commit => simp [setCommitListener, setKey]
            | rollback => simp [setCommitListener, setKey]
            | _ => exact hd.listening _ hg
          rollback := fun h => by cases h
          blank := fun h => by cases h
          shut := rfl }
      cases h
      exact ⟨hs.wf hd, hs.free fun g hg => by cases g <;> simp_all [setCommitListener, setKey]⟩
    next hne =>
      cases h
      refine ⟨hd.setListeners hi fun g hg => ?_, .congr rfl rfl rfl rfl rfl rfl⟩
      cases g <;> simp_all [listening]
  next =>
    cases h
    exact ⟨hd, .congr rfl rfl rfl rfl rfl rfl⟩

theorem removeUpdateListener_spec {e : Effect} {listener : Nat} (hd : d.WF) (hi : d.op = .idle)
    (h : d.removeUpdateListener key listener = (d', e)) : d'.WF ∧ Moves d d' key e := by
  unfold removeUpdateListener at h
  split at h
  next hmem =>
    dsimp only at h
    split at h
    next hnil =>
      have hs : Shifts d { d.replace .update 0 true with updateListeners := d.updateListeners.erase listener } := by
        refine (replace_shifts hd hi (fun h => absurd rfl h) (fun h => absurd rfl h)).setListeners
          (by simp [replace]) ?_
        intro g hg
        cases g with
        | update => simp [replace, setKey]
        | _ => exact hd.listening _ hg
      cases h
      exact ⟨hs.wf hd, hs.free fun g hg => by cases g <;> simp_all [replace, setKey]⟩
    next hne =>
      cases h
      refine ⟨hd.setListeners hi fun g hg => ?_, .congr rfl rfl rfl rfl rfl rfl⟩
      cases g <;> simp_all [listening]
  next =>
    cases h
    exact ⟨hd, .congr rfl rfl rfl rfl rfl rfl⟩

theorem close_spec (hd : d.WF) (hi : d.op = .idle) : d.close.WF ∧ Moves d d.close key (.free []) := by
  have hs : Shifts d d.close :=
    { before := .inl hi
      hook := rfl
      entries := rfl
      keep := fun g _ => by cases g <;> simp [close, Op.old, Op.unset]
      old := fun g k hk => by
        simp only [close, Op.old, List.mem_map] at hk
        obtain ⟨h, -, hk⟩ := hk
        cases hk
        exact ⟨rfl, fun hk => hk.symm⟩
      nodup := by simp [close, Op.old]
      made := rfl
      turnedDown := rfl
      listening := fun _ _ => rfl
      rollback := fun h => by cases h
      blank := fun _ _ => rfl
      shut := rfl }
  exact ⟨hs.wf hd, hs.free fun g hg => absurd rfl hg⟩

theorem busyTimeout_wf (hd : d.WF) : { d with hook := Function.update d.hook .busy none }.WF :=
  { hd with
    hook := fun h k hk => by
      by_cases hb : h = .busy
      · subst hb
        simp at hk
      · simp only [Function.update_of_ne hb] at hk
        exact hd.hook h k hk }

theorem closed_wf {old : List (Hook × Nat)} (hd : d.WF) (ho : d.op = .closing old) (he : d.entries = []) :
    { d with hook := fun _ => none, op := .freeing old true }.WF :=
  hd.next (fun _ _ hk => by cases hk) (by rw [ho]; exact List.Sublist.refl old) (by simp [Op.made, Op.turnedDown])
    (by simp) (fun _ => by rw [ho]; rfl) (fun _ => he)

/-- An operation that changes no key before SQLite answers. -/
theorem ask_spec {functionKeys : String → Option Int} {slot : Slot} (hd : d.WF) (hi : d.op = .idle) :
    { d with functionKeys, op := .destroying slot }.WF ∧
      Moves d { d with functionKeys, op := .destroying slot } key (.free []) :=
  ⟨hd.goOn hi rfl (fun g hg => hg.elim) rfl rfl (by simp) (fun hb => by cases hb) (fun hb => by cases hb),
    .congr hi rfl rfl rfl rfl rfl⟩

theorem request_spec {e : Effect} {call : Call} (hd : d.WF) (hi : d.op = .idle)
    (hf : ∀ kind, e = .register kind → d.Fresh key kind) (h : d.request key call = some (d', e)) :
    d'.WF ∧ Moves d d' key e := by
  cases call with
  | busyHandler handler =>
    cases handler with
    | true =>
      cases h
      exact replace_new hd hi rfl (hf _ rfl)
    | false =>
      cases h
      exact replace_zero hd hi
  | registerProgressHandler vmCalls =>
    cases h
    exact replace_new hd hi rfl (hf _ rfl)
  | clearProgressHandler =>
    cases h
    exact replace_zero hd hi
  | addCommitListener listener => exact addCommitListener_spec hd hi hf (Option.some.inj h)
  | removeCommitListener listener => exact removeCommitListener_spec hd hi (Option.some.inj h)
  | addUpdateListener listener => exact addUpdateListener_spec hd hi hf (Option.some.inj h)
  | removeUpdateListener listener => exact removeUpdateListener_spec hd hi (Option.some.inj h)
  | create what =>
    cases h
    exact ⟨create_wf hd hi (hf _ rfl).1, create_moves hi⟩
  | destroyFunction name =>
    cases h
    exact ask_spec hd hi
  | destroyCollation name =>
    cases h
    exact ask_spec hd hi
  | close =>
    cases h
    exact close_spec hd hi
  | _ => cases h

/-- One step of a connection against the registry, as long as the key it is to register is fresh. -/
theorem step_spec {e : Effect} {call : Call} (hd : d.WF) (h1 : d.OneKind)
    (hf : ∀ kind, e = .register kind → d.Fresh key kind) (h : d.step key call = some (d', e)) :
    d'.WF ∧ Moves d d' key e := by
  unfold step at h
  split at h
  · -- `opened`
    simp only [Option.ite_none_right_eq_some, Option.some.injEq] at h
    obtain ⟨ho, h⟩ := h
    cases h
    exact ⟨hd.toIdle ho rfl (fun g hg => hg.elim), .congr ho rfl rfl rfl rfl rfl⟩
  · -- `busyTimeout`
    split at h
    · cases h
    · cases h
    · cases h
    · cases h
      exact ⟨busyTimeout_wf hd, .congr rfl rfl rfl rfl rfl rfl⟩
  · exact proceed_spec hd h1 hf h
  · exact answer_spec hd h1 h
  · -- `drop`
    split at h
    next old ho =>
      cases h
      exact ⟨hd.goOn ho rfl (fun _ hg => hg) rfl rfl (by simp) (fun hb => hb) (fun hb => by cases hb),
        without_moves h1 (by rw [ho]) rfl (by rw [ho]; rfl) rfl (by rw [ho]; rfl)⟩
    next => cases h
  · -- `closed`
    split at h
    next old ho =>
      simp only [Option.ite_none_right_eq_some, Option.some.injEq] at h
      obtain ⟨he, h⟩ := h
      cases h
      exact ⟨closed_wf hd ho he, .congr ho rfl rfl rfl rfl rfl⟩
    next => cases h
  · simp only [Option.ite_none_right_eq_some] at h
    exact request_spec hd h.1 hf h.2

end WorkerDb

end CallbackRegistry

end Sqlol
