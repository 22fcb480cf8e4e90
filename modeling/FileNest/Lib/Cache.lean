import Mathlib.Algebra.Order.Group.Defs
import Mathlib.Logic.Function.Basic

/-!
# A cache whose entries expire

A lookup takes what the cache has until it expires.  Otherwise it reads the store and, some time
later, puts what it has read into the cache, with a lifetime that is counted from when the lookup
began.  In between other lookups may read and fill, and the store may change.

## Main definitions

* `State`, `Step` — clock, store, entries and lookups under way, and what can happen.
* `Run` — the states a run has been in.
* `Held` — what the store gave at some instant between two.

## Main results

* `Run.sound` — entries and lookups have what the store gave since they began.
* `Run.hit_held` — **an entry that is used was the store's within the lifetime.**
* `Run.fill_held` — **what is read was the store's during the lookup.**
-/

namespace Cache

/-- A lookup under way: when it began, and what it has read. -/
structure Lookup (κ ν τ : Type*) where
  key : κ
  start : τ
  value : Option ν := none

/-- Clock, store, entries with the time they expire at, and lookups under way. -/
structure State (σ κ ν τ : Type*) where
  now : τ
  store : σ
  entries : κ → Option (ν × τ)
  lookups : List (Lookup κ ν τ)

/-- What a lookup is answered. -/
inductive Event (κ ν τ : Type*) where
  | silent
  /-- From the cache. -/
  | hit (key : κ) (value : ν)
  /-- After a miss, by a lookup that began at `start`. -/
  | fill (key : κ) (start : τ) (value : ν)

section Steps

variable {σ κ ν τ : Type*}

/-- The entry, if it has not expired. -/
def get [LinearOrder τ] (entry : Option (ν × τ)) (now : τ) : Option ν :=
  match entry with
  | some (value, expiry) => if now < expiry then some value else none
  | none => none

/-- What can happen.  A lookup may be given up at any time, as when its read fails. -/
inductive Step [DecidableEq κ] [LinearOrder τ] [Add τ] (fetch : σ → κ → Option ν) (lifetime : τ) :
    State σ κ ν τ → Event κ ν τ → State σ κ ν τ → Prop
  | tick {s : State σ κ ν τ} {now : τ} (hle : s.now ≤ now) :
      Step fetch lifetime s .silent { s with now := now }
  | commit {s : State σ κ ν τ} (store : σ) :
      Step fetch lifetime s .silent { s with store := store }
  | hit {s : State σ κ ν τ} {key : κ} {value : ν} (hget : get (s.entries key) s.now = some value) :
      Step fetch lifetime s (.hit key value) s
  | miss {s : State σ κ ν τ} {key : κ} (hget : get (s.entries key) s.now = none) :
      Step fetch lifetime s .silent { s with lookups := ⟨key, s.now, none⟩ :: s.lookups }
  | read {s : State σ κ ν τ} {pre post : List (Lookup κ ν τ)} {key : κ} {start : τ} {value : ν}
      (hlookup : s.lookups = pre ++ ⟨key, start, none⟩ :: post)
      (hfetch : fetch s.store key = some value) :
      Step fetch lifetime s .silent { s with lookups := pre ++ ⟨key, start, some value⟩ :: post }
  | fill {s : State σ κ ν τ} {pre post : List (Lookup κ ν τ)} {key : κ} {start : τ} {value : ν}
      (hlookup : s.lookups = pre ++ ⟨key, start, some value⟩ :: post) :
      Step fetch lifetime s (.fill key start value)
        { s with
          entries := Function.update s.entries key (some (value, start + lifetime))
          lookups := pre ++ post }
  | giveUp {s : State σ κ ν τ} {pre post : List (Lookup κ ν τ)} {l : Lookup κ ν τ}
      (hlookup : s.lookups = pre ++ l :: post) :
      Step fetch lifetime s .silent { s with lookups := pre ++ post }

/-- The states a run from an empty cache has been in, the last one first. -/
inductive Run [DecidableEq κ] [LinearOrder τ] [Add τ] (fetch : σ → κ → Option ν) (lifetime : τ) :
    List (State σ κ ν τ) → State σ κ ν τ → Prop
  | start (now : τ) (store : σ) : Run fetch lifetime [⟨now, store, fun _ => none, []⟩]
      ⟨now, store, fun _ => none, []⟩
  | step {past : List (State σ κ ν τ)} {s s' : State σ κ ν τ} {e : Event κ ν τ}
      (h : Run fetch lifetime past s) (hs : Step fetch lifetime s e s') :
      Run fetch lifetime (s' :: past) s'

/-- The store gave the value at some instant between two. -/
def Held [LE τ] (fetch : σ → κ → Option ν) (past : List (State σ κ ν τ)) (key : κ) (value : ν)
    (from_ until_ : τ) : Prop :=
  ∃ s ∈ past, from_ ≤ s.now ∧ s.now ≤ until_ ∧ fetch s.store key = some value

/-- Entries and lookups have what the store gave since they began. -/
structure Sound [LE τ] [Add τ] (fetch : σ → κ → Option ν) (lifetime : τ)
    (past : List (State σ κ ν τ)) (s : State σ κ ν τ) : Prop where
  current : s ∈ past
  entries : ∀ key value expiry, s.entries key = some (value, expiry) →
    ∃ start, expiry = start + lifetime ∧ Held fetch past key value start s.now
  started : ∀ l ∈ s.lookups, l.start ≤ s.now
  lookups : ∀ l ∈ s.lookups, ∀ value, l.value = some value →
    Held fetch past l.key value l.start s.now

end Steps

section Soundness

variable {σ κ ν τ : Type*} {fetch : σ → κ → Option ν} {past : List (State σ κ ν τ)}
  {s s' : State σ κ ν τ} {e : Event κ ν τ}

theorem get_eq_some [LinearOrder τ] {entry : Option (ν × τ)} {now : τ} {value : ν} :
    get entry now = some value ↔ ∃ expiry, entry = some (value, expiry) ∧ now < expiry := by
  cases entry with
  | none => exact ⟨nofun, nofun⟩
  | some entry =>
    obtain ⟨value', expiry⟩ := entry
    show (if now < expiry then some value' else none) = some value ↔ _
    by_cases hlt : now < expiry
    · rw [if_pos hlt]
      constructor
      · rintro ⟨⟩
        exact ⟨expiry, rfl, hlt⟩
      · rintro ⟨_, ⟨⟩, -⟩
        rfl
    · rw [if_neg hlt]
      refine iff_of_false nofun ?_
      rintro ⟨_, ⟨⟩, hlt'⟩
      exact hlt hlt'

theorem Held.mono [Preorder τ] {key : κ} {value : ν} {from_ until_ until' : τ}
    (h : Held fetch past key value from_ until_) (hle : until_ ≤ until') :
    Held fetch (s :: past) key value from_ until' := by
  obtain ⟨p, hp, hfrom, huntil, hfetch⟩ := h
  exact ⟨p, List.mem_cons_of_mem _ hp, hfrom, huntil.trans hle, hfetch⟩

variable [DecidableEq κ] [LinearOrder τ] [Add τ] {lifetime : τ}

/-- The clock goes on. -/
theorem Step.now_le (hs : Step fetch lifetime s e s') : s.now ≤ s'.now := by
  cases hs with
  | tick hle => exact hle
  | commit store => exact le_rfl
  | hit hget => exact le_rfl
  | miss hget => exact le_rfl
  | read hlookup hfetch => exact le_rfl
  | fill hlookup => exact le_rfl
  | giveUp hlookup => exact le_rfl

/-- One step: what is read is what the store gives, and what is put into the cache has been
read. -/
theorem Sound.step (h : Sound fetch lifetime past s) (hs : Step fetch lifetime s e s') :
    Sound fetch lifetime (s' :: past) s' := by
  have hnow := hs.now_le
  have hentries : ∀ key value expiry, s.entries key = some (value, expiry) →
      ∃ start, expiry = start + lifetime ∧ Held fetch (s' :: past) key value start s'.now := by
    intro key value expiry hentry
    obtain ⟨start, hexpiry, hheld⟩ := h.entries key value expiry hentry
    exact ⟨start, hexpiry, hheld.mono hnow⟩
  have hstarted : ∀ l ∈ s.lookups, l.start ≤ s'.now := fun l hl => (h.started l hl).trans hnow
  have hlookups : ∀ l ∈ s.lookups, ∀ value, l.value = some value →
      Held fetch (s' :: past) l.key value l.start s'.now :=
    fun l hl value hvalue => (h.lookups l hl value hvalue).mono hnow
  cases hs with
  | tick hle => exact ⟨List.mem_cons_self, hentries, hstarted, hlookups⟩
  | commit store => exact ⟨List.mem_cons_self, hentries, hstarted, hlookups⟩
  | hit hget => exact ⟨List.mem_cons_self, hentries, hstarted, hlookups⟩
  | miss hget =>
    exact ⟨List.mem_cons_self, hentries, List.forall_mem_cons.mpr ⟨le_rfl, hstarted⟩,
      List.forall_mem_cons.mpr ⟨nofun, hlookups⟩⟩
  | @read pre post key start value hlookup hfetch =>
    rw [hlookup, List.forall_mem_append, List.forall_mem_cons] at hstarted hlookups
    obtain ⟨hpre, hstart, hpost⟩ := hstarted
    obtain ⟨hpreHeld, -, hpostHeld⟩ := hlookups
    refine ⟨List.mem_cons_self, hentries, ?_, ?_⟩
    · exact List.forall_mem_append.mpr ⟨hpre, List.forall_mem_cons.mpr ⟨hstart, hpost⟩⟩
    · refine List.forall_mem_append.mpr ⟨hpreHeld, List.forall_mem_cons.mpr ⟨?_, hpostHeld⟩⟩
      -- the store gives it now
      rintro _ ⟨⟩
      exact ⟨s, List.mem_cons_of_mem _ h.current, hstart, le_rfl, hfetch⟩
  | @fill pre post key start value hlookup =>
    rw [hlookup, List.forall_mem_append, List.forall_mem_cons] at hstarted hlookups
    obtain ⟨hpre, -, hpost⟩ := hstarted
    obtain ⟨hpreHeld, hheld, hpostHeld⟩ := hlookups
    refine ⟨List.mem_cons_self, ?_, List.forall_mem_append.mpr ⟨hpre, hpost⟩,
      List.forall_mem_append.mpr ⟨hpreHeld, hpostHeld⟩⟩
    intro key' value' expiry hentry
    change Function.update s.entries key (some (value, start + lifetime)) key' = _ at hentry
    by_cases hkey : key' = key
    · subst hkey
      rw [Function.update_self] at hentry
      obtain ⟨rfl, rfl⟩ := Prod.mk.inj (Option.some.inj hentry)
      exact ⟨start, rfl, hheld _ rfl⟩
    · rw [Function.update_of_ne hkey] at hentry
      exact hentries key' value' expiry hentry
  | @giveUp pre post l hlookup =>
    rw [hlookup, List.forall_mem_append, List.forall_mem_cons] at hstarted hlookups
    exact ⟨List.mem_cons_self, hentries, List.forall_mem_append.mpr ⟨hstarted.1, hstarted.2.2⟩,
      List.forall_mem_append.mpr ⟨hlookups.1, hlookups.2.2⟩⟩

theorem Run.sound (h : Run fetch lifetime past s) : Sound fetch lifetime past s := by
  induction h with
  | start now store =>
    exact ⟨List.mem_singleton_self _, nofun, List.forall_mem_nil _, List.forall_mem_nil _⟩
  | step h hs ih => exact ih.step hs

/-- **What is read was the store's during the lookup.** -/
theorem Run.fill_held {key : κ} {start : τ} {value : ν} (h : Run fetch lifetime past s)
    (hs : Step fetch lifetime s (.fill key start value) s') :
    Held fetch past key value start s.now := by
  cases hs with
  | fill hlookup =>
    refine h.sound.lookups ⟨key, start, some value⟩ ?_ value rfl
    rw [hlookup]
    exact List.mem_append_right _ List.mem_cons_self

end Soundness

section Bounds

variable {σ κ ν τ : Type*} [DecidableEq κ] [LinearOrder τ] [AddCommGroup τ] [IsOrderedAddMonoid τ]
  {fetch : σ → κ → Option ν} {lifetime : τ} {past : List (State σ κ ν τ)} {s s' : State σ κ ν τ}
  {key : κ} {value : ν}

/-- **An entry that is used was the store's within the lifetime.** -/
theorem Run.hit_held (h : Run fetch lifetime past s)
    (hs : Step fetch lifetime s (.hit key value) s') :
    Held fetch past key value (s.now - lifetime) s.now := by
  cases hs with
  | hit hget =>
    obtain ⟨expiry, hentry, hlt⟩ := get_eq_some.mp hget
    obtain ⟨start, rfl, p, hp, hstart, hnow, hfetch⟩ := h.sound.entries key value expiry hentry
    have hwithin : s.now - lifetime ≤ start := (sub_lt_iff_lt_add.mpr hlt).le
    exact ⟨p, hp, hwithin.trans hstart, hnow, hfetch⟩

end Bounds

end Cache
