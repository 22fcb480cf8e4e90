import Mathlib.Data.List.Nodup
import Mathlib.Logic.Function.Basic

/-!
# Putting objects together, a few at a time

A store keeps objects under keys, and composes so many of them at once into a new one.  To put
more together, the first ones are composed into an intermediate object that takes their place,
again and again.

## Main definitions

* `Store`, `Request`, `run` — objects by key, and what can be asked of the store.
* `Accepted` — requests within the limit, for objects that are there.
* `Folds` — composing the first sources until some are left.
* `assembly` — folding, composing what is left, and deleting all that was needed for it.
* `Allowed` — requests that need what is composed, but not what is deleted.

## Main results

* `Folds.joined_left` — folding keeps what the sources hold, in their order.
* `Folds.accepted_assembly` — the store can do all of it.
* `Folds.run_assembly` — **what remains is one object that holds what the sources held.**
* `Folds.allowed_assembly_iff` — nothing but the sources has to be there.
-/

namespace Assembly

variable {κ α : Type*}

/-- Objects by key. -/
abbrev Store (κ α : Type*) := κ → Option (List α)

/-- What can be asked of the store. -/
inductive Request (κ : Type*) where
  | compose (sources : List κ) (dest : κ)
  | delete (key : κ)
  deriving DecidableEq

/-- The key of the object that is made. -/
def Request.dest : Request κ → Option κ
  | .compose _ dest => some dest
  | .delete _ => none

/-- What the objects hold, one after the other. -/
def joined (s : Store κ α) (keys : List κ) : List α := keys.flatMap fun k => (s k).getD []

/-- The key of the object that is made or deleted. -/
def Request.touches : Request κ → κ
  | .compose _ dest => dest
  | .delete key => key

/-- Nothing is composed of nothing, nor of too many, and the objects are there. -/
def Request.Accepted (limit : ℕ) (s : Store κ α) : Request κ → Prop
  | .compose sources _ => sources ≠ [] ∧ sources.length ≤ limit ∧ ∀ k ∈ sources, (s k).isSome
  | .delete key => (s key).isSome

/-- The same, but what is deleted need not be there. -/
def Request.Allowed (limit : ℕ) (s : Store κ α) : Request κ → Prop
  | .compose sources dest => (Request.compose sources dest).Accepted limit s
  | .delete _ => True

section Run

variable [DecidableEq κ]

/-- The store after a request. -/
def Request.apply (s : Store κ α) : Request κ → Store κ α
  | .compose sources dest => Function.update s dest (some (joined s sources))
  | .delete key => Function.update s key none

/-- The store after requests, one after the other. -/
def run (requests : List (Request κ)) (s : Store κ α) : Store κ α :=
  requests.foldl Request.apply s

/-- Every request is accepted when its turn comes. -/
def Accepted (limit : ℕ) : List (Request κ) → Store κ α → Prop
  | [], _ => True
  | r :: requests, s => r.Accepted limit s ∧ Accepted limit requests (r.apply s)

/-- Every request is allowed when its turn comes. -/
def Allowed (limit : ℕ) : List (Request κ) → Store κ α → Prop
  | [], _ => True
  | r :: requests, s => r.Allowed limit s ∧ Allowed limit requests (r.apply s)

end Run

/-- The first sources are composed into an intermediate object that takes their place, until
some are `left`. -/
inductive Folds (limit : ℕ) : List κ → List (Request κ) → List κ → List κ → Prop
  | done {sources : List κ} : Folds limit sources [] [] sources
  | fold {batch rest temps left : List κ} {requests : List (Request κ)} {temp : κ}
      (hne : batch ≠ []) (hlimit : batch.length ≤ limit) (hfresh : temp ∉ rest)
      (h : Folds limit (temp :: rest) requests temps left) :
      Folds limit (batch ++ rest) (.compose batch temp :: requests) (temp :: temps) left

/-- Folding, composing what is left, and deleting the sources and what came between. -/
def assembly (requests : List (Request κ)) (left : List κ) (dest : κ) (sources temps : List κ) :
    List (Request κ) :=
  requests ++ .compose left dest :: (sources ++ temps).map .delete

section Contents

variable {s : Store κ α}

theorem joined_cons (k : κ) (keys : List κ) :
    joined s (k :: keys) = (s k).getD [] ++ joined s keys := List.flatMap_cons

theorem joined_append (keys keys' : List κ) :
    joined s (keys ++ keys') = joined s keys ++ joined s keys' := List.flatMap_append

theorem joined_congr {t : Store κ α} {keys : List κ} (h : ∀ k ∈ keys, s k = t k) :
    joined s keys = joined t keys := by
  induction keys with
  | nil => rfl
  | cons k keys ih =>
    rw [joined_cons, joined_cons, h k List.mem_cons_self,
      ih fun k hk => h k (List.mem_cons_of_mem _ hk)]

end Contents

section Requests

variable [DecidableEq κ] {limit : ℕ} {s : Store κ α} {rs rs' : List (Request κ)}

@[simp] theorem run_nil : run [] s = s := rfl

@[simp] theorem run_cons (r : Request κ) : run (r :: rs) s = run rs (r.apply s) := rfl

theorem run_append : run (rs ++ rs') s = run rs' (run rs s) := List.foldl_append

theorem accepted_append :
    Accepted limit (rs ++ rs') s ↔ Accepted limit rs s ∧ Accepted limit rs' (run rs s) := by
  induction rs generalizing s with
  | nil => exact (and_iff_right trivial).symm
  | cons r rs ih =>
    rw [List.cons_append, Accepted, Accepted, ih, and_assoc, run_cons]

/-- Deleting what is there, each once. -/
theorem accepted_delete {keys : List κ} (hnodup : keys.Nodup) (hs : ∀ k ∈ keys, (s k).isSome) :
    Accepted limit (keys.map .delete) s := by
  induction keys generalizing s with
  | nil => exact trivial
  | cons k keys ih =>
    obtain ⟨hk, hnodup⟩ := List.nodup_cons.mp hnodup
    refine ⟨hs k List.mem_cons_self, ih hnodup fun k' hk' => ?_⟩
    have hne : k' ≠ k := fun h => hk (h ▸ hk')
    show (Function.update s k none k').isSome
    rw [Function.update_of_ne hne]
    exact hs k' (List.mem_cons_of_mem _ hk')

theorem apply_of_ne {r : Request κ} {k : κ} (h : r.touches ≠ k) : r.apply s k = s k := by
  cases r with
  | compose sources dest => exact Function.update_of_ne h.symm _ _
  | delete key => exact Function.update_of_ne h.symm _ _

theorem run_frame {k : κ} (h : ∀ r ∈ rs, r.touches ≠ k) : run rs s k = s k := by
  induction rs generalizing s with
  | nil => rfl
  | cons r rs ih =>
    obtain ⟨hr, hrs⟩ := List.forall_mem_cons.mp h
    rw [run_cons, ih hrs, apply_of_ne hr]

/-- Deleting what is not there. -/
theorem apply_delete_of_none {k : κ} (h : s k = none) : (Request.delete k).apply s = s := by
  show Function.update s k none = s
  rw [← h, Function.update_eq_self]

theorem allowed_append :
    Allowed limit (rs ++ rs') s ↔ Allowed limit rs s ∧ Allowed limit rs' (run rs s) := by
  induction rs generalizing s with
  | nil => exact (and_iff_right trivial).symm
  | cons r rs ih =>
    rw [List.cons_append, Allowed, Allowed, ih, and_assoc, run_cons]

theorem allowed_delete (keys : List κ) : Allowed limit (keys.map .delete) s := by
  induction keys generalizing s with
  | nil => exact trivial
  | cons k keys ih => exact ⟨trivial, ih⟩

theorem allowed_of_accepted (h : Accepted limit rs s) : Allowed limit rs s := by
  induction rs generalizing s with
  | nil => exact trivial
  | cons r rs ih =>
    refine ⟨?_, ih h.2⟩
    cases r with
    | compose sources dest => exact h.1
    | delete key => exact trivial

theorem run_delete (keys : List κ) (k : κ) :
    run (keys.map .delete) s k = if k ∈ keys then none else s k := by
  induction keys generalizing s with
  | nil => rfl
  | cons d keys ih =>
    rw [List.map_cons, run_cons, ih]
    show (if k ∈ keys then none else Function.update s d none k) = _
    by_cases hk : k = d
    · subst hk
      rw [Function.update_self, if_pos List.mem_cons_self, ite_self]
    · rw [Function.update_of_ne hk]
      simp only [List.mem_cons, hk, false_or]

end Requests

section Folding

variable {limit : ℕ} {s : Store κ α} {sources temps left : List κ} {requests : List (Request κ)}

theorem Folds.left_subset (h : Folds limit sources requests temps left) {k : κ} (hk : k ∈ left) :
    k ∈ sources ∨ k ∈ temps := by
  induction h with
  | done => exact .inl hk
  | @fold batch rest temps left requests temp _ _ _ _ ih =>
    rcases ih hk with hk | hk
    · rcases List.mem_cons.mp hk with rfl | hk
      · exact .inr List.mem_cons_self
      · exact .inl (List.mem_append_right _ hk)
    · exact .inr (List.mem_cons_of_mem _ hk)

/-- Folding composes, within the limit. -/
theorem Folds.compose (h : Folds limit sources requests temps left) {r : Request κ}
    (hr : r ∈ requests) :
    ∃ batch temp, r = .compose batch temp ∧ batch ≠ [] ∧ batch.length ≤ limit := by
  induction h with
  | done => exact absurd hr List.not_mem_nil
  | fold hne hlimit hfresh h ih =>
    rcases List.mem_cons.mp hr with rfl | hr
    · exact ⟨_, _, rfl, hne, hlimit⟩
    · exact ih hr

/-- A compose for each intermediate object. -/
theorem Folds.length_requests (h : Folds limit sources requests temps left) :
    requests.length = temps.length := by
  induction h with
  | done => rfl
  | fold hne hlimit hfresh h ih => rw [List.length_cons, List.length_cons, ih]

theorem Folds.filterMap_dest (h : Folds limit sources requests temps left) :
    requests.filterMap Request.dest = temps := by
  induction h with
  | done => rfl
  | fold hne hlimit hfresh h ih => exact congrArg (List.cons _) ih

/-- What is made: the intermediate objects, and last the one that is wanted. -/
theorem Folds.filterMap_dest_assembly (h : Folds limit sources requests temps left) (dest : κ) :
    (assembly requests left dest sources temps).filterMap Request.dest = temps ++ [dest] := by
  have hdelete : ∀ keys : List κ, (keys.map Request.delete).filterMap Request.dest = [] := by
    intro keys
    rw [List.filterMap_map]
    exact List.filterMap_eq_nil_iff.mpr fun k _ => rfl
  rw [assembly, List.filterMap_append, h.filterMap_dest, List.filterMap_cons, hdelete]
  rfl

/-- Nothing that is asked for is beyond the limit. -/
theorem Folds.limit_assembly (h : Folds limit sources requests temps left) (hne : left ≠ [])
    (hleft : left.length ≤ limit) {dest d : κ} {batch : List κ}
    (hr : .compose batch d ∈ assembly requests left dest sources temps) :
    batch ≠ [] ∧ batch.length ≤ limit := by
  rcases List.mem_append.mp hr with hr | hr
  · obtain ⟨_, _, heq, hbatch⟩ := h.compose hr
    obtain ⟨rfl, -⟩ := Request.compose.inj heq
    exact hbatch
  · rcases List.mem_cons.mp hr with heq | hr
    · obtain ⟨rfl, -⟩ := Request.compose.inj heq
      exact ⟨hne, hleft⟩
    · obtain ⟨_, _, heq⟩ := List.mem_map.mp hr
      cases heq

theorem Folds.delete_assembly (h : Folds limit sources requests temps left) {dest d : κ}
    (hr : .delete d ∈ assembly requests left dest sources temps) : d ∈ sources ++ temps := by
  rcases List.mem_append.mp hr with hr | hr
  · obtain ⟨_, _, heq, -⟩ := h.compose hr
    cases heq
  · rcases List.mem_cons.mp hr with heq | hr
    · cases heq
    · obtain ⟨k, hk, heq⟩ := List.mem_map.mp hr
      exact Request.delete.inj heq ▸ hk

variable [DecidableEq κ]

/-- Folding leaves everything else alone. -/
theorem Folds.frame (h : Folds limit sources requests temps left) {k : κ} (hk : k ∉ temps) :
    run requests s k = s k := by
  induction h generalizing s with
  | done => rfl
  | @fold batch rest temps left requests temp _ _ _ _ ih =>
    obtain ⟨hne, hk⟩ := List.ne_and_not_mem_of_not_mem_cons hk
    rw [run_cons, ih hk]
    exact Function.update_of_ne hne _ _

/-- The intermediate object holds what its sources held. -/
theorem joined_fold {batch rest : List κ} {temp : κ} (hfresh : temp ∉ rest) :
    joined ((Request.compose batch temp).apply s) (temp :: rest)
      = joined s (batch ++ rest) := by
  have hrest : joined ((Request.compose batch temp).apply s) rest = joined s rest :=
    joined_congr fun k hk => Function.update_of_ne (fun (heq : k = temp) => hfresh (heq ▸ hk)) _ _
  rw [joined_cons, hrest, joined_append]
  congr 1
  show (Function.update s temp (some (joined s batch)) temp).getD [] = _
  rw [Function.update_self]
  rfl

/-- **Folding keeps what the sources hold**, in their order. -/
theorem Folds.joined_left (h : Folds limit sources requests temps left) :
    joined (run requests s) left = joined s sources := by
  induction h generalizing s with
  | done => rfl
  | fold hne hlimit hfresh h ih => rw [run_cons, ih, joined_fold hfresh]

/-- What is composed stays there. -/
theorem isSome_compose {k : κ} {batch : List κ} {temp : κ} (hk : k = temp ∨ (s k).isSome) :
    ((Request.compose batch temp).apply s k).isSome := by
  show (Function.update s temp (some (joined s batch)) k).isSome
  by_cases h : k = temp
  · subst h
    rw [Function.update_self]
    rfl
  · rw [Function.update_of_ne h]
    exact hk.resolve_left h

theorem Folds.isSome (h : Folds limit sources requests temps left) {k : κ}
    (hk : k ∈ temps ∨ (s k).isSome) : (run requests s k).isSome := by
  induction h generalizing s with
  | done => exact hk.resolve_left List.not_mem_nil
  | @fold batch rest temps left requests temp _ _ _ _ ih =>
    rw [run_cons]
    rcases hk with hk | hk
    · rcases List.mem_cons.mp hk with rfl | hk
      · exact ih (.inr (isSome_compose (.inl rfl)))
      · exact ih (.inl hk)
    · exact ih (.inr (isSome_compose (.inr hk)))

theorem Folds.accepted (h : Folds limit sources requests temps left)
    (hs : ∀ k ∈ sources, (s k).isSome) : Accepted limit requests s := by
  induction h generalizing s with
  | done => exact trivial
  | @fold batch rest temps left requests temp hne hlimit _ _ ih =>
    refine ⟨⟨hne, hlimit, fun k hk => hs k (List.mem_append_left _ hk)⟩, ih fun k hk => ?_⟩
    rcases List.mem_cons.mp hk with rfl | hk
    · exact isSome_compose (.inl rfl)
    · exact isSome_compose (.inr (hs k (List.mem_append_right _ hk)))

/-- The store can do all of it, if it is asked for no key twice. -/
theorem Folds.accepted_assembly (h : Folds limit sources requests temps left)
    (hs : ∀ k ∈ sources, (s k).isSome) (hne : left ≠ []) (hleft : left.length ≤ limit)
    (hnodup : (sources ++ temps).Nodup) (dest : κ) :
    Accepted limit (assembly requests left dest sources temps) s := by
  refine accepted_append.mpr ⟨h.accepted hs, ⟨hne, hleft, fun k hk => ?_⟩, ?_⟩
  · rcases h.left_subset hk with hk | hk
    · exact h.isSome (.inr (hs k hk))
    · exact h.isSome (.inl hk)
  · refine accepted_delete hnodup fun k hk => isSome_compose (.inr ?_)
    rcases List.mem_append.mp hk with hk | hk
    · exact h.isSome (.inr (hs k hk))
    · exact h.isSome (.inl hk)

/-- What is composed has to be there. -/
theorem Folds.isSome_of_allowed (h : Folds limit sources requests temps left)
    (hrequests : Allowed limit requests s) (hleft : ∀ k ∈ left, (run requests s k).isSome)
    {k : κ} (hk : k ∈ sources) (htemp : k ∉ temps) : (s k).isSome := by
  induction h generalizing s with
  | done => exact hleft k hk
  | @fold batch rest temps left requests temp _ _ _ _ ih =>
    rcases List.mem_append.mp hk with hk | hk
    · exact hrequests.1.2.2 k hk
    · obtain ⟨hne, htemp⟩ := List.ne_and_not_mem_of_not_mem_cons htemp
      have hrest := ih hrequests.2 hleft (List.mem_cons_of_mem _ hk) htemp
      have hframe : (Request.compose batch temp).apply s k = s k := apply_of_ne hne.symm
      rw [← hframe]
      exact hrest

/-- **Nothing but the sources has to be there**, and they all have to. -/
theorem Folds.allowed_assembly_iff (h : Folds limit sources requests temps left)
    (hne : left ≠ []) (hleft : left.length ≤ limit) (hfresh : ∀ k ∈ sources, k ∉ temps)
    (dest : κ) :
    Allowed limit (assembly requests left dest sources temps) s
      ↔ ∀ k ∈ sources, (s k).isSome := by
  rw [assembly, allowed_append]
  constructor
  · rintro ⟨hrequests, hcompose, -⟩ k hk
    exact h.isSome_of_allowed hrequests hcompose.2.2 hk (hfresh k hk)
  · intro hs
    refine ⟨allowed_of_accepted (h.accepted hs), ⟨hne, hleft, fun k hk => ?_⟩, allowed_delete _⟩
    rcases h.left_subset hk with hk | hk
    · exact h.isSome (.inr (hs k hk))
    · exact h.isSome (.inl hk)

/-- **What remains is one object that holds what the sources held**, and what was there besides. -/
theorem Folds.run_assembly (h : Folds limit sources requests temps left) {dest : κ}
    (hdest : dest ∉ sources ++ temps) (k : κ) :
    run (assembly requests left dest sources temps) s k
      = if k = dest then some (joined s sources)
        else if k ∈ sources ++ temps then none else s k := by
  rw [assembly, run_append, run_cons, run_delete]
  by_cases hk : k = dest
  · subst hk
    rw [if_neg hdest, if_pos rfl, ← h.joined_left (s := s)]
    exact Function.update_self ..
  · rw [if_neg hk]
    by_cases hgone : k ∈ sources ++ temps
    · rw [if_pos hgone, if_pos hgone]
    · rw [if_neg hgone, if_neg hgone]
      exact (Function.update_of_ne hk ..).trans
        (h.frame fun htemp => hgone (List.mem_append_right _ htemp))

end Folding

end Assembly
