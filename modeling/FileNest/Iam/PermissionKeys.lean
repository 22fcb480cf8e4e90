import FileNest.Iam.ApiKey
import Mathlib.Data.List.Sort

/-!
# Permission keys and the JSON of a role

The program speaks of permissions by keys such as `files:read`; a role on record groups the
actions of its keys by resource, in a plain JavaScript object that is stored as JSON.  A plain
object inherits properties, and a resource may have the name of one of them.

## Main definitions

* `splitKey`, `WellFormedKey` — a resource and an action, and the keys that have them.
* `PlainObject`, `pushAction` — an object of lists, and an action added to one of them.
* `orgPermissionKeysToJson` — the encoder.
* `RoundTrips` — what is decoded is what was well-formed.

## Main results

* `orgPermissionKeysToJson_of_plain` — what the encoder writes.
* `roundTrips_iff` — **keys survive the encoding exactly if no resource has the name of a property
  that every object inherits.**
-/

namespace FileNest

namespace Iam

/-! ### Keys -/

/-- The resource and the action of a key, divided at the first colon; `none` for a key that the
encoder skips. -/
def splitKey (key : String) : Option (String × String) :=
  -- the length, where `indexOf` is `-1`
  let colonIdx := key.toList.idxOf ':'
  if colonIdx < 1 ∨ colonIdx = key.toList.length then none
  else some (String.ofList (key.toList.take colonIdx),
    String.ofList (key.toList.drop (colonIdx + 1)))

/-- The first colon is there, and not in front. -/
def WellFormedKey (key : String) : Prop := ':' ∈ key.toList ∧ key.toList.head? ≠ some ':'

/-- A list is divided at the first place of an element. -/
theorem take_append_cons_drop_idxOf {α : Type} [DecidableEq α] {l : List α} {a : α} (h : a ∈ l) :
    l.take (l.idxOf a) ++ a :: l.drop (l.idxOf a + 1) = l := by
  have hlt := List.idxOf_lt_length_of_mem h
  have hdrop : l.drop (l.idxOf a) = a :: l.drop (l.idxOf a + 1) := by
    rw [List.drop_eq_getElem_cons hlt, List.getElem_idxOf hlt]
  rw [← hdrop, List.take_append_drop]

/-- What comes before the colon is not empty and has no colon. -/
theorem of_splitKey_eq_some {key resource action : String}
    (h : splitKey key = some (resource, action)) :
    key = resource ++ ":" ++ action ∧ resource ≠ "" ∧ ':' ∉ resource.toList := by
  simp only [splitKey] at h
  split at h
  · cases h
  · rename_i hidx
    obtain ⟨hpos, hlen⟩ := not_or.mp hidx
    have hmem : ':' ∈ key.toList := by
      by_contra hnot
      exact hlen (List.idxOf_eq_length hnot)
    obtain ⟨hres, hact⟩ := Prod.mk.inj (Option.some.inj h)
    have hlist : resource.toList = key.toList.take (key.toList.idxOf ':') := by
      rw [← hres, String.toList_ofList]
    refine ⟨?_, ?_, ?_⟩
    · rw [← String.toList_inj, String.toList_append, String.toList_append, hlist, ← hact,
        String.toList_ofList]
      simpa using (take_append_cons_drop_idxOf hmem).symm
    · rintro rfl
      have hlength := congrArg List.length hlist
      rw [String.toList_empty, List.length_nil, List.length_take] at hlength
      have hlt := List.idxOf_lt_length_of_mem hmem
      omega
    · rw [hlist, List.mem_take_iff_idxOf_lt hmem]
      exact lt_irrefl _

/-- A key is divided after its resource. -/
theorem splitKey_append {resource action : String} (hne : resource ≠ "")
    (hnot : ':' ∉ resource.toList) :
    splitKey (resource ++ ":" ++ action) = some (resource, action) := by
  have hlist : (resource ++ ":" ++ action).toList = resource.toList ++ ':' :: action.toList := by
    simp [String.toList_append]
  have hpos : 0 < resource.toList.length := by
    refine List.length_pos_iff.mpr fun hnil => hne ?_
    rw [← String.toList_inj, hnil]
    rfl
  have hidx : (resource.toList ++ ':' :: action.toList).idxOf ':' = resource.toList.length := by
    rw [List.idxOf_append_of_notMem hnot, List.idxOf_cons_self, Nat.add_zero]
  have hlen : (resource.toList ++ ':' :: action.toList).length
      = resource.toList.length + (action.toList.length + 1) := by simp
  simp only [splitKey, hlist, hidx, hlen]
  rw [if_neg (by omega), List.take_left, ← List.drop_drop, List.drop_left]
  simp

theorem splitKey_eq_some {key resource action : String} :
    splitKey key = some (resource, action) ↔
      key = resource ++ ":" ++ action ∧ resource ≠ "" ∧ ':' ∉ resource.toList := by
  constructor
  · exact of_splitKey_eq_some
  · rintro ⟨rfl, hne, hnot⟩
    exact splitKey_append hne hnot

/-- A well-formed key has a resource and an action. -/
theorem wellFormedKey_iff {key : String} :
    WellFormedKey key ↔ ∃ resource action, splitKey key = some (resource, action) := by
  constructor
  · rintro ⟨hmem, hhead⟩
    cases hsplit : splitKey key with
    | some parts => exact ⟨parts.1, parts.2, rfl⟩
    | none =>
      have hlt := List.idxOf_lt_length_of_mem hmem
      simp only [splitKey] at hsplit
      split at hsplit
      · rename_i hidx
        have hzero : key.toList.idxOf ':' = 0 := by omega
        have hget := List.getElem_idxOf hlt
        rw [List.head?_eq_getElem?, ← hzero, List.getElem?_eq_getElem hlt, hget] at hhead
        exact absurd rfl hhead
      · cases hsplit
  · rintro ⟨resource, action, hsplit⟩
    obtain ⟨rfl, hne, hnot⟩ := splitKey_eq_some.mp hsplit
    have hlist : (resource ++ ":" ++ action).toList = resource.toList ++ ':' :: action.toList := by
      simp [String.toList_append]
    refine ⟨by simp [hlist], ?_⟩
    rw [hlist]
    cases hres : resource.toList with
    | nil =>
      exact absurd (String.toList_inj.mp hres) hne
    | cons c cs =>
      rintro heq
      rw [hres] at hnot
      exact hnot (Option.some.inj heq ▸ List.mem_cons_self)

/-! ### Plain objects -/

/-- A plain object of lists: its own properties, in the order they were made. -/
abbrev PlainObject := List (String × List String)

/-- The properties of `Object.prototype`.  None of them is nullish or has a `push`. -/
def objectPrototype : List String :=
  ["constructor", "__defineGetter__", "__defineSetter__", "hasOwnProperty", "__lookupGetter__",
    "__lookupSetter__", "isPrototypeOf", "propertyIsEnumerable", "toString", "valueOf",
    "__proto__", "toLocaleString"]

/-- `(grouped[resource] ??= []).push(action)`; `none` where it throws. -/
def pushAction (grouped : PlainObject) (resource action : String) : Option PlainObject :=
  if grouped.any (·.1 == resource) then
    some (grouped.map fun property =>
      if property.1 = resource then (property.1, property.2 ++ [action]) else property)
  -- what is inherited is not nullish, and has no `push`
  else if resource ∈ objectPrototype then none
  else some (grouped ++ [(resource, [action])])

/-- The number a property is ordered by, if its name is an array index. -/
def arrayIndex (name : String) : Option ℕ :=
  let n := name.toList.foldl (fun n c => 10 * n + (c.toNat - '0'.toNat)) 0
  -- what is not a number in its usual form is not read back
  if toString n = name ∧ n < 4294967295 then some n else none

/-- The properties in the order they are listed: array indices first, by their number. -/
def PlainObject.entries (grouped : PlainObject) : List (String × List String) :=
  (grouped.filter fun property => (arrayIndex property.1).isSome).insertionSort
      (fun p q => (arrayIndex p.1).getD 0 ≤ (arrayIndex q.1).getD 0)
    ++ grouped.filter fun property => (arrayIndex property.1).isNone

/-- One round of the encoder. -/
def addKey (grouped : PlainObject) (key : String) : Option PlainObject :=
  match splitKey key with
  | none => some grouped
  | some (resource, action) => pushAction grouped resource action

/-- `orgPermissionKeysToJson`: the object its text denotes, or `none` where it throws. -/
def orgPermissionKeysToJson (keys : List String) : Option (List (String × List String)) :=
  (keys.foldlM addKey []).map PlainObject.entries

/-- The object has the action for the resource. -/
def PlainObject.Has (grouped : PlainObject) (resource action : String) : Prop :=
  ∃ actions, (resource, actions) ∈ grouped ∧ action ∈ actions

/-- No property has the name of an inherited one. -/
def PlainObject.Plain (grouped : PlainObject) : Prop :=
  ∀ property ∈ grouped, property.1 ∉ objectPrototype

/-- The key's resource has the name of an inherited property. -/
def ClashingKey (key : String) : Prop :=
  ∃ name ∈ objectPrototype, ∃ action, key = name ++ ":" ++ action

/-- What is decoded is what was well-formed. -/
def RoundTrips (keys : List String) : Prop :=
  ∃ json, orgPermissionKeysToJson keys = some json ∧
    ∀ key, key ∈ orgPermissionJsonToKeys (some json) ↔ key ∈ keys ∧ WellFormedKey key

section Objects

variable {grouped grouped' : PlainObject} {resource action key : String}

theorem plain_nil : PlainObject.Plain [] := fun _ hproperty => absurd hproperty List.not_mem_nil

/-- Another action of a resource. -/
theorem has_map_append {actions : List String} (hmem : (resource, actions) ∈ grouped)
    (r a : String) :
    PlainObject.Has (grouped.map fun property =>
        if property.1 = resource then (property.1, property.2 ++ [action]) else property) r a ↔
      grouped.Has r a ∨ r = resource ∧ a = action := by
  constructor
  · rintro ⟨actions', hmem', ha⟩
    obtain ⟨⟨name', before⟩, hbefore, heq⟩ := List.mem_map.mp hmem'
    simp only at heq
    split at heq
    · rename_i hsame
      obtain ⟨rfl, rfl⟩ := Prod.mk.inj heq
      obtain ha | ha := List.mem_append.mp ha
      · exact .inl ⟨before, hbefore, ha⟩
      · exact .inr ⟨hsame, List.mem_singleton.mp ha⟩
    · obtain ⟨rfl, rfl⟩ := Prod.mk.inj heq
      exact .inl ⟨before, hbefore, ha⟩
  · rintro (⟨before, hbefore, ha⟩ | ⟨rfl, rfl⟩)
    · by_cases hsame : r = resource
      · exact ⟨before ++ [action], List.mem_map.mpr ⟨(r, before), hbefore, if_pos hsame⟩,
          List.mem_append_left _ ha⟩
      · exact ⟨before, List.mem_map.mpr ⟨(r, before), hbefore, if_neg hsame⟩, ha⟩
    · exact ⟨actions ++ [a], List.mem_map.mpr ⟨(r, actions), hmem, if_pos rfl⟩,
        List.mem_append_right _ (List.mem_singleton_self a)⟩

/-- The first action of a resource. -/
theorem has_append (r a : String) :
    PlainObject.Has (grouped ++ [(resource, [action])]) r a ↔
      grouped.Has r a ∨ r = resource ∧ a = action := by
  constructor
  · rintro ⟨actions, hmem, ha⟩
    obtain hmem | hmem := List.mem_append.mp hmem
    · exact .inl ⟨actions, hmem, ha⟩
    · obtain ⟨rfl, rfl⟩ := Prod.mk.inj (List.mem_singleton.mp hmem)
      exact .inr ⟨rfl, List.mem_singleton.mp ha⟩
  · rintro (⟨actions, hmem, ha⟩ | ⟨rfl, rfl⟩)
    · exact ⟨actions, List.mem_append_left _ hmem, ha⟩
    · exact ⟨[a], List.mem_append_right _ (List.mem_singleton_self _), List.mem_singleton_self a⟩

/-- Adding an action to an object without inherited names. -/
theorem pushAction_of_notMem (hplain : grouped.Plain) (hname : resource ∉ objectPrototype) :
    ∃ grouped', pushAction grouped resource action = some grouped' ∧ grouped'.Plain ∧
      ∀ r a, grouped'.Has r a ↔ grouped.Has r a ∨ r = resource ∧ a = action := by
  unfold pushAction
  split
  · rename_i hown
    obtain ⟨⟨name, actions⟩, hmem, hres⟩ := List.any_eq_true.mp hown
    obtain rfl : name = resource := by simpa using hres
    refine ⟨_, rfl, fun property hproperty => ?_, has_map_append hmem⟩
    obtain ⟨before, hbefore, rfl⟩ := List.mem_map.mp hproperty
    split <;> exact hplain before hbefore
  · refine ⟨_, rfl, fun property hproperty => ?_, has_append⟩
    obtain hproperty | hproperty := List.mem_append.mp hproperty
    · exact hplain property hproperty
    · rw [List.mem_singleton.mp hproperty]
      exact hname

/-- The first action of a resource with an inherited name. -/
theorem pushAction_of_mem (hplain : grouped.Plain) (hname : resource ∈ objectPrototype) :
    pushAction grouped resource action = none := by
  unfold pushAction
  rw [if_neg, if_pos hname]
  intro hown
  obtain ⟨property, hmem, hres⟩ := List.any_eq_true.mp hown
  obtain rfl : property.1 = resource := by simpa using hres
  exact hplain property hmem hname

@[simp] theorem PlainObject.mem_entries {property : String × List String} :
    property ∈ grouped.entries ↔ property ∈ grouped := by
  simp only [entries, List.mem_append, List.mem_insertionSort, List.mem_filter]
  cases arrayIndex property.1 <;> simp

end Objects

/-! ### The encoder -/

theorem objectPrototype_resource : ∀ name ∈ objectPrototype, name ≠ "" ∧ ':' ∉ name.toList := by
  decide

/-- A key that clashes is one the encoder does not skip. -/
theorem clashingKey_iff {key : String} :
    ClashingKey key ↔
      ∃ name ∈ objectPrototype, ∃ action, splitKey key = some (name, action) := by
  refine exists_congr fun name => and_congr_right fun hname => exists_congr fun action => ?_
  rw [splitKey_eq_some, and_iff_left (objectPrototype_resource name hname)]

section Encoder

variable {grouped : PlainObject} {keys : List String}

/-- One round, for a key that does not clash. -/
theorem addKey_of_plain (hplain : grouped.Plain) {key : String} (hkey : ¬ClashingKey key) :
    ∃ grouped', addKey grouped key = some grouped' ∧ grouped'.Plain ∧
      ∀ r a, grouped'.Has r a ↔ grouped.Has r a ∨ splitKey key = some (r, a) := by
  unfold addKey
  cases hsplit : splitKey key with
  | none => exact ⟨grouped, rfl, hplain, fun r a => by simp⟩
  | some parts =>
    obtain ⟨resource, action⟩ := parts
    have hname : resource ∉ objectPrototype := fun hname =>
      hkey (clashingKey_iff.mpr ⟨resource, hname, action, hsplit⟩)
    obtain ⟨grouped', hpush, hplain', hhas⟩ := pushAction_of_notMem hplain hname
    refine ⟨grouped', hpush, hplain', fun r a => (hhas r a).trans (or_congr_right ?_)⟩
    simp only [Option.some.injEq, Prod.mk.injEq]
    exact and_congr eq_comm eq_comm

/-- The loop, over keys that do not clash. -/
theorem foldlM_addKey_of_plain (hplain : grouped.Plain) (hkeys : ∀ key ∈ keys, ¬ClashingKey key) :
    ∃ grouped', keys.foldlM addKey grouped = some grouped' ∧
      ∀ r a, grouped'.Has r a ↔ grouped.Has r a ∨ ∃ key ∈ keys, splitKey key = some (r, a) := by
  induction keys generalizing grouped with
  | nil => exact ⟨grouped, rfl, fun r a => by simp⟩
  | cons key keys ih =>
    obtain ⟨next, hnext, hplain', hhas⟩ := addKey_of_plain hplain (hkeys key List.mem_cons_self)
    obtain ⟨grouped', hloop, hhas'⟩ :=
      ih hplain' fun key hkey => hkeys key (List.mem_cons_of_mem _ hkey)
    refine ⟨grouped', ?_, fun r a => ?_⟩
    · rw [List.foldlM_cons, hnext]
      exact hloop
    · rw [hhas', hhas, or_assoc, List.exists_mem_cons_iff]

/-- The loop ends at the first key that clashes. -/
theorem foldlM_addKey_of_clash (hplain : grouped.Plain) {key : String} (hmem : key ∈ keys)
    (hkey : ClashingKey key) : keys.foldlM addKey grouped = none := by
  induction keys generalizing grouped with
  | nil => cases hmem
  | cons first keys ih =>
    rw [List.foldlM_cons]
    by_cases hfirst : ClashingKey first
    · obtain ⟨name, hname, action, hsplit⟩ := clashingKey_iff.mp hfirst
      rw [addKey, hsplit]
      exact congrArg (· >>= fun next => keys.foldlM addKey next) (pushAction_of_mem hplain hname)
    · obtain ⟨next, hnext, hplain', -⟩ := addKey_of_plain hplain hfirst
      rw [hnext]
      refine ih hplain' ((List.mem_cons.mp hmem).resolve_left fun heq => ?_)
      exact hfirst (heq ▸ hkey)

/-- What the encoder writes for keys that do not clash, … -/
theorem orgPermissionKeysToJson_of_plain (hkeys : ∀ key ∈ keys, ¬ClashingKey key) :
    ∃ json, orgPermissionKeysToJson keys = some json ∧
      ∀ key, key ∈ orgPermissionJsonToKeys (some json) ↔ key ∈ keys ∧ WellFormedKey key := by
  obtain ⟨grouped, hloop, hhas⟩ := foldlM_addKey_of_plain plain_nil hkeys
  refine ⟨grouped.entries, by rw [orgPermissionKeysToJson, hloop]; rfl, fun key => ?_⟩
  have hdecoded : key ∈ orgPermissionJsonToKeys (some grouped.entries) ↔
      ∃ r a, grouped.Has r a ∧ r ++ ":" ++ a = key := by
    simp only [orgPermissionJsonToKeys, List.mem_flatMap, PlainObject.mem_entries, List.mem_map]
    constructor
    · rintro ⟨⟨r, actions⟩, hmem, a, ha, rfl⟩
      exact ⟨r, a, ⟨actions, hmem, ha⟩, rfl⟩
    · rintro ⟨r, a, ⟨actions, hmem, ha⟩, rfl⟩
      exact ⟨(r, actions), hmem, a, ha, rfl⟩
  rw [hdecoded, wellFormedKey_iff]
  constructor
  · rintro ⟨r, a, hra, rfl⟩
    obtain hnone | ⟨key, hkey, hsplit⟩ := (hhas r a).mp hra
    · obtain ⟨actions, hmem, -⟩ := hnone
      cases hmem
    · rw [← (splitKey_eq_some.mp hsplit).1]
      exact ⟨hkey, r, a, hsplit⟩
  · rintro ⟨hkey, r, a, hsplit⟩
    exact ⟨r, a, (hhas r a).mpr (.inr ⟨key, hkey, hsplit⟩), (splitKey_eq_some.mp hsplit).1.symm⟩

/-- … and that it throws for others. -/
theorem orgPermissionKeysToJson_of_clash {key : String} (hmem : key ∈ keys)
    (hkey : ClashingKey key) : orgPermissionKeysToJson keys = none := by
  rw [orgPermissionKeysToJson, foldlM_addKey_of_clash plain_nil hmem hkey]
  rfl

/-- What is written can be read. -/
theorem orgPermissionKeysToJson_eq_some {json : List (String × List String)}
    (h : orgPermissionKeysToJson keys = some json) :
    (∀ key ∈ keys, ¬ClashingKey key) ∧
      ∀ key, key ∈ orgPermissionJsonToKeys (some json) ↔ key ∈ keys ∧ WellFormedKey key := by
  have hkeys : ∀ key ∈ keys, ¬ClashingKey key := by
    intro key hmem hkey
    rw [orgPermissionKeysToJson_of_clash hmem hkey] at h
    cases h
  obtain ⟨json', hjson', hread⟩ := orgPermissionKeysToJson_of_plain hkeys
  obtain rfl := Option.some.inj (h.symm.trans hjson')
  exact ⟨hkeys, hread⟩

end Encoder

/-- **Keys survive the encoding exactly if no resource has the name of an inherited property.** -/
theorem roundTrips_iff (keys : List String) :
    RoundTrips keys ↔ ∀ key ∈ keys, ¬ClashingKey key := by
  refine ⟨?_, orgPermissionKeysToJson_of_plain⟩
  rintro ⟨json, hjson, -⟩
  exact (orgPermissionKeysToJson_eq_some hjson).1

/-- A resource is called `constructor`. -/
theorem constructor_does_not_round_trip :
    orgPermissionKeysToJson ["files:read", "constructor:call"] = none ∧
      ¬∀ keys, RoundTrips keys := by
  have hthrows : orgPermissionKeysToJson ["files:read", "constructor:call"] = none :=
    orgPermissionKeysToJson_of_clash (List.mem_cons_of_mem _ (List.mem_singleton_self _))
      ⟨"constructor", by decide, "call", rfl⟩
  refine ⟨hthrows, fun h => ?_⟩
  obtain ⟨json, hjson, -⟩ := h ["files:read", "constructor:call"]
  rw [hthrows] at hjson
  cases hjson

end Iam

end FileNest
