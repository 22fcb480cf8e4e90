import FileNest.Lib.Forest
import Mathlib.Data.List.Basic
import Mathlib.Data.List.Flatten
import Mathlib.Data.List.Nodup

/-!
# Trees with any number of children

Trees are grown from a rule that gives the children of a key, as deep as there is fuel for; a node
may be dropped when the trees below it are known.

## Main definitions

* `Rose`, `labels`, `map`, `Sub` — trees, what is in a forest, and the trees within.
* `grow` — the forest below a key.
* `Deep`, `Reach` — how deep the rule goes, and where it leads.

## Main results

* `mem_labels_grow` — **a label is grown exactly if the rule leads to it, and to one below it that
  is not dropped.**
* `nodup_labels_grow` — no label is grown twice.
-/

/-- A tree. -/
inductive Rose (α : Type) where
  | node (label : α) (children : List (Rose α))

namespace Rose

variable {α β κ : Type}

/-- The label at the root. -/
def label : Rose α → α
  | node a _ => a

mutual

/-- The labels of a tree, parents first. -/
def treeLabels : Rose α → List α
  | node a children => a :: labels children

/-- The labels of a forest. -/
def labels : List (Rose α) → List α
  | [] => []
  | t :: ts => treeLabels t ++ labels ts

end

mutual

/-- Other labels. -/
def mapTree (f : α → β) : Rose α → Rose β
  | node a children => node (f a) (map f children)

/-- Other labels, throughout a forest. -/
def map (f : α → β) : List (Rose α) → List (Rose β)
  | [] => []
  | t :: ts => mapTree f t :: map f ts

end

/-- A tree within a forest. -/
inductive Sub (forest : List (Rose α)) : Rose α → Prop
  | root {t : Rose α} (ht : t ∈ forest) : Sub forest t
  | down {a : α} {children : List (Rose α)} {t : Rose α} (h : Sub forest (node a children))
      (ht : t ∈ children) : Sub forest t

section Lists

theorem labels_append (ts us : List (Rose α)) : labels (ts ++ us) = labels ts ++ labels us := by
  induction ts with
  | nil => rfl
  | cons t ts ih => rw [List.cons_append, labels, labels, ih, List.append_assoc]

theorem labels_flatMap (l : List β) (f : β → List (Rose α)) :
    labels (l.flatMap f) = l.flatMap fun b => labels (f b) := by
  induction l with
  | nil => rfl
  | cons b l ih => rw [List.flatMap_cons, List.flatMap_cons, labels_append, ih]

@[simp] theorem labels_singleton (t : Rose α) : labels [t] = treeLabels t := by
  rw [labels, labels, List.append_nil]

theorem map_eq (f : α → β) (ts : List (Rose α)) : map f ts = ts.map (mapTree f) := by
  induction ts with
  | nil => rfl
  | cons t ts ih => rw [map, ih, List.map_cons]

mutual

theorem treeLabels_map (f : α → β) : ∀ t : Rose α, treeLabels (mapTree f t) = (treeLabels t).map f
  | node a children => by rw [mapTree, treeLabels, treeLabels, labels_map f children, List.map_cons]

theorem labels_map (f : α → β) : ∀ ts : List (Rose α), labels (map f ts) = (labels ts).map f
  | [] => rfl
  | t :: ts => by rw [map, labels, labels, treeLabels_map f t, labels_map f ts, List.map_append]

end

mutual

theorem mapTree_mapTree {γ : Type} (g : β → γ) (f : α → β) :
    ∀ t : Rose α, mapTree g (mapTree f t) = mapTree (fun a => g (f a)) t
  | node a children => by rw [mapTree, mapTree, mapTree, map_map g f children]

theorem map_map {γ : Type} (g : β → γ) (f : α → β) :
    ∀ ts : List (Rose α), map g (map f ts) = map (fun a => g (f a)) ts
  | [] => rfl
  | t :: ts => by rw [map, map, map, mapTree_mapTree g f t, map_map g f ts]

end

theorem map_append (f : α → β) (ts us : List (Rose α)) :
    map f (ts ++ us) = map f ts ++ map f us := by
  rw [map_eq, map_eq, map_eq, List.map_append]

theorem map_flatMap {γ : Type} (f : α → β) (l : List γ) (g : γ → List (Rose α)) :
    map f (l.flatMap g) = l.flatMap fun c => map f (g c) := by
  induction l with
  | nil => rfl
  | cons c l ih => rw [List.flatMap_cons, List.flatMap_cons, map_append, ih]

@[simp] theorem isEmpty_map (f : α → β) (ts : List (Rose α)) :
    (map f ts).isEmpty = ts.isEmpty := by
  cases ts <;> rfl

theorem map_branch (f : α → β) (c : Bool) (a : α) (ts : List (Rose α)) :
    map f (if c then [] else [node a ts]) = if c then [] else [node (f a) (map f ts)] := by
  cases c <;> rfl

theorem map_label_map (f : α → β) (ts : List (Rose α)) :
    (map f ts).map label = (ts.map label).map f := by
  rw [map_eq, List.map_map, List.map_map]
  exact List.map_congr_left fun t _ => by cases t; rfl

/-- The trees within, with other labels. -/
theorem Sub.of_map {f : α → β} {ts : List (Rose α)} {u : Rose β} (h : Sub (map f ts) u) :
    ∃ t, Sub ts t ∧ u = mapTree f t := by
  induction h with
  | root hu =>
    rw [map_eq] at hu
    obtain ⟨t, ht, rfl⟩ := List.mem_map.mp hu
    exact ⟨t, .root ht, rfl⟩
  | down _ hu ih =>
    obtain ⟨⟨a, children⟩, hsub, heq⟩ := ih
    cases heq
    rw [map_eq] at hu
    obtain ⟨t, ht, rfl⟩ := List.mem_map.mp hu
    exact ⟨t, hsub.down ht, rfl⟩

mutual

theorem Sub.exists_of_tree {forest : List (Rose α)} {a : α} :
    ∀ t : Rose α, Sub forest t → a ∈ treeLabels t → ∃ below, Sub forest (node a below)
  | node b children, h, ha => by
    rw [treeLabels, List.mem_cons] at ha
    rcases ha with rfl | ha
    · exact ⟨children, h⟩
    · exact Sub.exists_of_forest children (fun t ht => h.down ht) ha

theorem Sub.exists_of_forest {forest : List (Rose α)} {a : α} :
    ∀ ts : List (Rose α), (∀ t ∈ ts, Sub forest t) → a ∈ labels ts →
      ∃ below, Sub forest (node a below)
  | [], _, ha => absurd ha List.not_mem_nil
  | t :: ts, h, ha => by
    rw [labels, List.mem_append] at ha
    rcases ha with ha | ha
    · exact Sub.exists_of_tree t (h t List.mem_cons_self) ha
    · exact Sub.exists_of_forest ts (fun u hu => h u (List.mem_cons_of_mem t hu)) ha

end

/-- What is in a tree within is in the forest. -/
theorem Sub.subset {forest : List (Rose α)} {t : Rose α} (h : Sub forest t) :
    treeLabels t ⊆ labels forest := by
  have hmem : ∀ (ts : List (Rose α)) (u : Rose α), u ∈ ts → treeLabels u ⊆ labels ts := by
    intro ts u hu a ha
    induction ts with
    | nil => cases hu
    | cons t ts ih =>
      rw [labels, List.mem_append]
      rcases List.mem_cons.mp hu with rfl | hu
      · exact .inl ha
      · exact .inr (ih hu)
  induction h with
  | root ht => exact hmem _ _ ht
  | down _ ht ih => exact fun a ha => ih (List.mem_cons_of_mem _ (hmem _ _ ht ha))

/-- A label is at the root of a tree within. -/
theorem Sub.exists_of_mem {forest : List (Rose α)} {a : α} (h : a ∈ labels forest) :
    ∃ below, Sub forest (node a below) :=
  Sub.exists_of_forest forest (fun _ ht => .root ht) h

end Lists

/-! ### Growing -/

section Grow

variable (children : κ → List α) (key : α → κ) (drop : α → Bool)

/-- The forest below a key, as deep as there is fuel for.  A node that may be dropped is, if there
is nothing below it. -/
def grow : ℕ → κ → List (Rose α)
  | 0, _ => []
  | fuel + 1, i => (children i).flatMap fun a =>
      let below := grow fuel (key a)
      if drop a && below.isEmpty then [] else [node a below]

attribute [local simp] grow

/-- The rule goes on for some steps. -/
def Deep : ℕ → κ → Prop
  | 0, _ => True
  | n + 1, i => ∃ a ∈ children i, Deep n (key a)

/-- Where the rule leads. -/
inductive Reach : κ → α → Prop
  | here {i : κ} {a : α} (ha : a ∈ children i) : Reach i a
  | down {i : κ} {a b : α} (hb : b ∈ children i) (ha : Reach (key b) a) : Reach i a

variable {children key drop} {i : κ} {a b : α} {fuel : ℕ} {t : Rose α}

theorem reach_iff : Reach children key i a ↔
    ∃ b ∈ children i, a = b ∨ Reach children key (key b) a := by
  constructor
  · rintro (ha | ⟨hb, ha⟩)
    · exact ⟨a, ha, .inl rfl⟩
    · exact ⟨_, hb, .inr ha⟩
  · rintro ⟨b, hb, rfl | ha⟩
    · exact .here hb
    · exact .down hb ha

/-- The labels of a tree that may be dropped. -/
theorem labels_branch (c : Bool) (ts : List (Rose α)) :
    labels (if c then [] else [node a ts]) = if c then [] else a :: labels ts := by
  cases c with
  | true => rfl
  | false => exact labels_singleton _

theorem mem_branch {c : Bool} {ts : List (Rose α)}
    (h : b ∈ labels (if c then [] else [node a ts])) : b = a ∨ b ∈ labels ts := by
  rw [labels_branch] at h
  split at h
  · cases h
  · exact List.mem_cons.mp h

/-- The trees that are grown. -/
theorem mem_grow : t ∈ grow children key drop (fuel + 1) i ↔
    ∃ a ∈ children i, t = node a (grow children key drop fuel (key a)) ∧
      (drop a = false ∨ grow children key drop fuel (key a) ≠ []) := by
  rw [grow, List.mem_flatMap]
  refine exists_congr fun a => and_congr_right fun _ => ?_
  cases hdrop : drop a <;> cases hgrow : grow children key drop fuel (key a) <;> simp

theorem mem_labels_grow_succ : a ∈ labels (grow children key drop (fuel + 1) i) ↔
    ∃ b ∈ children i, (drop b = false ∨ grow children key drop fuel (key b) ≠ []) ∧
      (a = b ∨ a ∈ labels (grow children key drop fuel (key b))) := by
  rw [grow, labels_flatMap, List.mem_flatMap]
  refine exists_congr fun b => and_congr_right fun _ => ?_
  cases hdrop : drop b <;> cases hgrow : grow children key drop fuel (key b) <;>
    simp [labels, treeLabels]

theorem Reach.trans (hb : Reach children key i b) (ha : Reach children key (key b) a) :
    Reach children key i a := by
  induction hb with
  | here hb => exact .down hb ha
  | down hc _ ih => exact .down hc (ih ha)

/-- What is grown is where the rule leads. -/
theorem reach_of_mem (h : a ∈ labels (grow children key drop fuel i)) :
    Reach children key i a := by
  induction fuel generalizing i with
  | zero => cases h
  | succ fuel ih =>
    obtain ⟨b, hb, -, rfl | ha⟩ := mem_labels_grow_succ.mp h
    · exact .here hb
    · exact .down hb (ih ha)

theorem not_deep_of_mem (hdeep : ¬Deep children key (fuel + 1) i) (ha : a ∈ children i) :
    ¬Deep children key fuel (key a) :=
  fun h => hdeep ⟨a, ha, h⟩

/-- More fuel does not matter once it is enough. -/
theorem grow_of_le {fuel' : ℕ} (hdeep : ¬Deep children key fuel i) (hle : fuel ≤ fuel') :
    grow children key drop fuel' i = grow children key drop fuel i := by
  induction fuel generalizing i fuel' with
  | zero => exact absurd trivial hdeep
  | succ fuel ih =>
    obtain ⟨k, rfl⟩ := Nat.exists_eq_add_of_lt hle
    rw [grow, grow]
    refine List.flatMap_congr fun a ha => ?_
    rw [ih (not_deep_of_mem hdeep ha) (by omega)]

/-- There is a forest if the rule leads to a node that is not dropped. -/
theorem grow_ne_nil (hdeep : ¬Deep children key fuel i) : grow children key drop fuel i ≠ [] ↔
    ∃ d, Reach children key i d ∧ drop d = false := by
  induction fuel generalizing i with
  | zero => exact absurd trivial hdeep
  | succ fuel ih =>
    constructor
    · intro h
      obtain ⟨t, ht⟩ := List.exists_mem_of_ne_nil _ h
      obtain ⟨a, ha, -, hdrop | hgrow⟩ := mem_grow.mp ht
      · exact ⟨a, .here ha, hdrop⟩
      · obtain ⟨d, hd, hdrop⟩ := (ih (not_deep_of_mem hdeep ha)).mp hgrow
        exact ⟨d, .down ha hd, hdrop⟩
    · rintro ⟨d, hd, hdrop⟩
      obtain ⟨a, ha, rfl | hd⟩ := reach_iff.mp hd
      · exact List.ne_nil_of_mem (mem_grow.mpr ⟨d, ha, rfl, .inl hdrop⟩)
      · have hgrow := (ih (not_deep_of_mem hdeep ha)).mpr ⟨d, hd, hdrop⟩
        exact List.ne_nil_of_mem (mem_grow.mpr ⟨a, ha, rfl, .inr hgrow⟩)

/-- A label is grown exactly if the rule leads to it, and it is not dropped or the rule leads on
to one that is not. -/
theorem mem_labels_grow (hdeep : ¬Deep children key fuel i) :
    a ∈ labels (grow children key drop fuel i) ↔ Reach children key i a ∧
      (drop a = false ∨ ∃ d, Reach children key (key a) d ∧ drop d = false) := by
  induction fuel generalizing i with
  | zero => exact absurd trivial hdeep
  | succ fuel ih =>
    rw [mem_labels_grow_succ, reach_iff]
    constructor
    · rintro ⟨b, hb, hkept, rfl | ha⟩
      · exact ⟨⟨a, hb, .inl rfl⟩, hkept.imp_right (grow_ne_nil (not_deep_of_mem hdeep hb)).mp⟩
      · obtain ⟨hreach, hkept⟩ := (ih (not_deep_of_mem hdeep hb)).mp ha
        exact ⟨⟨b, hb, .inr hreach⟩, hkept⟩
    · rintro ⟨⟨b, hb, rfl | ha⟩, hkept⟩
      · exact ⟨a, hb, hkept.imp_right (grow_ne_nil (not_deep_of_mem hdeep hb)).mpr, .inl rfl⟩
      · have hmem := (ih (not_deep_of_mem hdeep hb)).mpr ⟨ha, hkept⟩
        refine ⟨b, hb, .inr fun hnil => ?_, .inr hmem⟩
        rw [hnil] at hmem
        cases hmem

/-- The labels at the top are children, in their order. -/
theorem map_label_grow (children : κ → List α) (key : α → κ) (drop : α → Bool) (fuel : ℕ) (i : κ) :
    ((grow children key drop fuel i).map label).Sublist (children i) := by
  cases fuel with
  | zero => exact List.nil_sublist _
  | succ fuel =>
    rw [grow]
    induction children i with
    | nil => exact List.nil_sublist _
    | cons a l ih =>
      rw [List.flatMap_cons, List.map_append]
      by_cases hdrop : (drop a && (grow children key drop fuel (key a)).isEmpty) = true
      · simpa [hdrop] using ih.cons a
      · simpa [hdrop, label] using ih

/-- If nothing is dropped, they are all the children. -/
theorem map_label_grow_keep (hkeep : ∀ a, drop a = false) (hdeep : ¬Deep children key fuel i) :
    (grow children key drop fuel i).map label = children i := by
  cases fuel with
  | zero => exact absurd trivial hdeep
  | succ fuel =>
    rw [grow]
    induction children i with
    | nil => rfl
    | cons a l ih => simpa [hkeep, label] using ih

/-- The trees within are grown too. -/
theorem Sub.of_grow {below : List (Rose α)}
    (h : Sub (grow children key drop fuel i) (node a below)) :
    ∃ fuel', below = grow children key drop fuel' (key a) ∧ (drop a = false ∨ below ≠ []) ∧
      (¬Deep children key fuel i → ¬Deep children key fuel' (key a)) := by
  generalize ht : node a below = t at h
  induction h generalizing a below with
  | root hmem =>
    cases fuel with
    | zero => cases hmem
    | succ fuel =>
      obtain ⟨b, hb, rfl, hkept⟩ := mem_grow.mp hmem
      cases ht
      exact ⟨fuel, rfl, hkept, fun hdeep => not_deep_of_mem hdeep hb⟩
  | down _ hmem ih =>
    obtain ⟨fuel', rfl, -, hdeep'⟩ := ih rfl
    cases fuel' with
    | zero => cases hmem
    | succ fuel' =>
      obtain ⟨b, hb, rfl, hkept⟩ := mem_grow.mp hmem
      cases ht
      exact ⟨fuel', rfl, hkept, fun hdeep => not_deep_of_mem (hdeep' hdeep) hb⟩

end Grow

/-! ### Growing along parent links -/

section ParentLinks

open Forest

variable {key : α → κ} {parent : α → Option κ} {nodes : List α}

/-- The rule gives the nodes by their parents. -/
structure ByParent (key : α → κ) (parent : α → Option κ) (nodes : List α)
    (children : Option κ → List α) : Prop where
  keys : (nodes.map key).Nodup
  nodup : ∀ p, (children p).Nodup
  mem : ∀ {p a}, a ∈ children p ↔ a ∈ nodes ∧ parent a = p

/-- The nodes above those with this parent. -/
inductive Above (key : α → κ) (parent : α → Option κ) (nodes : List α) :
    Option κ → List α → Prop
  | root : Above key parent nodes none []
  | node {a : α} {chain : List α} (h : Chain key parent nodes a chain) :
      Above key parent nodes (some (key a)) chain

variable {children : Option κ → List α} {drop : α → Bool} {fuel : ℕ} {p : Option κ} {a b : α}
  {above chain : List α}

theorem Above.snoc (h : Above key parent nodes p above) (ha : a ∈ nodes) (hparent : parent a = p) :
    Chain key parent nodes a (above ++ [a]) := by
  cases h with
  | root => exact .root ha hparent
  | node hchain => exact .child ha hparent hchain

theorem Above.length_le (hkey : (nodes.map key).Nodup) (h : Above key parent nodes p above) :
    above.length ≤ nodes.length := by
  cases h with
  | root => exact Nat.zero_le _
  | node hchain => exact hchain.length_le hkey

namespace ByParent

/-- The order of the children does not matter. -/
theorem of_perm {children' : Option κ → List α} (h : ByParent key parent nodes children)
    (hperm : ∀ p, (children' p).Perm (children p)) : ByParent key parent nodes children' where
  keys := h.keys
  nodup p := (hperm p).nodup_iff.mpr (h.nodup p)
  mem := (hperm _).mem_iff.trans h.mem

/-- Where the rule leads, the chain goes on. -/
theorem chain_of_reach (h : ByParent key parent nodes children)
    (hreach : Reach children (fun a => some (key a)) p a)
    (habove : Above key parent nodes p above) :
    ∃ b below, Chain key parent nodes a (above ++ b :: below) := by
  induction hreach generalizing above with
  | here ha => exact ⟨_, [], habove.snoc (h.mem.mp ha).1 (h.mem.mp ha).2⟩
  | down hb _ ih =>
    obtain ⟨c, below, hchain⟩ := ih (.node (habove.snoc (h.mem.mp hb).1 (h.mem.mp hb).2))
    rw [List.append_assoc] at hchain
    exact ⟨_, c :: below, hchain⟩

theorem reach_of_chain (h : ByParent key parent nodes children)
    (hchain : Chain key parent nodes a chain) :
    Reach children (fun a => some (key a)) none a := by
  induction hchain with
  | root ha hparent => exact .here (h.mem.mpr ⟨ha, hparent⟩)
  | child ha hparent _ ih => exact ih.trans (.here (h.mem.mpr ⟨ha, hparent⟩))

/-- From the top the rule leads to what has a chain. -/
theorem reach_iff_chain (h : ByParent key parent nodes children) :
    Reach children (fun a => some (key a)) none a ↔ ∃ chain, Chain key parent nodes a chain := by
  constructor
  · intro hreach
    obtain ⟨b, below, hchain⟩ := h.chain_of_reach hreach .root
    exact ⟨_, hchain⟩
  · rintro ⟨chain, hchain⟩
    exact h.reach_of_chain hchain

/-- As deep as the rule goes, so long a chain is. -/
theorem exists_above_of_deep (h : ByParent key parent nodes children)
    (hdeep : Deep children (fun a => some (key a)) fuel p)
    (habove : Above key parent nodes p above) :
    ∃ q below, Above key parent nodes q below ∧ below.length = above.length + fuel := by
  induction fuel generalizing p above with
  | zero => exact ⟨p, above, habove, rfl⟩
  | succ fuel ih =>
    obtain ⟨a, ha, hdeep⟩ := hdeep
    obtain ⟨q, below, hbelow, hlength⟩ :=
      ih hdeep (.node (habove.snoc (h.mem.mp ha).1 (h.mem.mp ha).2))
    refine ⟨q, below, hbelow, ?_⟩
    rw [hlength, List.length_append, List.length_singleton]
    omega

/-- The rule goes no deeper than there are nodes. -/
theorem not_deep (h : ByParent key parent nodes children) (hfuel : nodes.length < fuel) :
    ¬Deep children (fun a => some (key a)) fuel none := by
  intro hdeep
  obtain ⟨q, below, hbelow, hlength⟩ := h.exists_above_of_deep hdeep .root
  have hle := hbelow.length_le h.keys
  rw [List.length_nil] at hlength
  omega

/-- The tree of a node, if it is kept. -/
theorem chain_of_mem_branch (h : ByParent key parent nodes children)
    (hchain : Chain key parent nodes b (above ++ [b]))
    (ha : a = b ∨ a ∈ labels (grow children (fun a => some (key a)) drop fuel (some (key b)))) :
    ∃ below, Chain key parent nodes a (above ++ b :: below) := by
  rcases ha with rfl | ha
  · exact ⟨[], hchain⟩
  · obtain ⟨c, below, hbelow⟩ := h.chain_of_reach (reach_of_mem ha) (.node hchain)
    rw [List.append_assoc] at hbelow
    exact ⟨c :: below, hbelow⟩

/-- No label is grown twice. -/
theorem nodup_labels_grow (h : ByParent key parent nodes children)
    (habove : Above key parent nodes p above) :
    (labels (grow children (fun a => some (key a)) drop fuel p)).Nodup := by
  induction fuel generalizing p above with
  | zero => exact List.nodup_nil
  | succ fuel ih =>
    have hsnoc : ∀ b ∈ children p, Chain key parent nodes b (above ++ [b]) :=
      fun b hb => habove.snoc (h.mem.mp hb).1 (h.mem.mp hb).2
    rw [grow, labels_flatMap, List.nodup_flatMap]
    constructor
    · intro b hb
      rw [labels_branch]
      split
      · exact List.nodup_nil
      · refine List.nodup_cons.mpr ⟨fun hmem => ?_, ih (.node (hsnoc b hb))⟩
        -- what is below has a longer chain
        obtain ⟨c, below, hbelow⟩ := h.chain_of_reach (reach_of_mem hmem) (.node (hsnoc b hb))
        have hlength := congrArg List.length (hbelow.unique h.keys (hsnoc b hb))
        simp only [List.length_append, List.length_cons] at hlength
        omega
    · refine (h.nodup p).imp_of_mem fun {b c} hb hc hne a hab hac => hne ?_
      -- the chain of a common label would pass through both
      obtain ⟨below, hbelow⟩ := h.chain_of_mem_branch (hsnoc b hb) (mem_branch hab)
      obtain ⟨below', hbelow'⟩ := h.chain_of_mem_branch (hsnoc c hc) (mem_branch hac)
      have htail := List.append_cancel_left (hbelow.unique h.keys hbelow')
      exact (List.cons.inj htail).1

/-- Below a node are its descendants. -/
theorem reach_iff_transGen (h : ByParent key parent nodes children) :
    Reach children (fun a => some (key a)) (some (key b)) a ↔
      Relation.TransGen (Link key parent nodes) b a := by
  constructor
  · intro hreach
    generalize hp : some (key b) = p at hreach
    induction hreach generalizing b with
    | here ha => exact .single ⟨(h.mem.mp ha).1, (h.mem.mp ha).2.trans hp.symm⟩
    | down hc _ ih => exact .head ⟨(h.mem.mp hc).1, (h.mem.mp hc).2.trans hp.symm⟩ (ih rfl)
  · intro hbelow
    induction hbelow with
    | single hlink => exact .here (h.mem.mpr hlink)
    | tail _ hlink ih => exact ih.trans (.here (h.mem.mpr hlink))

end ByParent

end ParentLinks

end Rose
