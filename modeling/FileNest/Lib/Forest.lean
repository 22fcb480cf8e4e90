import Mathlib.Data.Fintype.Card
import Mathlib.Data.List.Nodup
import Mathlib.Data.List.Perm.Subperm
import Mathlib.Data.Set.Finite.Basic
import Mathlib.Logic.Relation
import Mathlib.Order.Nat

/-!
# Forests of parent links

A list of nodes, each with a key and the key of its parent, if it has one.  When a rank
grows along every link, following the links from a node leads to a root in finitely many
steps and meets no node twice.

## Main definitions

* `Chain` — the nodes from a root down to a node.
* `Linked` — every parent is there, with a smaller rank.
* `Link`, `Acyclic` — a node is a child of another; no node is its own descendant.

## Main results

* `exists_chain` — **every node has a chain.**
* `Chain.nodup_keys` — it has no cycle.
* `Chain.unique`, `Chain.nodup` — a node has one chain at most, and no node is on it twice, whatever
  the links are.
-/

namespace Forest

variable {α ι : Type} (key : α → ι) (parent : α → Option ι) (nodes : List α)

/-- The nodes from a root down to a node. -/
inductive Chain : α → List α → Prop
  | root {a : α} (ha : a ∈ nodes) (hparent : parent a = none) : Chain a [a]
  | child {a b : α} {chain : List α} (ha : a ∈ nodes) (hparent : parent a = some (key b))
      (hchain : Chain b chain) : Chain a (chain ++ [a])

/-- Every parent is there, with a smaller rank. -/
def Linked (rank : α → ℕ) : Prop :=
  ∀ a ∈ nodes, ∀ i, parent a = some i → ∃ b ∈ nodes, key b = i ∧ rank b < rank a

variable {key parent nodes} {rank : α → ℕ} {a : α} {chain : List α}

/-- Following the links from a node leads to a root. -/
theorem exists_chain (h : Linked key parent nodes rank) (ha : a ∈ nodes) :
    ∃ chain, Chain key parent nodes a chain := by
  -- induction on the rank
  induction hn : rank a using Nat.strong_induction_on generalizing a with
  | _ n ih =>
    cases hparent : parent a with
    | none => exact ⟨[a], .root ha hparent⟩
    | some i =>
      obtain ⟨b, hb, rfl, hlt⟩ := h a ha i hparent
      obtain ⟨chain, hchain⟩ := ih (rank b) (hn ▸ hlt) hb rfl
      exact ⟨chain ++ [a], .child ha hparent hchain⟩

theorem Chain.mem_nodes (h : Chain key parent nodes a chain) : a ∈ nodes := by
  cases h with
  | root ha _ => exact ha
  | child ha _ _ => exact ha

theorem Chain.subset_nodes (h : Chain key parent nodes a chain) : ∀ b ∈ chain, b ∈ nodes := by
  induction h with
  | root ha _ =>
    intro b hb
    rwa [List.mem_singleton.mp hb]
  | child ha _ _ ih =>
    intro b hb
    rcases List.mem_append.mp hb with hb | hb
    · exact ih b hb
    · rwa [List.mem_singleton.mp hb]

/-- The parent of a node has a smaller rank. -/
theorem Linked.rank_lt (hkey : (nodes.map key).Nodup) (h : Linked key parent nodes rank)
    {b : α} (ha : a ∈ nodes) (hb : b ∈ nodes) (hparent : parent a = some (key b)) :
    rank b < rank a := by
  obtain ⟨c, hc, hcb, hlt⟩ := h a ha _ hparent
  rwa [List.inj_on_of_nodup_map hkey hc hb hcb] at hlt

theorem Chain.rank_le (hkey : (nodes.map key).Nodup) (hlinked : Linked key parent nodes rank)
    (h : Chain key parent nodes a chain) : ∀ b ∈ chain, rank b ≤ rank a := by
  induction h with
  | root _ _ =>
    intro b hb
    exact le_of_eq (congrArg rank (List.mem_singleton.mp hb))
  | child ha hparent hchain ih =>
    have hlt := hlinked.rank_lt hkey ha hchain.mem_nodes hparent
    intro b hb
    rcases List.mem_append.mp hb with hb | hb
    · exact le_trans (ih b hb) (le_of_lt hlt)
    · exact le_of_eq (congrArg rank (List.mem_singleton.mp hb))

/-- Ranks grow from the root down. -/
theorem Chain.pairwise_rank (hkey : (nodes.map key).Nodup)
    (hlinked : Linked key parent nodes rank) (h : Chain key parent nodes a chain) :
    chain.Pairwise fun b c => rank b < rank c := by
  induction h with
  | root _ _ => exact List.pairwise_singleton _ _
  | child ha hparent hchain ih =>
    have hlt := hlinked.rank_lt hkey ha hchain.mem_nodes hparent
    refine List.pairwise_append.mpr ⟨ih, List.pairwise_singleton _ _, fun b hb c hc => ?_⟩
    rw [List.mem_singleton.mp hc]
    exact lt_of_le_of_lt (hchain.rank_le hkey hlinked b hb) hlt

/-- A chain has no cycle. -/
theorem Chain.nodup_keys (hkey : (nodes.map key).Nodup)
    (hlinked : Linked key parent nodes rank) (h : Chain key parent nodes a chain) :
    (chain.map key).Nodup := by
  rw [List.Nodup, List.pairwise_map]
  refine (h.pairwise_rank hkey hlinked).imp_of_mem fun {b c} hb hc hlt heq => ?_
  rw [List.inj_on_of_nodup_map hkey (h.subset_nodes b hb) (h.subset_nodes c hc) heq] at hlt
  exact lt_irrefl _ hlt

/-! ### Chains among links of any kind -/

variable {b : α} {chain' : List α}

/-- A node has one chain at most. -/
theorem Chain.unique (hkey : (nodes.map key).Nodup) (h : Chain key parent nodes a chain)
    (h' : Chain key parent nodes a chain') : chain = chain' := by
  induction h generalizing chain' with
  | root _ hparent =>
    cases h' with
    | root _ _ => rfl
    | child _ hparent' _ =>
      rw [hparent] at hparent'
      cases hparent'
  | child _ hparent hchain ih =>
    cases h' with
    | root _ hparent' =>
      rw [hparent] at hparent'
      cases hparent'
    | child _ hparent' hchain' =>
      obtain rfl := List.inj_on_of_nodup_map hkey hchain.mem_nodes hchain'.mem_nodes
        (Option.some.inj (hparent.symm.trans hparent'))
      rw [ih hchain']

/-- What is on a chain has its own chain in front. -/
theorem Chain.exists_prefix (h : Chain key parent nodes a chain) (hb : b ∈ chain) :
    ∃ above below, chain = above ++ below ∧ Chain key parent nodes b above := by
  induction h with
  | root ha hparent =>
    obtain rfl := List.mem_singleton.mp hb
    exact ⟨[b], [], rfl, .root ha hparent⟩
  | child ha hparent hchain ih =>
    obtain hb | hb := List.mem_append.mp hb
    · obtain ⟨above, below, rfl, habove⟩ := ih hb
      exact ⟨above, below ++ [_], List.append_assoc _ _ _, habove⟩
    · obtain rfl := List.mem_singleton.mp hb
      exact ⟨_, [], (List.append_nil _).symm, .child ha hparent hchain⟩

/-- No node is on a chain twice. -/
theorem Chain.nodup (hkey : (nodes.map key).Nodup) (h : Chain key parent nodes a chain) :
    chain.Nodup := by
  induction h with
  | root _ _ => exact List.nodup_singleton _
  | child ha hparent hchain ih =>
    refine List.nodup_append.mpr ⟨ih, List.nodup_singleton _, fun b hb c hc heq => ?_⟩
    rw [List.mem_singleton.mp hc] at heq
    -- it would have a shorter chain
    obtain ⟨above, below, rfl, habove⟩ := hchain.exists_prefix (heq ▸ hb)
    have hlength := congrArg List.length (habove.unique hkey (.child ha hparent hchain))
    rw [List.length_append, List.length_append, List.length_singleton] at hlength
    omega

/-- A chain is no longer than the list. -/
theorem Chain.length_le (hkey : (nodes.map key).Nodup) (h : Chain key parent nodes a chain) :
    chain.length ≤ nodes.length :=
  ((h.nodup hkey).subperm fun b hb => h.subset_nodes b hb).length_le

/-! ### Descendants -/

/-- A node is a child of another. -/
def Link (key : α → ι) (parent : α → Option ι) (nodes : List α) (b a : α) : Prop :=
  a ∈ nodes ∧ parent a = some (key b)

theorem mem_of_transGen (h : Relation.TransGen (Link key parent nodes) b a) : a ∈ nodes := by
  cases h with
  | single hlink => exact hlink.1
  | tail _ hlink => exact hlink.1

/-- Fewer nodes, fewer descendants. -/
theorem transGen_of_subset {kept : List α} (hsub : kept ⊆ nodes)
    (h : Relation.TransGen (Link key parent kept) b a) :
    Relation.TransGen (Link key parent nodes) b a :=
  Relation.TransGen.mono (fun _ _ hlink => ⟨hsub hlink.1, hlink.2⟩) _ _ h

/-- A descendant that has a chain among the nodes that are kept is a descendant among them. -/
theorem Chain.transGen {kept : List α} (hkey : (nodes.map key).Nodup) (hsub : kept ⊆ nodes)
    (h : Relation.TransGen (Link key parent nodes) b a)
    (hchain : Chain key parent kept a chain) :
    Relation.TransGen (Link key parent kept) b a := by
  induction h generalizing chain with
  | single hlink => exact .single ⟨hchain.mem_nodes, hlink.2⟩
  | tail hbelow hlink ih =>
    cases hchain with
    | root _ hparent =>
      rw [hlink.2] at hparent
      cases hparent
    | child ha hparent hchain =>
      obtain rfl := List.inj_on_of_nodup_map hkey (mem_of_transGen hbelow)
        (hsub hchain.mem_nodes) (Option.some.inj (hlink.2.symm.trans hparent))
      exact (ih hchain).tail ⟨ha, hparent⟩

/-! ### No cycles -/

/-- No node is its own descendant. -/
def Acyclic (key : α → ι) (parent : α → Option ι) (nodes : List α) : Prop :=
  ∀ a, ¬Relation.TransGen (Link key parent nodes) a a

/-- Fewer links, fewer cycles. -/
theorem Acyclic.of_imp {parent' : α → Option ι} (h : Acyclic key parent nodes)
    (himp : ∀ a i, parent' a = some i → parent a = some i) : Acyclic key parent' nodes :=
  fun a hcycle => h a
    (Relation.TransGen.mono (fun _ _ hlink => ⟨hlink.1, himp _ _ hlink.2⟩) _ _ hcycle)

/-- A rank of the keys that grows along every link rules out cycles. -/
theorem acyclic_of_rank (rank : ι → ℕ)
    (h : ∀ a ∈ nodes, ∀ i ∈ parent a, rank i < rank (key a)) : Acyclic key parent nodes := by
  have hlt : ∀ a b, Relation.TransGen (Link key parent nodes) b a →
      rank (key b) < rank (key a) := by
    intro a b hbelow
    induction hbelow with
    | single hlink => exact h _ hlink.1 _ hlink.2
    | tail _ hlink ih => exact ih.trans (h _ hlink.1 _ hlink.2)
  exact fun a hcycle => lt_irrefl _ (hlt a a hcycle)

/-- Without cycles the descendants are well-founded. -/
theorem Acyclic.wellFounded (h : Acyclic key parent nodes) :
    WellFounded fun a b : {a // a ∈ nodes} => Link key parent nodes a b := by
  have hfinite : Finite {a // a ∈ nodes} := (List.finite_toSet nodes).to_subtype
  have htrans : IsTrans {a // a ∈ nodes} fun a b =>
      Relation.TransGen (Link key parent nodes) a.1 b.1 := ⟨fun _ _ _ => .trans⟩
  have hirrefl : Std.Irrefl fun a b : {a // a ∈ nodes} =>
      Relation.TransGen (Link key parent nodes) a.1 b.1 := ⟨fun a => h a.1⟩
  exact Subrelation.wf (fun hlink => Relation.TransGen.single hlink)
    (Finite.wellFounded_of_trans_of_irrefl fun a b : {a // a ∈ nodes} =>
      Relation.TransGen (Link key parent nodes) a.1 b.1)

/-- Without cycles, following the links from a node leads to a root. -/
theorem Acyclic.exists_chain (h : Acyclic key parent nodes)
    (hparent : ∀ a ∈ nodes, ∀ i, parent a = some i → ∃ b ∈ nodes, key b = i) (ha : a ∈ nodes) :
    ∃ chain, Chain key parent nodes a chain := by
  suffices hall : ∀ a : {a // a ∈ nodes}, ∃ chain, Chain key parent nodes a.1 chain from
    hall ⟨a, ha⟩
  intro a
  induction a using h.wellFounded.induction with
  | _ a ih =>
    cases hp : parent a.1 with
    | none => exact ⟨[a.1], .root a.2 hp⟩
    | some i =>
      obtain ⟨b, hb, rfl⟩ := hparent a.1 a.2 i hp
      obtain ⟨chain, hchain⟩ := ih ⟨b, hb⟩ ⟨a.2, hp⟩
      exact ⟨chain ++ [a.1], .child a.2 hp hchain⟩

end Forest
