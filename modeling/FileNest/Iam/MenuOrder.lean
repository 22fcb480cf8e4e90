import FileNest.Iam.Menus
import FileNest.Lib.StableSort

/-!
# The order of a menu

Menu nodes are shown by their stored order, and nodes start with the same one.  To move a node up
or down, the service looks for a sibling with a smaller or greater order and exchanges the two.

## Main definitions

* `MenuTable.listMenuNodes`, `MenuTable.shown` — the nodes of an application, and the siblings
  among them, as they are shown.
* `MenuTable.reorderMenuNode` — the service.
* `MenuTable.MovesByOne` — a node exchanges its place with its neighbour, and nothing else moves.
* `MenuTable.OrdersDiffer` — a node and its neighbours share their orders with no sibling.

## Main results

* `MenuTable.exists_moved_iff` — what a move can do to the orders.
* `MenuTable.movesByOne_iff` — **a node moves by one exactly if neither it nor a neighbour shares
  its order with another sibling.**
-/

namespace FileNest

namespace Iam

open StableSort

/-- The direction of a move. -/
inductive Direction where
  | up
  | down
  deriving DecidableEq

/-- The payload of `reorderMenuNode`. -/
structure ReorderMenuNodePayload where
  nodeId : String
  direction : Direction

namespace MenuTable

variable (t : MenuTable)

/-! ### The service -/

/-- The nodes of an application below a parent. -/
def siblings (appId : String) (parentId : Option String) : List AppMenuNode :=
  t.nodes.filter fun n => n.appId = appId ∧ n.parentId = parentId

/-- `listMenuNodes` -/
def listMenuNodes (appId : String) : List MenuNode :=
  (sorted (·.order) (t.nodes.filter (·.appId = appId))).map t.answer

/-- The siblings below a parent, in the order they are shown. -/
def shown (appId : String) (parentId : Option String) : List String :=
  ((t.listMenuNodes appId).filter (·.parentId = parentId)).map (·.id)

/-- The rows `findFirst` may come upon first. -/
def nearest (current : AppMenuNode) : Direction → List AppMenuNode
  | .up =>
    let found := (t.siblings current.appId current.parentId).filter (·.order < current.order)
    -- `orderBy: { order: "desc" }`
    found.filter fun n => found.all (·.order ≤ n.order)
  | .down =>
    let found := (t.siblings current.appId current.parentId).filter (current.order < ·.order)
    found.filter fun n => found.all (n.order ≤ ·.order)

/-- The rows with the orders of two of them exchanged. -/
def exchanged (current sibling : AppMenuNode) (now : ℕ) : List AppMenuNode :=
  t.nodes.map fun n =>
    if n.id = current.id then { n with order := sibling.order, updatedAt := now }
    else if n.id = sibling.id then { n with order := current.order, updatedAt := now }
    else n

/-- `reorderMenuNode`, which answers `success`; `choice` stands for the row the database comes
upon first, of several with the same order. -/
def reorderMenuNode (payload : ReorderMenuNodePayload) (choice now : ℕ) :
    Except String (MenuTable × Bool) :=
  match t.node payload.nodeId with
  | none => .error "Failed to reorder menu node"
  | some current =>
    let found := t.nearest current payload.direction
    match found[choice % found.length]? with
    -- "boundary, no swap needed"
    | none => .ok (t, true)
    | some sibling =>
      match t.write (t.exchanged current sibling now) with
      | none => .error "Failed to reorder menu node"
      | some t' => .ok (t', true)

/-- The table after a node was moved. -/
def moved (id : String) (direction : Direction) (choice now : ℕ) : MenuTable :=
  t.after (t.reorderMenuNode ⟨id, direction⟩ choice now)

/-- Whatever the database comes upon first: moved up or down, a node exchanges its place with its
neighbour, if it has one there, all others stay in theirs, and moving down undoes moving up. -/
structure MovesByOne (x : AppMenuNode) : Prop where
  up : ∀ A y B choice now, t.shown x.appId x.parentId = A ++ y :: x.id :: B →
    (t.moved x.id .up choice now).shown x.appId x.parentId = A ++ x.id :: y :: B
  down : ∀ A z B choice now, t.shown x.appId x.parentId = A ++ x.id :: z :: B →
    (t.moved x.id .down choice now).shown x.appId x.parentId = A ++ z :: x.id :: B
  first : ∀ B choice now, t.shown x.appId x.parentId = x.id :: B →
    (t.moved x.id .up choice now).shown x.appId x.parentId = x.id :: B
  last : ∀ A choice now, t.shown x.appId x.parentId = A ++ [x.id] →
    (t.moved x.id .down choice now).shown x.appId x.parentId = A ++ [x.id]
  back : ∀ A y B choice now choice' now', t.shown x.appId x.parentId = A ++ y :: x.id :: B →
    ((t.moved x.id .up choice now).moved x.id .down choice' now').shown x.appId x.parentId
      = A ++ y :: x.id :: B

/-- The node, or one that is shown right above or below it. -/
def Beside (x n : AppMenuNode) : Prop :=
  n.id = x.id ∨ ∃ A B, t.shown x.appId x.parentId = A ++ n.id :: x.id :: B ∨
    t.shown x.appId x.parentId = A ++ x.id :: n.id :: B

/-- A node and its neighbours share their orders with no sibling. -/
def OrdersDiffer (x : AppMenuNode) : Prop :=
  ∀ n ∈ t.siblings x.appId x.parentId, t.Beside x n →
    ∀ m ∈ t.siblings x.appId x.parentId, m.order = n.order → m.id = n.id

/-- The order of the row with an id. -/
def orderOf (id : String) : ℤ := ((t.node id).map (·.order)).getD 0

/-! ### What is shown -/

section Shown

variable {t t' : MenuTable} {n x w : AppMenuNode} {appId : String} {parentId : Option String}

theorem mem_siblings : n ∈ t.siblings appId parentId ↔
    n ∈ t.nodes ∧ n.appId = appId ∧ n.parentId = parentId := by
  simp [siblings]

theorem orderOf_of_mem (hn : n ∈ t.nodes) : t.orderOf n.id = n.order := by
  rw [orderOf, node_eq_some.mpr ⟨hn, rfl⟩]
  rfl

/-- Siblings are shown by their orders. -/
theorem shown_eq_sorted :
    t.shown appId parentId = sorted t.orderOf ((t.siblings appId parentId).map (·.id)) := by
  have hnodup : (t.nodes.filter (·.appId = appId)).Nodup :=
    (List.Nodup.of_map _ t.constraints.ids).filter _
  have hanswer : ((t.listMenuNodes appId).filter (·.parentId = parentId)).map (·.id)
      = ((sorted (·.order) (t.nodes.filter (·.appId = appId))).filter
          (·.parentId = parentId)).map (·.id) := by
    rw [listMenuNodes, List.filter_map, List.map_map]
    rfl
  rw [shown, hanswer, filter_sorted hnodup, List.filter_filter]
  have hsiblings : (t.nodes.filter fun n => decide (n.parentId = parentId)
      && decide (n.appId = appId)) = t.siblings appId parentId := by
    refine List.filter_congr fun n _ => ?_
    rw [Bool.and_comm, Bool.decide_and]
  rw [hsiblings]
  exact map_sorted fun n hn => orderOf_of_mem (mem_siblings.mp hn).1

theorem nodup_siblings : ((t.siblings appId parentId).map (·.id)).Nodup :=
  t.constraints.ids.sublist (List.filter_sublist.map _)

end Shown

/-! ### What a move does -/

section Moves

variable {t t' : MenuTable} {n x w : AppMenuNode} {now : ℕ}

theorem mem_nearest_up : w ∈ t.nearest x .up ↔ w ∈ t.siblings x.appId x.parentId ∧
    w.order < x.order ∧
      ∀ m ∈ t.siblings x.appId x.parentId, m.order < x.order → m.order ≤ w.order := by
  simp only [nearest, List.mem_filter, List.all_eq_true, decide_eq_true_eq, and_imp, and_assoc]

theorem mem_nearest_down : w ∈ t.nearest x .down ↔ w ∈ t.siblings x.appId x.parentId ∧
    x.order < w.order ∧
      ∀ m ∈ t.siblings x.appId x.parentId, x.order < m.order → w.order ≤ m.order := by
  simp only [nearest, List.mem_filter, List.all_eq_true, decide_eq_true_eq, and_imp, and_assoc]

/-- The direction of a move, by orders. -/
def Next : Direction → (String → ℤ) → List String → String → String → Prop
  | .up => NextAbove
  | .down => NextBelow

/-- The rows that may be found first are those with the next order. -/
theorem next_iff (hx : x ∈ t.nodes) (direction : Direction) {i : String} :
    Next direction t.orderOf ((t.siblings x.appId x.parentId).map (·.id)) x.id i ↔
      ∃ w ∈ t.nearest x direction, w.id = i := by
  have hmem : ∀ {n}, n ∈ t.siblings x.appId x.parentId → t.orderOf n.id = n.order :=
    fun hn => orderOf_of_mem (mem_siblings.mp hn).1
  have hall : ∀ P : String → ℤ → Prop,
      (∀ i ∈ (t.siblings x.appId x.parentId).map (·.id), P i (t.orderOf i)) ↔
        ∀ n ∈ t.siblings x.appId x.parentId, P n.id n.order := by
    intro P
    rw [List.forall_mem_map]
    exact forall₂_congr fun n hn => by rw [hmem hn]
  cases direction with
  | up =>
    constructor
    · rintro ⟨hi, hlt, hgreatest⟩
      obtain ⟨w, hw, rfl⟩ := List.mem_map.mp hi
      rw [hmem hw, orderOf_of_mem hx] at hlt
      rw [hmem hw, orderOf_of_mem hx] at hgreatest
      refine ⟨w, mem_nearest_up.mpr ⟨hw, hlt, ?_⟩, rfl⟩
      exact (hall fun _ order => order < x.order → order ≤ w.order).mp hgreatest
    · rintro ⟨w, hw, rfl⟩
      obtain ⟨hw, hlt, hgreatest⟩ := mem_nearest_up.mp hw
      refine ⟨List.mem_map_of_mem hw, ?_, ?_⟩
      · rwa [hmem hw, orderOf_of_mem hx]
      · rw [hmem hw, orderOf_of_mem hx]
        exact (hall fun _ order => order < x.order → order ≤ w.order).mpr hgreatest
  | down =>
    constructor
    · rintro ⟨hi, hlt, hleast⟩
      obtain ⟨w, hw, rfl⟩ := List.mem_map.mp hi
      rw [hmem hw, orderOf_of_mem hx] at hlt
      rw [hmem hw, orderOf_of_mem hx] at hleast
      refine ⟨w, mem_nearest_down.mpr ⟨hw, hlt, ?_⟩, rfl⟩
      exact (hall fun _ order => x.order < order → w.order ≤ order).mp hleast
    · rintro ⟨w, hw, rfl⟩
      obtain ⟨hw, hlt, hleast⟩ := mem_nearest_down.mp hw
      refine ⟨List.mem_map_of_mem hw, ?_, ?_⟩
      · rwa [hmem hw, orderOf_of_mem hx]
      · rw [hmem hw, orderOf_of_mem hx]
        exact (hall fun _ order => x.order < order → w.order ≤ order).mpr hleast

theorem mem_siblings_of_nearest {direction : Direction} (hw : w ∈ t.nearest x direction) :
    w ∈ t.siblings x.appId x.parentId := by
  cases direction with
  | up => exact (mem_nearest_up.mp hw).1
  | down => exact (mem_nearest_down.mp hw).1

theorem mem_nodes_of_nearest {direction : Direction} (hw : w ∈ t.nearest x direction) :
    w ∈ t.nodes :=
  (mem_siblings.mp (mem_siblings_of_nearest hw)).1

/-- Of a row, an exchange changes the order and the time of the update. -/
theorem map_exchanged {α : Type} (t : MenuTable) (x w : AppMenuNode) (now : ℕ) (f : AppMenuNode → α)
    (hf : ∀ (n : AppMenuNode) order updatedAt, f { n with order, updatedAt } = f n) :
    (t.exchanged x w now).map f = t.nodes.map f := by
  rw [exchanged, List.map_map]
  refine List.map_congr_left fun n _ => ?_
  simp only [Function.comp_apply]
  split
  · exact hf n _ _
  · split
    · exact hf n _ _
    · rfl

/-- The database takes the exchange. -/
theorem constraints_exchanged (hx : x ∈ t.nodes) (hw : w ∈ t.nodes) :
    MenuConstraints t.apps (t.exchanged x w now) := by
  have hrow : ∀ n ∈ t.exchanged x w now, ∃ m ∈ t.nodes, m.appId = n.appId ∧
      m.parentId = n.parentId ∧ (n.order = m.order ∨ n.order = x.order ∨ n.order = w.order) := by
    intro n hn
    obtain ⟨m, hm, rfl⟩ := List.mem_map.mp hn
    refine ⟨m, hm, ?_⟩
    split
    · exact ⟨rfl, rfl, .inr (.inr rfl)⟩
    · split
      · exact ⟨rfl, rfl, .inr (.inl rfl)⟩
      · exact ⟨rfl, rfl, .inl rfl⟩
  have hids : (t.exchanged x w now).map (·.id) = t.nodes.map (·.id) :=
    map_exchanged t x w now (·.id) fun _ _ _ => rfl
  refine ⟨hids ▸ t.constraints.ids, ?_, fun n hn => ?_, fun n hn p hp => ?_, fun n hn => ?_⟩
  · rw [map_exchanged t x w now (fun n => (n.appId, n.slug)) fun _ _ _ => rfl]
    exact t.constraints.slugs
  · obtain ⟨m, hm, happ, -⟩ := hrow n hn
    exact happ ▸ t.constraints.app m hm
  · obtain ⟨m, hm, -, hparent, -⟩ := hrow n hn
    rw [hids]
    exact t.constraints.parent m hm p (hparent ▸ hp)
  · obtain ⟨m, hm, -, -, horder | horder | horder⟩ := hrow n hn
    · exact horder ▸ t.constraints.order m hm
    · exact horder ▸ t.constraints.order x hx
    · exact horder ▸ t.constraints.order w hw

/-- A move exchanges two orders, or none. -/
theorem moved_cases (hx : x ∈ t.nodes) (direction : Direction) (choice now : ℕ) :
    (∃ w ∈ t.nearest x direction,
        (t.nearest x direction)[choice % (t.nearest x direction).length]? = some w ∧
          (t.moved x.id direction choice now).nodes = t.exchanged x w now) ∨
      t.nearest x direction = [] ∧ t.moved x.id direction choice now = t := by
  have hnode : t.node x.id = some x := node_eq_some.mpr ⟨hx, rfl⟩
  simp only [moved, reorderMenuNode, hnode]
  cases hfound : (t.nearest x direction)[choice % (t.nearest x direction).length]? with
  | none =>
    refine .inr ⟨?_, rfl⟩
    rw [List.getElem?_eq_none_iff] at hfound
    by_contra hne
    exact absurd (Nat.mod_lt choice (List.length_pos_iff.mpr hne)) (not_lt.mpr hfound)
  | some w =>
    have hw := List.mem_of_getElem? hfound
    refine .inl ⟨w, hw, rfl, ?_⟩
    cases hwrite : t.write (t.exchanged x w now) with
    | none =>
      exact absurd (constraints_exchanged hx (mem_nodes_of_nearest hw)) (write_eq_none.mp hwrite)
    | some t' =>
      simp only [hwrite, after]
      exact (write_eq_some hwrite).1

theorem mem_exchanged (x w : AppMenuNode) (now : ℕ) (hn : n ∈ t.nodes) :
    (if n.id = x.id then { n with order := w.order, updatedAt := now }
      else if n.id = w.id then { n with order := x.order, updatedAt := now } else n)
      ∈ t.exchanged x w now :=
  List.mem_map_of_mem hn

/-- The orders are exchanged. -/
theorem orderOf_exchanged (hx : x ∈ t.nodes) (hw : w ∈ t.nodes)
    (ht' : t'.nodes = t.exchanged x w now) :
    t'.orderOf = t.orderOf ∘ Equiv.swap x.id w.id := by
  funext i
  rw [Function.comp_apply]
  by_cases hi : ∃ n ∈ t.nodes, n.id = i
  · obtain ⟨n, hn, rfl⟩ := hi
    have hrow := mem_exchanged x w now hn
    rw [← ht'] at hrow
    by_cases hnx : n.id = x.id
    · rw [if_pos hnx] at hrow
      rw [hnx, Equiv.swap_apply_left, orderOf_of_mem hw, ← hnx]
      exact orderOf_of_mem hrow
    · by_cases hnw : n.id = w.id
      · rw [if_neg hnx, if_pos hnw] at hrow
        rw [hnw, Equiv.swap_apply_right, orderOf_of_mem hx, ← hnw]
        exact orderOf_of_mem hrow
      · rw [if_neg hnx, if_neg hnw] at hrow
        rw [Equiv.swap_apply_of_ne_of_ne hnx hnw, orderOf_of_mem hn, orderOf_of_mem hrow]
  · have hnone : ∀ n ∈ t.nodes, n.id ≠ i := fun n hn heq => hi ⟨n, hn, heq⟩
    have hnone' : ∀ n ∈ t'.nodes, n.id ≠ i := by
      intro n hn heq
      have hid : i ∈ t'.nodes.map (·.id) := heq ▸ List.mem_map_of_mem hn
      rw [ht', map_exchanged t x w now (·.id) fun _ _ _ => rfl] at hid
      obtain ⟨m, hm, hmi⟩ := List.mem_map.mp hid
      exact hnone m hm hmi
    rw [Equiv.swap_apply_of_ne_of_ne (Ne.symm (hnone x hx)) (Ne.symm (hnone w hw)), orderOf,
      orderOf, node_eq_none.mpr hnone, node_eq_none.mpr hnone']

/-- Nothing moves below another parent. -/
theorem map_siblings_exchanged (ht' : t'.nodes = t.exchanged x w now) (appId : String)
    (parentId : Option String) :
    (t'.siblings appId parentId).map (·.id) = (t.siblings appId parentId).map (·.id) := by
  have hpairs := map_exchanged t x w now
    (fun n => (n.id, n.appId, n.parentId)) fun _ _ _ => rfl
  have hids : ∀ nodes : List AppMenuNode,
      (nodes.filter fun n => decide (n.appId = appId ∧ n.parentId = parentId)).map (·.id)
        = ((nodes.map fun n => (n.id, n.appId, n.parentId)).filter
            fun p => decide (p.2.1 = appId ∧ p.2.2 = parentId)).map Prod.fst := by
    intro nodes
    rw [List.filter_map, List.map_map]
    rfl
  rw [siblings, siblings, hids, hids, ht', hpairs]

/-- What a move leaves: the siblings, and the node below its parent. -/
theorem moved_frame (hx : x ∈ t.nodes) (direction : Direction) (choice now : ℕ) :
    (∀ appId parentId, ((t.moved x.id direction choice now).siblings appId parentId).map (·.id)
        = (t.siblings appId parentId).map (·.id)) ∧
      ∃ x' ∈ (t.moved x.id direction choice now).nodes,
        x'.id = x.id ∧ x'.appId = x.appId ∧ x'.parentId = x.parentId := by
  obtain ⟨w, -, -, hnodes⟩ | ⟨-, hsame⟩ := moved_cases hx direction choice now
  · have hrow := mem_exchanged x w now hx
    rw [if_pos rfl, ← hnodes] at hrow
    exact ⟨map_siblings_exchanged hnodes, _, hrow, rfl, rfl, rfl⟩
  · rw [hsame]
    exact ⟨fun _ _ => rfl, x, hx, rfl, rfl, rfl⟩

/-- **What a move can do to the orders.** -/
theorem exists_moved_iff (hx : x ∈ t.nodes) (direction : Direction) (now : ℕ)
    (order : String → ℤ) :
    Moved (Next direction) t.orderOf ((t.siblings x.appId x.parentId).map (·.id)) x.id order ↔
      ∃ choice, (t.moved x.id direction choice now).orderOf = order := by
  constructor
  · rintro (⟨i, hnext, rfl⟩ | ⟨hnone, rfl⟩)
    · obtain ⟨w, hw, rfl⟩ := (next_iff hx direction).mp hnext
      obtain ⟨choice, hchoice, hget⟩ := List.mem_iff_getElem.mp hw
      obtain ⟨w', hw', hget', hnodes⟩ | ⟨hnil, -⟩ := moved_cases hx direction choice now
      · rw [Nat.mod_eq_of_lt hchoice, List.getElem?_eq_getElem hchoice, hget] at hget'
        obtain rfl := Option.some.inj hget'
        exact ⟨choice, orderOf_exchanged hx (mem_nodes_of_nearest hw') hnodes⟩
      · rw [hnil] at hw
        cases hw
    · refine ⟨0, ?_⟩
      obtain ⟨w, hw, -⟩ | ⟨-, hsame⟩ := moved_cases hx direction 0 now
      · exact absurd ((next_iff hx direction).mpr ⟨w, hw, rfl⟩) (hnone w.id)
      · rw [hsame]
  · rintro ⟨choice, rfl⟩
    obtain ⟨w, hw, -, hnodes⟩ | ⟨hnil, hsame⟩ := moved_cases hx direction choice now
    · exact .inl ⟨w.id, (next_iff hx direction).mpr ⟨w, hw, rfl⟩,
        orderOf_exchanged hx (mem_nodes_of_nearest hw) hnodes⟩
    · refine .inr ⟨fun i hnext => ?_, by rw [hsame]⟩
      obtain ⟨w, hw, -⟩ := (next_iff hx direction).mp hnext
      rw [hnil] at hw
      cases hw

/-- What is shown after a move. -/
theorem shown_moved (hx : x ∈ t.nodes) (direction : Direction) (choice now : ℕ) (appId : String)
    (parentId : Option String) :
    (t.moved x.id direction choice now).shown appId parentId
      = sorted (t.moved x.id direction choice now).orderOf
          ((t.siblings appId parentId).map (·.id)) := by
  rw [shown_eq_sorted, (moved_frame hx direction choice now).1]

/-- The siblings of a node below another parent stay where they are. -/
theorem shown_moved_of_ne (hx : x ∈ t.nodes) (direction : Direction) (choice now : ℕ)
    {appId : String} {parentId : Option String}
    (hne : ¬(x.appId = appId ∧ x.parentId = parentId)) :
    (t.moved x.id direction choice now).shown appId parentId = t.shown appId parentId := by
  rw [shown_moved hx, shown_eq_sorted]
  obtain ⟨w, hw, -, hnodes⟩ | ⟨-, hsame⟩ := moved_cases hx direction choice now
  · have hw := mem_siblings.mp (mem_siblings_of_nearest hw)
    rw [orderOf_exchanged hx hw.1 hnodes]
    refine sorted_congr fun i hi => ?_
    obtain ⟨n, hn, rfl⟩ := List.mem_map.mp hi
    obtain ⟨hn, happ, hparent⟩ := mem_siblings.mp hn
    have hother : ∀ m ∈ t.nodes, m.appId = x.appId ∧ m.parentId = x.parentId → n.id ≠ m.id := by
      intro m hm hmx heq
      obtain rfl := List.inj_on_of_nodup_map t.constraints.ids hn hm heq
      exact hne ⟨hmx.1.symm.trans happ, hmx.2.symm.trans hparent⟩
    rw [Function.comp_apply, Equiv.swap_apply_of_ne_of_ne (hother x hx ⟨rfl, rfl⟩)
      (hother w hw.1 hw.2)]
  · rw [hsame]

/-- The move of the service and that of an order, in one direction. -/
theorem forall_moved_iff (hx : x ∈ t.nodes) (direction : Direction) (shown : List String) :
    (∀ choice now, (t.moved x.id direction choice now).shown x.appId x.parentId = shown) ↔
      ∀ order, Moved (Next direction) t.orderOf ((t.siblings x.appId x.parentId).map (·.id)) x.id
        order → sorted order ((t.siblings x.appId x.parentId).map (·.id)) = shown := by
  constructor
  · intro h order hmoved
    obtain ⟨choice, rfl⟩ := (exists_moved_iff hx direction 0 order).mp hmoved
    rw [← shown_moved hx]
    exact h choice 0
  · intro h choice now
    rw [shown_moved hx]
    exact h _ ((exists_moved_iff hx direction now _).mpr ⟨choice, rfl⟩)

/-- The service moves a node by one exactly if its order moves by one. -/
theorem movesByOne_iff_order (hx : x ∈ t.nodes) : t.MovesByOne x ↔
    StableSort.MovesByOne t.orderOf ((t.siblings x.appId x.parentId).map (·.id)) x.id := by
  -- the second of two moves
  have hback : ∀ shown choice now,
      (∀ choice' now', ((t.moved x.id .up choice now).moved x.id .down choice' now').shown x.appId
          x.parentId = shown) ↔
        ∀ order, Moved NextBelow (t.moved x.id .up choice now).orderOf
          ((t.siblings x.appId x.parentId).map (·.id)) x.id order →
            sorted order ((t.siblings x.appId x.parentId).map (·.id)) = shown := by
    intro shown choice now
    obtain ⟨hsiblings, x', hx', hid, happ, hparent⟩ := moved_frame hx .up choice now
    have hsecond := forall_moved_iff hx' .down shown
    rw [hid, happ, hparent, hsiblings] at hsecond
    exact hsecond
  constructor
  · intro h
    refine ⟨fun A y B order hshown => ?_, fun A z B order hshown => ?_, fun B order hshown => ?_,
      fun A order hshown => ?_, fun A y B order₁ order₂ hshown hup hdown => ?_⟩ <;>
      rw [← shown_eq_sorted] at hshown
    · exact (forall_moved_iff hx .up _).mp (fun choice now => h.up A y B choice now hshown) order
    · exact (forall_moved_iff hx .down _).mp
        (fun choice now => h.down A z B choice now hshown) order
    · exact (forall_moved_iff hx .up _).mp (fun choice now => h.first B choice now hshown) order
    · exact (forall_moved_iff hx .down _).mp (fun choice now => h.last A choice now hshown) order
    · obtain ⟨choice, rfl⟩ := (exists_moved_iff hx .up 0 order₁).mp hup
      exact (hback _ choice 0).mp (fun choice' now' => h.back A y B choice 0 choice' now' hshown)
        order₂ hdown
  · intro h
    refine ⟨fun A y B choice now hshown => ?_, fun A z B choice now hshown => ?_,
      fun B choice now hshown => ?_, fun A choice now hshown => ?_,
      fun A y B choice now choice' now' hshown => ?_⟩ <;> rw [shown_eq_sorted] at hshown
    · exact (forall_moved_iff hx .up _).mpr (fun order => h.up A y B order hshown) choice now
    · exact (forall_moved_iff hx .down _).mpr (fun order => h.down A z B order hshown) choice now
    · exact (forall_moved_iff hx .up _).mpr (fun order => h.first B order hshown) choice now
    · exact (forall_moved_iff hx .down _).mpr (fun order => h.last A order hshown) choice now
    · have hup := (exists_moved_iff hx .up now _).mpr ⟨choice, rfl⟩
      exact (hback _ choice now).mpr (fun order₂ => h.back A y B _ order₂ hshown hup) choice' now'

/-- Neither the node nor a neighbour is tied. -/
theorem ordersDiffer_iff (hx : x ∈ t.nodes) : t.OrdersDiffer x ↔
    ApartFromNeighbours t.orderOf ((t.siblings x.appId x.parentId).map (·.id)) x.id := by
  have huntied : ∀ n ∈ t.siblings x.appId x.parentId,
      Untied t.orderOf ((t.siblings x.appId x.parentId).map (·.id)) n.id ↔
        ∀ m ∈ t.siblings x.appId x.parentId, m.order = n.order → m.id = n.id := by
    intro n hn
    unfold Untied
    rw [List.forall_mem_map]
    refine forall₂_congr fun m hm => ?_
    rw [orderOf_of_mem (mem_siblings.mp hm).1, orderOf_of_mem (mem_siblings.mp hn).1]
  have hself : x ∈ t.siblings x.appId x.parentId := mem_siblings.mpr ⟨hx, rfl, rfl⟩
  have hmem : ∀ i, i ∈ t.shown x.appId x.parentId →
      ∃ n ∈ t.siblings x.appId x.parentId, n.id = i := by
    intro i hi
    rw [shown_eq_sorted, mem_sorted] at hi
    exact List.mem_map.mp hi
  constructor
  · intro h
    refine ⟨(huntied x hself).mpr (h x hself (.inl rfl)), fun A y B hshown => ?_,
      fun A z B hshown => ?_⟩ <;> rw [← shown_eq_sorted] at hshown
    · obtain ⟨n, hn, rfl⟩ := hmem y (by simp [hshown])
      exact (huntied n hn).mpr (h n hn (.inr ⟨A, B, .inl hshown⟩))
    · obtain ⟨n, hn, rfl⟩ := hmem z (by simp [hshown])
      exact (huntied n hn).mpr (h n hn (.inr ⟨A, B, .inr hshown⟩))
  · intro h n hn hbeside
    rw [← huntied n hn]
    obtain hid | ⟨A, B, hshown | hshown⟩ := hbeside
    · rw [hid]
      exact h.self
    · exact h.above A n.id B (by rw [← shown_eq_sorted, hshown])
    · exact h.below A n.id B (by rw [← shown_eq_sorted, hshown])

/-- **A node moves by one exactly if neither it nor a neighbour shares its order with another
sibling.** -/
theorem movesByOne_iff (hx : x ∈ t.nodes) : t.MovesByOne x ↔ t.OrdersDiffer x := by
  rw [movesByOne_iff_order hx, ordersDiffer_iff hx]
  exact StableSort.movesByOne_iff_apart nodup_siblings
    (List.mem_map_of_mem (mem_siblings.mpr ⟨hx, rfl, rfl⟩))

end Moves

end MenuTable

/-- A second node beside the group `staffGroup`. -/
def leaveItem (order : Option ℤ) : CreateMenuNodePayload :=
  { staffGroup with label := "Leave", slug := "leave", type := none, order }

/-- A menu of the two. -/
def twoNodes (order : Option ℤ) : MenuTable :=
  ((MenuTable.empty ["hr"]).step (.createMenuNode staffGroup "n1" 1)).step
    (.createMenuNode (leaveItem order) "n2" 2)

/-- With an order of its own, the second node moves by one. -/
theorem movesByOne_leave : (twoNodes (some 1)).MovesByOne ((leaveItem (some 1)).node "n2" 2) := by
  refine (MenuTable.movesByOne_iff ?_).mpr fun n hn _ m hm => ?_
  · decide
  · have hdiffer : ∀ n ∈ (twoNodes (some 1)).siblings "hr" none,
        ∀ m ∈ (twoNodes (some 1)).siblings "hr" none, m.order = n.order → m.id = n.id := by decide
    exact hdiffer n hn m hm

/-- With the order nodes start with, it stays where it is. -/
theorem default_orders_stay :
    (twoNodes none).shown "hr" none = ["n1", "n2"] ∧
      ((twoNodes none).moved "n2" .up 0 3).shown "hr" none = ["n1", "n2"] ∧
      ¬∀ (t : MenuTable), ∀ x ∈ t.nodes, t.MovesByOne x := by
  have hbefore : (twoNodes none).shown "hr" none = ["n1", "n2"] := by decide
  have hafter : ((twoNodes none).moved "n2" .up 0 3).shown "hr" none = ["n1", "n2"] := by decide
  refine ⟨hbefore, hafter, fun h => ?_⟩
  have hmoves := h (twoNodes none) ((leaveItem none).node "n2" 2) (by decide)
  have hup := hmoves.up [] "n1" [] 0 3 hbefore
  exact absurd (hafter.symm.trans hup) (by decide)

end Iam

end FileNest
