import FileNest.Iam.ActiveOrganization
import FileNest.Lib.Reparent
import FileNest.Lib.Trace

/-!
# The menus of an application

Every application has a menu, a forest of nodes that name their parents.  An administrator adds
nodes, changes them and removes them.  The database checks that a parent is on record, and
nothing more.

## Main definitions

* `AppMenuNode`, `MenuConstraints`, `MenuTable` — the table and what the database checks of it.
* `MenuTable.createMenuNode`, `MenuTable.updateMenuNode`, `MenuTable.deleteMenuNode` — the service.
* `MenuTable.WellFormed` — from every node up there is a root of its application.
* `KeepsForest` — what a step must meet.

## Main results

* `MenuTable.wellFormed_iff_rooted` — the forest by its ids.
* `forest_kept_iff` — **the forest is well-formed throughout a run exactly if every parent that
is set is a node of the same application, and not one below.**
-/

namespace FileNest

namespace Iam

open Trace Reparent

/-! ### The table -/

/-- `MenuNodeType`. -/
inductive MenuNodeType where
  | group
  | item
  deriving DecidableEq

/-- A row of `AppMenuNode`. -/
structure AppMenuNode where
  id : String
  appId : String
  parentId : Option String
  label : String
  slug : String
  icon : Option String
  href : Option String
  /-- A whole number; the client refuses any other. -/
  order : ℤ
  type : MenuNodeType
  isActive : Bool
  isVisible : Bool
  permissionKeys : List String
  createdAt : ℕ
  updatedAt : ℕ
  deriving DecidableEq

/-- What the database checks: `@id`, `@@unique([appId, slug])`, the two references and the range
of an integer. -/
structure MenuConstraints (apps : List String) (nodes : List AppMenuNode) : Prop where
  ids : (nodes.map (·.id)).Nodup
  slugs : (nodes.map fun n => (n.appId, n.slug)).Nodup
  app : ∀ n ∈ nodes, n.appId ∈ apps
  parent : ∀ n ∈ nodes, ∀ p ∈ n.parentId, p ∈ nodes.map (·.id)
  order : ∀ n ∈ nodes, -2147483648 ≤ n.order ∧ n.order ≤ 2147483647

instance (apps : List String) (nodes : List AppMenuNode) :
    Decidable (MenuConstraints apps nodes) :=
  decidable_of_iff
    ((nodes.map (·.id)).Nodup ∧ (nodes.map fun n => (n.appId, n.slug)).Nodup ∧
      (∀ n ∈ nodes, n.appId ∈ apps) ∧
      (∀ n ∈ nodes, ∀ p ∈ n.parentId, p ∈ nodes.map (·.id)) ∧
      ∀ n ∈ nodes, -2147483648 ≤ n.order ∧ n.order ≤ 2147483647)
    ⟨fun ⟨h₁, h₂, h₃, h₄, h₅⟩ => ⟨h₁, h₂, h₃, h₄, h₅⟩,
      fun h => ⟨h.ids, h.slugs, h.app, h.parent, h.order⟩⟩

/-- The menu nodes of all applications. -/
structure MenuTable where
  /-- The ids of the applications on record. -/
  apps : List String
  nodes : List AppMenuNode
  constraints : MenuConstraints apps nodes

/-- The payload of `createMenuNode`. -/
structure CreateMenuNodePayload where
  appId : String
  parentId : Option String
  label : String
  slug : String
  icon : Option String
  href : Option String
  type : Option MenuNodeType
  order : Option ℤ
  isVisible : Option Bool
  permissionKeys : Option (List String)

/-- The payload of `updateMenuNode`; a parent, an icon and a link may be given as `null`. -/
structure UpdateMenuNodePayload where
  id : String
  parentId : Option (Option String)
  label : Option String
  slug : Option String
  icon : Option (Option String)
  href : Option (Option String)
  type : Option MenuNodeType
  order : Option ℤ
  isActive : Option Bool
  isVisible : Option Bool
  permissionKeys : Option (List String)

/-- The row `createMenuNode` writes; `id` is a `randomUUID`. -/
def CreateMenuNodePayload.node (payload : CreateMenuNodePayload) (id : String) (now : ℕ) :
    AppMenuNode where
  id
  appId := payload.appId
  parentId := payload.parentId
  label := payload.label
  slug := payload.slug
  icon := payload.icon
  href := payload.href
  order := payload.order.getD 0
  type := payload.type.getD .item
  isActive := true
  isVisible := payload.isVisible.getD true
  permissionKeys := payload.permissionKeys.getD []
  createdAt := now
  updatedAt := now

/-- What `updateMenuNode` makes of a row. -/
def UpdateMenuNodePayload.apply (payload : UpdateMenuNodePayload) (now : ℕ) (n : AppMenuNode) :
    AppMenuNode :=
  { n with
    parentId := payload.parentId.getD n.parentId
    -- an empty label or slug is left out
    label := (orNone payload.label).getD n.label
    slug := (orNone payload.slug).getD n.slug
    icon := payload.icon.getD n.icon
    href := payload.href.getD n.href
    order := payload.order.getD n.order
    type := payload.type.getD n.type
    isActive := payload.isActive.getD n.isActive
    isVisible := payload.isVisible.getD n.isVisible
    permissionKeys := payload.permissionKeys.getD n.permissionKeys
    updatedAt := now }

/-- The answer: a row, and the label of its parent. -/
structure MenuNode extends AppMenuNode where
  parentLabel : Option String

/-! ### The service -/

namespace MenuTable

variable (t : MenuTable)

/-- The row with an id. -/
def node (id : String) : Option AppMenuNode := t.nodes.find? (·.id = id)

/-- The parent of the row with an id. -/
def parentOf (id : String) : Option String := (t.node id).bind (·.parentId)

/-- The application of the row with an id. -/
def appOf (id : String) : Option String := (t.node id).map (·.appId)

/-- A write, which the database may refuse. -/
def write (nodes : List AppMenuNode) : Option MenuTable :=
  if h : MenuConstraints t.apps nodes then some ⟨t.apps, nodes, h⟩ else none

/-- The rows with that of the payload changed. -/
def updated (payload : UpdateMenuNodePayload) (now : ℕ) : List AppMenuNode :=
  t.nodes.map fun n => if n.id = payload.id then payload.apply now n else n

/-- `MenuNodeSchema.parseAsync`, of a row with its parent. -/
def answer (n : AppMenuNode) : MenuNode :=
  { n with parentLabel := (n.parentId.bind t.node).map (·.label) }

/-- `createMenuNode` -/
def createMenuNode (payload : CreateMenuNodePayload) (id : String) (now : ℕ) :
    Except String (MenuTable × MenuNode) :=
  match t.write (t.nodes ++ [payload.node id now]) with
  | none => .error "Failed to create menu node"
  | some t' => .ok (t', t'.answer (payload.node id now))

/-- `updateMenuNode` -/
def updateMenuNode (payload : UpdateMenuNodePayload) (now : ℕ) :
    Except String (MenuTable × MenuNode) :=
  match t.node payload.id, t.write (t.updated payload now) with
  | some n, some t' => .ok (t', t'.answer (payload.apply now n))
  | _, _ => .error "Failed to update menu node"

/-- `deleteMenuNode`, which answers `success`. -/
def deleteMenuNode (id : String) : Except String (MenuTable × Bool) :=
  match t.node id, t.write (t.nodes.filter fun n => n.id ≠ id) with
  | some _, some t' => .ok (t', true)
  | _, _ => .error "Failed to delete menu node"

end MenuTable

/-- A call of the service. -/
inductive MenuEvent where
  | createMenuNode (payload : CreateMenuNodePayload) (id : String) (now : ℕ)
  | updateMenuNode (payload : UpdateMenuNodePayload) (now : ℕ)
  | deleteMenuNode (id : String)

/-- The table after a call; one that fails leaves it as it is. -/
def MenuTable.after {α : Type} (t : MenuTable) : Except String (MenuTable × α) → MenuTable
  | .ok (t', _) => t'
  | .error _ => t

/-- One call. -/
def MenuTable.step (t : MenuTable) : MenuEvent → MenuTable
  | .createMenuNode payload id now => t.after (t.createMenuNode payload id now)
  | .updateMenuNode payload now => t.after (t.updateMenuNode payload now)
  | .deleteMenuNode id => t.after (t.deleteMenuNode id)

/-- Following `parentId` from any node leads, in finitely many steps, to a root of the node's
application. -/
def MenuTable.WellFormed (t : MenuTable) : Prop :=
  ∀ a ∈ t.nodes, ∃ r ∈ t.nodes, Above t.parentOf a.id r.id ∧ r.parentId = none ∧ r.appId = a.appId

/-- What a step must meet: the parent that is set, where the database takes it, is a node of the
same application, and neither the node itself nor one below it. -/
def KeepsForest (t : MenuTable) : MenuEvent → Prop
  | .createMenuNode payload id now =>
      MenuConstraints t.apps (t.nodes ++ [payload.node id now]) →
        ∀ p, payload.parentId = some p → ∃ b ∈ t.nodes, b.id = p ∧ b.appId = payload.appId
  | .updateMenuNode payload now =>
      MenuConstraints t.apps (t.updated payload now) →
        ∀ a ∈ t.nodes, a.id = payload.id → ∀ p, payload.parentId = some (some p) →
          ∃ b ∈ t.nodes, b.id = p ∧ b.appId = a.appId ∧ ¬Above t.parentOf b.id a.id
  | .deleteMenuNode _ => True

/-! ### Looking rows up -/

namespace MenuTable

section Lookup

variable {t t' : MenuTable} {nodes : List AppMenuNode} {n : AppMenuNode} {id i : String}

theorem node_eq_none : t.node id = none ↔ ∀ n ∈ t.nodes, n.id ≠ id := by
  simp [node]

theorem mem_of_node (h : t.node id = some n) : n ∈ t.nodes ∧ n.id = id :=
  ⟨List.mem_of_find?_eq_some h, by simpa using List.find?_some h⟩

theorem node_eq_some : t.node id = some n ↔ n ∈ t.nodes ∧ n.id = id := by
  refine ⟨mem_of_node, ?_⟩
  rintro ⟨hn, rfl⟩
  cases hm : t.node n.id with
  | none => exact absurd rfl (node_eq_none.mp hm n hn)
  | some m =>
    obtain ⟨hmem, hid⟩ := mem_of_node hm
    rw [List.inj_on_of_nodup_map t.constraints.ids hmem hn hid]

theorem parentOf_of_mem (hn : n ∈ t.nodes) : t.parentOf n.id = n.parentId := by
  rw [parentOf, node_eq_some.mpr ⟨hn, rfl⟩]
  rfl

theorem appOf_of_mem (hn : n ∈ t.nodes) : t.appOf n.id = some n.appId := by
  rw [appOf, node_eq_some.mpr ⟨hn, rfl⟩]
  rfl

/-- A link leads to a row. -/
theorem exists_of_parentOf {p : String} (h : t.parentOf i = some p) :
    ∃ b ∈ t.nodes, b.id = p := by
  obtain ⟨n, hn, hp⟩ := Option.bind_eq_some_iff.mp h
  exact List.mem_map.mp (t.constraints.parent n (mem_of_node hn).1 p hp)

/-- The forest by its ids: those that are not on record are roots of their own. -/
theorem wellFormed_iff_rooted : t.WellFormed ↔ Rooted t.parentOf t.appOf := by
  constructor
  · intro h i
    cases hnode : t.node i with
    | none => exact ⟨i, Above.refl i, by rw [parentOf, hnode]; rfl, rfl⟩
    | some a =>
      obtain ⟨ha, rfl⟩ := node_eq_some.mp hnode
      obtain ⟨r, hr, habove, hroot, happ⟩ := h a ha
      refine ⟨r.id, habove, (parentOf_of_mem hr).trans hroot, ?_⟩
      rw [appOf_of_mem hr, appOf_of_mem ha, happ]
  · intro h a ha
    obtain ⟨i, habove, hroot, happ⟩ := h a.id
    rw [appOf_of_mem ha] at happ
    obtain ⟨r, hnode, happr⟩ := Option.map_eq_some_iff.mp happ
    obtain ⟨hr, rfl⟩ := mem_of_node hnode
    exact ⟨r, hr, habove, (parentOf_of_mem hr).symm.trans hroot, happr⟩

theorem write_eq_some (h : t.write nodes = some t') :
    t'.nodes = nodes ∧ MenuConstraints t.apps nodes := by
  unfold write at h
  split at h
  · rename_i hok
    cases h
    exact ⟨rfl, hok⟩
  · cases h

theorem write_eq_none : t.write nodes = none ↔ ¬MenuConstraints t.apps nodes := by
  unfold write
  split <;> simp_all

end Lookup

/-! ### What a write does to the links -/

section Writes

variable {t t' : MenuTable} {n : AppMenuNode} {id : String}

/-- A row that is added has an id of its own. -/
theorem not_mem_of_append (ht' : t'.nodes = t.nodes ++ [n]) : ∀ a ∈ t.nodes, a.id ≠ n.id := by
  intro a ha heq
  have hids := t'.constraints.ids
  rw [ht', List.map_append, List.nodup_append] at hids
  exact hids.2.2 _ (List.mem_map_of_mem ha) _ (List.mem_map_of_mem (List.mem_singleton_self n)) heq

theorem node_append (ht' : t'.nodes = t.nodes ++ [n]) (i : String) :
    t'.node i = if i = n.id then some n else t.node i := by
  split
  · rename_i heq
    exact node_eq_some.mpr ⟨ht' ▸ List.mem_append_right _ (List.mem_singleton_self n), heq.symm⟩
  · rename_i hne
    rw [node, ht', List.find?_append]
    simp [node, Ne.symm hne]

theorem parentOf_append (ht' : t'.nodes = t.nodes ++ [n]) :
    t'.parentOf = Function.update t.parentOf n.id n.parentId := by
  funext i
  rw [parentOf, node_append ht', Function.update_apply]
  split <;> rfl

theorem appOf_append (ht' : t'.nodes = t.nodes ++ [n]) :
    t'.appOf = Function.update t.appOf n.id (some n.appId) := by
  funext i
  rw [appOf, node_append ht', Function.update_apply]
  split <;> rfl

/-- A new node must be below a node of its application, if below any. -/
theorem wellFormed_append (h : t.WellFormed) (ht' : t'.nodes = t.nodes ++ [n]) :
    t'.WellFormed ↔
      ∀ p, n.parentId = some p → ∃ b ∈ t.nodes, b.id = p ∧ b.appId = n.appId := by
  have hfresh := not_mem_of_append ht'
  have hnone : t.parentOf n.id = none := by
    rw [parentOf, node_eq_none.mpr hfresh]
    rfl
  have hlinks : ∀ i, t.parentOf i ≠ some n.id := by
    intro i hi
    obtain ⟨b, hb, hid⟩ := exists_of_parentOf hi
    exact hfresh b hb hid
  have hrooted := (wellFormed_iff_rooted.mp h).update_kind hnone hlinks (some n.appId)
  rw [wellFormed_iff_rooted, parentOf_append ht', appOf_append ht', hrooted.update_iff]
  refine forall₂_congr fun p _ => ?_
  rw [Function.update_self]
  constructor
  · rintro ⟨happ, hnot⟩
    have hne : p ≠ n.id := fun heq => hnot (heq ▸ Above.refl p)
    rw [Function.update_of_ne hne] at happ
    obtain ⟨b, hnode, hbapp⟩ := Option.map_eq_some_iff.mp happ
    obtain ⟨hb, hid⟩ := mem_of_node hnode
    exact ⟨b, hb, hid, hbapp⟩
  · rintro ⟨b, hb, rfl, happ⟩
    have hne := hfresh b hb
    rw [Function.update_of_ne hne, appOf_of_mem hb, happ]
    refine ⟨rfl, fun habove => ?_⟩
    -- no link leads to the new node
    cases habove.cases_tail with
    | inl heq => exact hne heq.symm
    | inr hstep =>
      obtain ⟨j, -, hlink⟩ := hstep
      exact hlinks j hlink

variable {payload : UpdateMenuNodePayload} {now : ℕ}

theorem node_updated (ht' : t'.nodes = t.updated payload now) (i : String) :
    t'.node i
      = (t.node i).map fun n => if n.id = payload.id then payload.apply now n else n := by
  unfold node
  rw [ht', updated, List.find?_map]
  congr 2
  funext n
  simp only [Function.comp_apply]
  split <;> rfl

theorem appOf_updated (ht' : t'.nodes = t.updated payload now) : t'.appOf = t.appOf := by
  funext i
  rw [appOf, node_updated ht', Option.map_map]
  refine congrArg (Option.map · (t.node i)) (funext fun n => ?_)
  simp only [Function.comp_apply]
  split <;> rfl

theorem parentOf_updated (ht' : t'.nodes = t.updated payload now) {a : AppMenuNode}
    (ha : a ∈ t.nodes) (hid : a.id = payload.id) :
    t'.parentOf = Function.update t.parentOf a.id (payload.parentId.getD a.parentId) := by
  funext i
  rw [parentOf, node_updated ht', Function.update_apply]
  split
  · rename_i heq
    rw [heq, node_eq_some.mpr ⟨ha, rfl⟩, Option.map_some, if_pos hid]
    rfl
  · rename_i hne
    unfold parentOf
    cases hnode : t.node i with
    | none => rfl
    | some n =>
      have hn : n.id ≠ payload.id := by
        rwa [(mem_of_node hnode).2, ← hid]
      rw [Option.map_some, if_neg hn]

/-- A node that moves must go below one of its application that it is not above. -/
theorem wellFormed_updated (h : t.WellFormed) (ht' : t'.nodes = t.updated payload now) :
    t'.WellFormed ↔
      ∀ a ∈ t.nodes, a.id = payload.id → ∀ p, payload.parentId = some (some p) →
        ∃ b ∈ t.nodes, b.id = p ∧ b.appId = a.appId ∧ ¬Above t.parentOf b.id a.id := by
  have hrooted := wellFormed_iff_rooted.mp h
  cases hnode : t.node payload.id with
  | none =>
    -- no row changes
    have hnone := node_eq_none.mp hnode
    have hsame : t'.node = t.node := by
      funext i
      rw [node_updated ht']
      cases hi : t.node i with
      | none => rfl
      | some n => rw [Option.map_some, if_neg (hnone n (mem_of_node hi).1)]
    have hparent : t'.parentOf = t.parentOf := by
      funext i
      rw [parentOf, hsame, parentOf]
    refine iff_of_true ?_ fun a ha hid => absurd hid (hnone a ha)
    rwa [wellFormed_iff_rooted, hparent, appOf_updated ht']
  | some a =>
    obtain ⟨ha, hid⟩ := mem_of_node hnode
    have honly : ∀ a' ∈ t.nodes, a'.id = payload.id → a' = a := fun a' ha' hid' =>
      List.inj_on_of_nodup_map t.constraints.ids ha' ha (hid'.trans hid.symm)
    rw [wellFormed_iff_rooted, parentOf_updated ht' ha hid, appOf_updated ht']
    cases hp : payload.parentId with
    | none =>
      refine iff_of_true ?_ fun _ _ _ p hset => nomatch hset
      rwa [Option.getD_none, ← parentOf_of_mem ha, Function.update_eq_self]
    | some parent =>
      rw [Option.getD_some, hrooted.update_iff]
      constructor
      · intro hcond a' ha' hid' p hset
        obtain rfl := honly a' ha' hid'
        obtain ⟨happ, hnot⟩ := hcond p (Option.some.inj hset)
        rw [appOf_of_mem ha] at happ
        obtain ⟨b, hnode', hbapp⟩ := Option.map_eq_some_iff.mp happ
        obtain ⟨hb, rfl⟩ := mem_of_node hnode'
        exact ⟨b, hb, rfl, hbapp, hnot⟩
      · intro hcond p hset
        obtain ⟨b, hb, rfl, hbapp, hnot⟩ := hcond a ha hid p (congrArg some hset)
        refine ⟨?_, hnot⟩
        rw [appOf_of_mem hb, appOf_of_mem ha, hbapp]

theorem node_filter (ht' : t'.nodes = t.nodes.filter fun n => n.id ≠ id) (i : String) :
    t'.node i = if i = id then none else t.node i := by
  split
  · rename_i heq
    refine node_eq_none.mpr fun n hn hid => ?_
    rw [ht'] at hn
    simpa [hid, heq] using (List.mem_filter.mp hn).2
  · rename_i hne
    unfold node
    rw [ht', List.find?_filter]
    congr 1
    funext n
    by_cases hid : n.id = i
    · simp [hid, hne]
    · simp [hid]

theorem parentOf_filter (ht' : t'.nodes = t.nodes.filter fun n => n.id ≠ id) :
    t'.parentOf = Function.update t.parentOf id none := by
  funext i
  rw [parentOf, node_filter ht', Function.update_apply]
  split <;> rfl

theorem appOf_filter (ht' : t'.nodes = t.nodes.filter fun n => n.id ≠ id) :
    t'.appOf = Function.update t.appOf id none := by
  funext i
  rw [appOf, node_filter ht', Function.update_apply]
  split <;> rfl

/-- Only a node that none is below is deleted. -/
theorem WellFormed.filter (h : t.WellFormed)
    (ht' : t'.nodes = t.nodes.filter fun n => n.id ≠ id) : t'.WellFormed := by
  have hgone : ∀ i, t'.parentOf i ≠ some id := by
    intro i hi
    obtain ⟨b, hb, hid⟩ := exists_of_parentOf hi
    rw [ht'] at hb
    simpa [hid] using (List.mem_filter.mp hb).2
  have hnone : t'.parentOf id = none := by
    rw [parentOf_filter ht', Function.update_self]
  have hcut : Rooted t'.parentOf t.appOf := by
    rw [parentOf_filter ht', (wellFormed_iff_rooted.mp h).update_iff]
    intro b hb
    cases hb
  rw [wellFormed_iff_rooted, appOf_filter ht']
  exact hcut.update_kind hnone hgone none

end Writes

/-! ### What a call does -/

section Calls

variable (t : MenuTable)

theorem step_createMenuNode (payload : CreateMenuNodePayload) (id : String) (now : ℕ) :
    (t.step (.createMenuNode payload id now) = t ∧
        ¬MenuConstraints t.apps (t.nodes ++ [payload.node id now])) ∨
      ((t.step (.createMenuNode payload id now)).nodes = t.nodes ++ [payload.node id now] ∧
        MenuConstraints t.apps (t.nodes ++ [payload.node id now])) := by
  simp only [step, createMenuNode]
  cases hw : t.write (t.nodes ++ [payload.node id now]) with
  | none => exact .inl ⟨rfl, write_eq_none.mp hw⟩
  | some t' => exact .inr (write_eq_some hw)

theorem step_updateMenuNode (payload : UpdateMenuNodePayload) (now : ℕ) :
    (t.step (.updateMenuNode payload now) = t ∧
        ((∀ n ∈ t.nodes, n.id ≠ payload.id) ∨
          ¬MenuConstraints t.apps (t.updated payload now))) ∨
      ((t.step (.updateMenuNode payload now)).nodes = t.updated payload now ∧
        MenuConstraints t.apps (t.updated payload now)) := by
  simp only [step, updateMenuNode]
  cases hnode : t.node payload.id with
  | none => exact .inl ⟨rfl, .inl (node_eq_none.mp hnode)⟩
  | some n =>
    cases hw : t.write (t.updated payload now) with
    | none => exact .inl ⟨rfl, .inr (write_eq_none.mp hw)⟩
    | some t' => exact .inr (write_eq_some hw)

theorem step_deleteMenuNode (id : String) :
    t.step (.deleteMenuNode id) = t ∨
      (t.step (.deleteMenuNode id)).nodes = t.nodes.filter fun n => n.id ≠ id := by
  simp only [step, deleteMenuNode]
  cases t.node id with
  | none => exact .inl rfl
  | some n =>
    cases hw : t.write (t.nodes.filter fun n => n.id ≠ id) with
    | none => exact .inl rfl
    | some t' => exact .inr (write_eq_some hw).1

end Calls

/-- A call keeps the forest well-formed exactly if it meets the condition. -/
theorem wellFormed_step {t : MenuTable} (h : t.WellFormed) (e : MenuEvent) :
    (t.step e).WellFormed ↔ KeepsForest t e := by
  cases e with
  | createMenuNode payload id now =>
    obtain ⟨hsame, hno⟩ | ⟨hnodes, hok⟩ := t.step_createMenuNode payload id now
    · rw [hsame]
      exact iff_of_true h fun hok => absurd hok hno
    · exact (wellFormed_append h hnodes).trans ⟨fun hcond _ => hcond, fun hcond => hcond hok⟩
  | updateMenuNode payload now =>
    obtain ⟨hsame, hnone | hno⟩ | ⟨hnodes, hok⟩ := t.step_updateMenuNode payload now
    · rw [hsame]
      exact iff_of_true h fun _ a ha hid => absurd hid (hnone a ha)
    · rw [hsame]
      exact iff_of_true h fun hok => absurd hok hno
    · exact (wellFormed_updated h hnodes).trans ⟨fun hcond _ => hcond, fun hcond => hcond hok⟩
  | deleteMenuNode id =>
    refine iff_of_true ?_ trivial
    obtain hsame | hnodes := t.step_deleteMenuNode id
    · rwa [hsame]
    · exact h.filter hnodes

end MenuTable

/-- **The forest is well-formed throughout a run exactly if every parent that is set is a node of
the same application, and neither the node itself nor one below it.** -/
theorem forest_kept_iff {t : MenuTable} (h : t.WellFormed) (es : List MenuEvent) :
    Throughout MenuTable.step MenuTable.WellFormed t es
      ↔ EachStep MenuTable.step KeepsForest t es :=
  throughout_iff_eachStep (I := fun _ => True) (fun _ _ _ => trivial)
    (fun _ e _ hs => MenuTable.wellFormed_step hs e) trivial h

/-- A table with no nodes. -/
def MenuTable.empty (apps : List String) : MenuTable :=
  ⟨apps, [], by constructor <;> simp⟩

theorem MenuTable.wellFormed_empty (apps : List String) : (MenuTable.empty apps).WellFormed :=
  fun _ ha => nomatch ha

/-- A group of the application `hr`. -/
def staffGroup : CreateMenuNodePayload :=
  { appId := "hr", parentId := none, label := "Staff", slug := "staff", icon := none, href := none
    type := some .group, order := none, isVisible := none, permissionKeys := none }

/-- A node below it. -/
def leaveNode : CreateMenuNodePayload :=
  { staffGroup with parentId := some "n1", label := "Leave", slug := "leave", type := none }

/-- The group goes below the node, which its form offers. -/
def belowItself : UpdateMenuNodePayload :=
  { id := "n1", parentId := some (some "n2"), label := none, slug := none, icon := none
    href := none, type := none, order := none, isActive := none, isVisible := none
    permissionKeys := none }

/-- The group and the node below it are a forest. -/
theorem forest_kept_staff :
    Throughout MenuTable.step MenuTable.WellFormed (MenuTable.empty ["hr"])
      [.createMenuNode staffGroup "n1" 1, .createMenuNode leaveNode "n2" 2] := by
  refine (forest_kept_iff (MenuTable.wellFormed_empty ["hr"]) _).mpr ⟨?_, ?_, trivial⟩
  · intro _ p hp
    cases hp
  · intro _ p hp
    obtain rfl : "n1" = p := Option.some.inj hp
    exact ⟨staffGroup.node "n1" 1, by decide, rfl, rfl⟩

/-- A group is moved below its own child. -/
theorem group_below_its_child :
    ¬∀ (apps : List String) (es : List MenuEvent),
      Throughout MenuTable.step MenuTable.WellFormed (MenuTable.empty apps) es := by
  intro h
  have hrun := h ["hr"] [.createMenuNode staffGroup "n1" 1, .createMenuNode leaveNode "n2" 2,
    .updateMenuNode belowItself 3]
  have hkeeps := (MenuTable.wellFormed_step hrun.2.2.1 _).mp hrun.2.2.2
  obtain ⟨b, -, hid, -, hnot⟩ :=
    hkeeps (by decide) (staffGroup.node "n1" 1) (by decide) rfl "n2" rfl
  rw [hid] at hnot
  exact hnot (Above.head (by decide) (Above.refl "n1"))

end Iam

end FileNest
