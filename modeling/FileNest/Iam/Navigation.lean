import FileNest.Iam.Menus
import FileNest.Lib.PartialSteps
import FileNest.Lib.Rose

/-!
# The navigation of a user

The session and the context route show a user the menus of every application as a tree: nodes
that ask for a permission the user does not have are left out with all below them, and so are
groups with nothing to show.  Each keeps its own copy of the code.

## Main definitions

* `filterNode`, `buildTreeWith` — what both copies do, with `none` when the recursion is cut off.
* `AuthConfig.buildTree`, `MeContext.buildTree` — the copies.
* `IsNavigation` — which nodes are shown, and where.

## Main results

* `buildTree_isNavigation` — **whatever the parents are, both copies end with the same tree, in
which each node that has something to show occurs once and in its place.**
-/

namespace FileNest

namespace Iam

open PartialSteps Rose

/-- `filterNode`: a node that asks for no permission is for everyone. -/
def filterNode (permSet : List String) (node : AppMenuNode) : Bool :=
  node.permissionKeys.length == 0 || node.permissionKeys.any fun k => permSet.contains k

/-- `buildTree`, with the fields a node is shown with.  The recursion may go on without end;
`none` if it goes deeper than `fuel`. -/
def buildTreeWith {α : Type} (fields : AppMenuNode → α) (permSet : List String)
    (allNodes : List AppMenuNode) : ℕ → Option String → Option (List (Rose α))
  | 0, _ => none
  | fuel + 1, parentId =>
    let ofNode := fun n =>
      if !filterNode permSet n then some []
      else (buildTreeWith fields permSet allNodes fuel (some n.id)).map fun children =>
        if n.type == .group && children.isEmpty then [] else [node (fields n) children]
    ((allNodes.filter fun n => n.parentId == parentId).mapM ofNode).map List.flatten

/-! ### The two copies -/

namespace AuthConfig

/-- `NavNode`; the children are in the tree. -/
structure NavNode where
  id : String
  label : String
  slug : String
  icon : Option String
  href : Option String
  type : MenuNodeType
  permissionKeys : List String
  deriving DecidableEq

/-- What `buildTree` shows of a node. -/
def navNode (n : AppMenuNode) : NavNode where
  id := n.id
  label := n.label
  slug := n.slug
  icon := n.icon
  href := n.href
  type := n.type
  permissionKeys := n.permissionKeys

/-- `buildTree`, for the session. -/
def buildTree := buildTreeWith navNode

end AuthConfig

namespace MeContext

/-- `NavNode`; the children are in the tree. -/
structure NavNode where
  id : String
  label : String
  slug : String
  icon : Option String
  href : Option String
  type : MenuNodeType
  isVisible : Bool
  permissionKeys : List String
  deriving DecidableEq

/-- What `buildTree` shows of a node. -/
def navNode (n : AppMenuNode) : NavNode where
  id := n.id
  label := n.label
  slug := n.slug
  icon := n.icon
  href := n.href
  type := n.type
  isVisible := n.isVisible
  permissionKeys := n.permissionKeys

/-- `buildTree`, for the route. -/
def buildTree := buildTreeWith navNode

/-- A node without the visibility flag. -/
def NavNode.withoutVisibility (x : NavNode) : AuthConfig.NavNode where
  id := x.id
  label := x.label
  slug := x.slug
  icon := x.icon
  href := x.href
  type := x.type
  permissionKeys := x.permissionKeys

/-- The ids in a tree. -/
def ids (tree : List (Rose NavNode)) : List String :=
  (labels tree).map (·.id)

end MeContext

open MeContext

section Navigation

variable (permSet : List String) (allNodes : List AppMenuNode)

/-- The nodes a user may see. -/
def permitted : List AppMenuNode :=
  allNodes.filter (filterNode permSet)

/-- A node has something to show: it may be seen and so may all above it, up to a root, and it is
an item or there is an item below it in the tree. -/
def Belongs (tree : List (Rose NavNode)) (n : AppMenuNode) : Prop :=
  (∃ chain, Forest.Chain (·.id) (·.parentId) (permitted permSet allNodes) n chain) ∧
    (n.type = .item ∨ ∃ d ∈ allNodes, d.type = .item ∧ d.id ∈ ids tree ∧
      Relation.TransGen (Forest.Link (·.id) (·.parentId) allNodes) n d)

/-- The navigation over a list of nodes. -/
structure IsNavigation (tree : List (Rose NavNode)) : Prop where
  listed : ∀ x ∈ labels tree, ∃ n ∈ allNodes, x = navNode n
  once : ∀ n ∈ allNodes, Belongs permSet allNodes tree n → (ids tree).count n.id = 1
  absent : ∀ n ∈ allNodes, ¬Belongs permSet allNodes tree n → n.id ∉ ids tree
  /-- The roots, in the order of the list. -/
  roots : (tree.map label).Sublist
    ((allNodes.filter fun n => n.parentId == none).map navNode)
  /-- The children of a node, in the order of the list. -/
  children : ∀ x below, Sub tree (node x below) → (below.map label).Sublist
    ((allNodes.filter fun n => n.parentId == some x.id).map navNode)
  group : ∀ x below, Sub tree (node x below) → x.type = .group → below ≠ []

/-- The nodes a user may see, by their parents. -/
def permittedChildren (parentId : Option String) : List AppMenuNode :=
  (permitted permSet allNodes).filter fun n => n.parentId == parentId

/-- A node that is not shown on its own. -/
def isGroup (n : AppMenuNode) : Bool :=
  n.type == .group

/-! ### The recursion -/

/-- The tree below a key, as deep as there is fuel for. -/
def shown (fuel : ℕ) (parentId : Option String) : List (Rose AppMenuNode) :=
  grow (permittedChildren permSet allNodes) (fun n => some n.id) isGroup fuel parentId

variable {permSet allNodes}

theorem flatMap_filter_if {α β : Type} (l : List α) (keep : α → Bool) (f : α → List β) :
    (l.flatMap fun a => if !keep a then [] else f a) = (l.filter keep).flatMap f := by
  induction l with
  | nil => rfl
  | cons a l ih =>
    rw [List.flatMap_cons, ih, List.filter_cons]
    cases keep a <;> rfl

/-- With enough fuel, `buildTree` is the tree that is grown. -/
theorem buildTreeWith_eq {α : Type} (fields : AppMenuNode → α) {fuel : ℕ}
    {parentId : Option String}
    (hdeep : ¬Deep (permittedChildren permSet allNodes) (fun n => some n.id) fuel parentId) :
    buildTreeWith fields permSet allNodes fuel parentId =
      some (map fields (shown permSet allNodes fuel parentId)) := by
  induction fuel generalizing parentId with
  | zero => exact absurd trivial hdeep
  | succ fuel ih =>
    have hnode : ∀ n ∈ allNodes.filter fun n => n.parentId == parentId,
        (if !filterNode permSet n then some []
          else (buildTreeWith fields permSet allNodes fuel (some n.id)).map fun children =>
            if n.type == .group && children.isEmpty then [] else [node (fields n) children]) =
          some (if !filterNode permSet n then []
            else map fields (if isGroup n && (shown permSet allNodes fuel (some n.id)).isEmpty
              then [] else [node n (shown permSet allNodes fuel (some n.id))])) := by
      intro n hn
      obtain ⟨hn, hparent⟩ := List.mem_filter.mp hn
      cases hfilter : filterNode permSet n with
      | false => rfl
      | true =>
        have hchild : n ∈ permittedChildren permSet allNodes parentId :=
          List.mem_filter.mpr ⟨List.mem_filter.mpr ⟨hn, hfilter⟩, hparent⟩
        rw [ih (not_deep_of_mem hdeep hchild)]
        rw [Option.map_some, isEmpty_map, map_branch]
        rfl
    have hfilter : (allNodes.filter fun n => n.parentId == parentId).filter (filterNode permSet) =
        permittedChildren permSet allNodes parentId := by
      rw [permittedChildren, permitted, List.filter_filter, List.filter_filter]
      exact List.filter_congr fun n _ => Bool.and_comm _ _
    rw [buildTreeWith, mapM_eq_some hnode, Option.map_some, ← List.flatMap_def, flatMap_filter_if,
      hfilter, ← map_flatMap]
    rfl

/-! ### What is shown -/

theorem permitted_subset : permitted permSet allNodes ⊆ allNodes :=
  fun _ hn => (List.mem_filter.mp hn).1

variable (hids : (allNodes.map (·.id)).Nodup)
include hids

theorem byParent : ByParent (·.id) (·.parentId) (permitted permSet allNodes)
    (permittedChildren permSet allNodes) where
  keys := hids.sublist (List.filter_sublist.map _)
  nodup p := ((List.Nodup.of_map _ hids).filter _).filter _
  mem := by
    intro p n
    rw [permittedChildren, List.mem_filter, beq_iff_eq]

theorem not_deep {fuel : ℕ} (hfuel : allNodes.length < fuel) :
    ¬Deep (permittedChildren permSet allNodes) (fun n => some n.id) fuel none :=
  (byParent hids).not_deep (lt_of_le_of_lt (List.length_filter_le _ _) hfuel)

/-- A node is in the tree exactly if all from a root down to it may be seen, and it is an item or
the parent links lead down from it to an item that is in the tree. -/
theorem mem_shown {fuel : ℕ} (hfuel : allNodes.length < fuel) (n : AppMenuNode) :
    n ∈ labels (shown permSet allNodes fuel none) ↔
      (∃ chain, Forest.Chain (·.id) (·.parentId) (permitted permSet allNodes) n chain) ∧
        (n.type = .item ∨ ∃ d, d.type = .item ∧ d ∈ labels (shown permSet allNodes fuel none) ∧
          Relation.TransGen (Forest.Link (·.id) (·.parentId) allNodes) n d) := by
  have hby : ByParent (·.id) (·.parentId) (permitted permSet allNodes)
      (permittedChildren permSet allNodes) := byParent hids
  have hitem : ∀ m : AppMenuNode, isGroup m = false ↔ m.type = .item := by
    intro m
    rw [isGroup]
    cases m.type <;> simp
  have hmem : ∀ m, m ∈ labels (shown permSet allNodes fuel none) ↔ _ :=
    fun m => mem_labels_grow (not_deep hids hfuel)
  rw [hmem, hby.reach_iff_chain, hitem]
  refine and_congr_right fun hchain => or_congr_right (exists_congr fun d => ?_)
  rw [hitem, hby.reach_iff_transGen, hmem, hby.reach_iff_chain, hitem]
  constructor
  · rintro ⟨hbelow, hd⟩
    have hreach := (hby.reach_iff_chain.mpr hchain).trans (hby.reach_iff_transGen.mpr hbelow)
    exact ⟨hd, ⟨hby.reach_iff_chain.mp hreach, .inl hd⟩,
      Forest.transGen_of_subset permitted_subset hbelow⟩
  · rintro ⟨hd, ⟨⟨chain, hd'⟩, -⟩, hbelow⟩
    exact ⟨hd'.transGen hids permitted_subset hbelow, hd⟩

theorem mem_of_shown {fuel : ℕ} (hfuel : allNodes.length < fuel) {n : AppMenuNode}
    (h : n ∈ labels (shown permSet allNodes fuel none)) : n ∈ allNodes := by
  obtain ⟨⟨chain, hchain⟩, -⟩ := (mem_shown hids hfuel n).mp h
  exact permitted_subset hchain.mem_nodes

omit hids in
theorem ids_map (tree : List (Rose AppMenuNode)) :
    ids (map navNode tree) = (labels tree).map (·.id) := by
  rw [ids, labels_map, List.map_map]
  rfl

/-- An id is in the tree exactly if its node is. -/
theorem mem_ids_shown {fuel : ℕ} (hfuel : allNodes.length < fuel) {n : AppMenuNode}
    (hn : n ∈ allNodes) :
    n.id ∈ ids (map navNode (shown permSet allNodes fuel none)) ↔
      n ∈ labels (shown permSet allNodes fuel none) := by
  rw [ids_map, List.mem_map]
  constructor
  · rintro ⟨m, hm, hid⟩
    rwa [← List.inj_on_of_nodup_map hids (mem_of_shown hids hfuel hm) hn hid]
  · exact fun h => ⟨n, h, rfl⟩

theorem belongs_iff {fuel : ℕ} (hfuel : allNodes.length < fuel) (n : AppMenuNode) :
    Belongs permSet allNodes (map navNode (shown permSet allNodes fuel none)) n ↔
      n ∈ labels (shown permSet allNodes fuel none) := by
  rw [Belongs, mem_shown hids hfuel]
  refine and_congr_right fun _ => or_congr_right (exists_congr fun d => ?_)
  constructor
  · rintro ⟨hd, hitem, hid, hbelow⟩
    exact ⟨hitem, (mem_ids_shown hids hfuel hd).mp hid, hbelow⟩
  · rintro ⟨hitem, hmem, hbelow⟩
    have hd := mem_of_shown hids hfuel hmem
    exact ⟨hd, hitem, (mem_ids_shown hids hfuel hd).mpr hmem, hbelow⟩

omit hids in
/-- Children are permitted children, in the order of the list. -/
theorem map_label_shown (fuel : ℕ) (parentId : Option String) :
    ((map navNode (shown permSet allNodes fuel parentId)).map label).Sublist
      ((allNodes.filter fun n => n.parentId == parentId).map navNode) := by
  rw [map_label_map]
  refine List.Sublist.map navNode ((map_label_grow _ _ _ _ _).trans ?_)
  exact List.filter_sublist.filter _

theorem isNavigation_shown {fuel : ℕ} (hfuel : allNodes.length < fuel) :
    IsNavigation permSet allNodes (map navNode (shown permSet allNodes fuel none)) where
  listed := by
    intro x hx
    rw [labels_map] at hx
    obtain ⟨n, hn, rfl⟩ := List.mem_map.mp hx
    exact ⟨n, mem_of_shown hids hfuel hn, rfl⟩
  once := by
    intro n hn hbelongs
    refine List.count_eq_one_of_mem ?_
      ((mem_ids_shown hids hfuel hn).mpr ((belongs_iff hids hfuel n).mp hbelongs))
    rw [ids_map]
    refine List.Nodup.map_on (fun m hm m' hm' hid => ?_) ((byParent hids).nodup_labels_grow .root)
    exact List.inj_on_of_nodup_map hids (mem_of_shown hids hfuel hm)
      (mem_of_shown hids hfuel hm') hid
  absent := by
    intro n hn hbelongs hid
    exact hbelongs ((belongs_iff hids hfuel n).mpr ((mem_ids_shown hids hfuel hn).mp hid))
  roots := map_label_shown fuel none
  children := by
    intro x below hsub
    obtain ⟨⟨n, below'⟩, hsub', heq⟩ := hsub.of_map
    cases heq
    obtain ⟨fuel', rfl, -, -⟩ := hsub'.of_grow
    exact map_label_shown fuel' (some n.id)
  group := by
    intro x below hsub hgroup
    obtain ⟨⟨n, below'⟩, hsub', heq⟩ := hsub.of_map
    cases heq
    obtain ⟨fuel', rfl, hdrop | hne, -⟩ := hsub'.of_grow
    · rw [isGroup, show n.type = .group from hgroup] at hdrop
      cases hdrop
    · exact fun h => hne (List.isEmpty_iff.mp ((isEmpty_map navNode _).symm.trans (by rw [h]; rfl)))

omit hids in
theorem map_withoutVisibility (tree : List (Rose AppMenuNode)) :
    map NavNode.withoutVisibility (map navNode tree) = map AuthConfig.navNode tree :=
  map_map NavNode.withoutVisibility navNode tree

end Navigation

/-- Whatever the parents of the nodes are, and whatever a user may see, both copies of `buildTree`
end with the same tree, but for the visibility flag.  A node occurs in it once if all from a root
down to it may be seen and it is an item or has an item below it that occurs, and not at all
otherwise; no group is without children, and siblings are in the order of the list. -/
theorem buildTree_isNavigation (permSet : List String) (allNodes : List AppMenuNode)
    (hids : (allNodes.map (·.id)).Nodup) :
    ∃ tree : List (Rose NavNode),
      (∀ fuel, allNodes.length < fuel →
        MeContext.buildTree permSet allNodes fuel none = some tree ∧
          AuthConfig.buildTree permSet allNodes fuel none =
            some (map NavNode.withoutVisibility tree)) ∧
      IsNavigation permSet allNodes tree := by
  have hle := Nat.lt_succ_self allNodes.length
  refine ⟨map navNode (shown permSet allNodes (allNodes.length + 1) none), fun fuel hfuel => ?_,
    isNavigation_shown hids hle⟩
  have hfuel' : shown permSet allNodes fuel none =
      shown permSet allNodes (allNodes.length + 1) none :=
    grow_of_le (not_deep hids hle) hfuel
  rw [map_withoutVisibility, ← hfuel']
  exact ⟨buildTreeWith_eq navNode (not_deep hids hfuel),
    buildTreeWith_eq AuthConfig.navNode (not_deep hids hfuel)⟩

/-! ### A menu with a cycle -/

/-- A node of the application `files`. -/
def menuNode (id : String) (parentId : Option String) (type : MenuNodeType)
    (permissionKeys : List String) : AppMenuNode where
  id
  appId := "files"
  parentId
  label := id
  slug := id
  icon := none
  href := none
  order := 0
  type
  isActive := true
  isVisible := true
  permissionKeys
  createdAt := 0
  updatedAt := 0

/-- A folder with an item for everyone and one that asks for more, an empty group, two nodes below
each other and one without its parent. -/
def tangledMenu : List AppMenuNode :=
  [menuNode "upload" (some "files") .item ["file:create"], menuNode "files" none .group [],
    menuNode "browse" (some "files") .item [], menuNode "admin" none .group ["role:read"],
    menuNode "a" (some "b") .item [], menuNode "b" (some "a") .item [],
    menuNode "lost" (some "gone") .item []]

/-- Of the tangled menu there is left the folder, with the item for everyone. -/
theorem isNavigation_tangled :
    IsNavigation ["folder:read"] tangledMenu
      [node (navNode (menuNode "files" none .group []))
        [node (navNode (menuNode "browse" (some "files") .item [])) []]] := by
  obtain ⟨tree, htree, hnavigation⟩ :=
    buildTree_isNavigation ["folder:read"] tangledMenu (by decide)
  have heq : MeContext.buildTree ["folder:read"] tangledMenu 8 none =
      some [node (navNode (menuNode "files" none .group []))
        [node (navNode (menuNode "browse" (some "files") .item [])) []]] := rfl
  rw [(htree 8 (by decide)).1] at heq
  rwa [Option.some.inj heq] at hnavigation

end Iam

end FileNest
