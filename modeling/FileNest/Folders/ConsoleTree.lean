import FileNest.Lib.OrderedMap
import FileNest.Lib.PartialSteps
import FileNest.Lib.Rose
import Mathlib.Data.List.Sort

/-!
# The folders in the console

The console shows the folders of a project as a tree.  It makes a node of every folder, hangs each
node under its parent in one pass over the nodes, and sorts what hangs together by name.  The
folder picker has a copy of the code.

## Main definitions

* `TFolder`, `FolderNode`, `Nodes` — a folder, its node, and all nodes; a node is known by its key.
* `buildTree` — the tree, with `none` when the recursion is cut off.
* `Reads` — what is seen by following a list of nodes.
* `Places` — every folder is in the tree once, and in its place.

## Main results

* `buildTree_places` — **without cycles every folder is in the tree once: under its parent, if
that is there, and among the roots otherwise.**
-/

namespace FileNest

namespace Console

open OrderedMap PartialSteps Rose

/-- `TFolder`. -/
structure TFolder where
  id : String
  organizationId : String
  projectId : String
  parentFolderId : Option String
  name : String
  path : String
  createdAt : String
  deriving DecidableEq

/-- `FolderNode`; the children are known by their keys. -/
structure FolderNode extends TFolder where
  children : List String

/-- The node of a folder, with no children yet. -/
def TFolder.node (f : TFolder) : FolderNode where
  toTFolder := f
  children := []

/-- `nodeMap` and `roots`. -/
structure Nodes where
  nodeMap : List (String × FolderNode)
  roots : List String

namespace Nodes

/-- A list of nodes: the children of a node, or the roots. -/
def list (t : Nodes) : Option String → List String
  | some id => (get? t.nodeMap id).elim [] (·.children)
  | none => t.roots

/-- Change a list of nodes in place. -/
def modifyList (t : Nodes) : Option String → (List String → List String) → Nodes
  | some id, f =>
    { t with nodeMap := modify t.nodeMap id fun n => { n with children := f n.children } }
  | none, f => { t with roots := f t.roots }

/-- The parent a node is hung under; an empty id is no parent. -/
def parent (t : Nodes) (node : FolderNode) : Option String :=
  node.parentFolderId.filter fun p => p != "" && (get? t.nodeMap p).isSome

/-- One step of the pass over the nodes. -/
def push (t : Nodes) (node : FolderNode) : Nodes :=
  t.modifyList (t.parent node) fun nodes => nodes ++ [node.id]

/-- The folder of a node. -/
def folder (t : Nodes) (id : String) : Option TFolder :=
  (get? t.nodeMap id).map (·.toTFolder)

/-- The name of a node. -/
def name (t : Nodes) (id : String) : String :=
  (t.folder id).elim "" (·.name)

variable (localeCompare : String → String → ℤ)

/-- A list of nodes, by name. -/
def byName (t : Nodes) (nodes : List String) : List String :=
  nodes.insertionSort fun a b => localeCompare (t.name a) (t.name b) ≤ 0

/-- `sort`: sort a list of nodes, and below each of them.  The recursion may go on without end;
`none` if it goes deeper than `fuel`. -/
def sort : ℕ → Option String → Nodes → Option Nodes
  | 0, _, _ => none
  | fuel + 1, l, t =>
    let sorted := t.modifyList l (t.byName localeCompare)
    (sorted.list l).foldlM (fun t id => sort fuel (some id) t) sorted

/-- The nodes of folders, each hung under its parent. -/
def ofFolders (folders : List TFolder) : Nodes :=
  let nodeMap := folders.foldl (fun m f => set m f.id f.node) []
  nodeMap.foldl (fun t e => t.push e.2) { nodeMap, roots := [] }

end Nodes

/-- `buildTree`.  What `localeCompare` says of two names depends on the user's language. -/
def buildTree (localeCompare : String → String → ℤ) (fuel : ℕ) (folders : List TFolder) :
    Option Nodes :=
  (Nodes.ofFolders folders).sort localeCompare fuel none

/-- What is seen by following a list of nodes. -/
inductive Reads (t : Nodes) : List String → List (Rose TFolder) → Prop
  | nil : Reads t [] []
  | cons {id : String} {n : FolderNode} {ids : List String} {below trees : List (Rose TFolder)}
      (hget : get? t.nodeMap id = some n) (hbelow : Reads t n.children below)
      (htrees : Reads t ids trees) : Reads t (id :: ids) (node n.toTFolder below :: trees)

/-- What is seen is determined. -/
theorem Reads.unique {t : Nodes} {ids : List String} {forest forest' : List (Rose TFolder)}
    (h : Reads t ids forest) (h' : Reads t ids forest') : forest = forest' := by
  induction h generalizing forest' with
  | nil =>
    cases h'
    rfl
  | cons hget _ _ ihbelow ihtrees =>
    cases h' with
    | cons hget' hbelow htrees =>
      obtain rfl := Option.some.inj (hget.symm.trans hget')
      rw [ihbelow hbelow, ihtrees htrees]

/-- Every folder is in the tree once: under its parent if that is in the list, and otherwise among
the roots. -/
structure Places (under : TFolder → TFolder → Prop) (folders : List TFolder)
    (forest : List (Rose TFolder)) : Prop where
  once : (labels forest).Perm folders
  child : ∀ p ∈ folders, ∀ f ∈ folders, under p f →
    ∃ below, Sub forest (node p below) ∧ f ∈ below.map label
  root : ∀ f ∈ folders, (∀ p ∈ folders, ¬under p f) → f ∈ forest.map label

/-- A folder names another as its parent. -/
def Names (p f : TFolder) : Prop :=
  f.parentFolderId = some p.id

/-- A folder names another as its parent, by an id that is not empty. -/
def NamesById (p f : TFolder) : Prop :=
  f.parentFolderId = some p.id ∧ p.id ≠ ""

/-! ### The pass over the nodes -/

namespace Nodes

variable {t t' : Nodes} {l : Option String} {id : String}

theorem folder_modifyList (t : Nodes) (l : Option String) (f : List String → List String)
    (id : String) : (t.modifyList l f).folder id = t.folder id := by
  cases l with
  | none => rfl
  | some k =>
    rw [folder, modifyList, get?_modify]
    split
    · rw [Option.map_map]
      rfl
    · rfl

theorem name_modifyList (t : Nodes) (l : Option String) (f : List String → List String)
    (id : String) : (t.modifyList l f).name id = t.name id := by
  rw [name, folder_modifyList]
  rfl

/-- A parent is looked up by the folders. -/
theorem parent_congr (h : ∀ id, t'.folder id = t.folder id) (node : FolderNode) :
    t'.parent node = t.parent node := by
  have hget : ∀ id, (get? t'.nodeMap id).isSome = (get? t.nodeMap id).isSome := by
    intro id
    rw [← Option.isSome_map, ← Option.isSome_map (x := get? t.nodeMap id)]
    exact congrArg Option.isSome (h id)
  rw [parent, parent]
  simp only [hget]

theorem list_modifyList_ne (t : Nodes) (f : List String → List String) {l' : Option String}
    (h : l' ≠ l) : (t.modifyList l f).list l' = t.list l' := by
  cases l with
  | none =>
    cases l' with
    | none => exact absurd rfl h
    | some k => rfl
  | some k =>
    cases l' with
    | none => rfl
    | some k' =>
      rw [list, modifyList, get?_modify, if_neg fun heq => h (congrArg some heq)]
      rfl

/-- A list of nodes that is there is changed. -/
theorem list_modifyList (t : Nodes) (f : List String → List String)
    (h : ∀ id, l = some id → (get? t.nodeMap id).isSome) :
    (t.modifyList l f).list l = f (t.list l) := by
  cases l with
  | none => rfl
  | some k =>
    obtain ⟨n, hn⟩ := Option.isSome_iff_exists.mp (h k rfl)
    rw [list, modifyList, get?_modify, if_pos rfl, list, hn]
    rfl

/-- A node is added to the children of its parent, or to the roots. -/
theorem list_push (t : Nodes) (node : FolderNode) (l : Option String) :
    (t.push node).list l = if t.parent node = l then t.list l ++ [node.id] else t.list l := by
  rw [push]
  split
  · next h =>
    subst h
    refine list_modifyList t _ fun id hid => ?_
    have hfilter := (Option.filter_eq_some_iff.mp hid).2
    exact ((Bool.and_eq_true _ _).mp hfilter).2
  · next h => exact list_modifyList_ne t _ fun heq => h heq.symm

theorem folder_foldl_push (nodes : List FolderNode) (t : Nodes) (id : String) :
    (nodes.foldl push t).folder id = t.folder id := by
  induction nodes generalizing t with
  | nil => rfl
  | cons node nodes ih => rw [List.foldl_cons, ih, push, folder_modifyList]

/-- After the pass each list has the nodes with this parent, in the order of the pass. -/
theorem list_foldl_push (nodes : List FolderNode) (t : Nodes) (l : Option String) :
    (nodes.foldl push t).list l =
      t.list l ++ (nodes.filter fun node => t.parent node = l).map (·.id) := by
  induction nodes generalizing t with
  | nil => exact (List.append_nil _).symm
  | cons node nodes ih =>
    have hparent : ∀ node', (t.push node).parent node' = t.parent node' :=
      parent_congr fun id => folder_modifyList t _ _ id
    rw [List.foldl_cons, ih, list_push]
    simp only [hparent, List.filter_cons, decide_eq_true_eq]
    split
    · rw [List.map_cons, List.append_assoc, List.singleton_append]
    · rfl

end Nodes

/-- The parent of a folder, if it is in the list. -/
def parentIn (folders : List TFolder) (f : TFolder) : Option String :=
  f.parentFolderId.filter fun p => p != "" && p ∈ folders.map (·.id)

/-- The folders with this parent. -/
def childrenIn (folders : List TFolder) (l : Option String) : List TFolder :=
  folders.filter fun f => parentIn folders f = l

section Pass

variable {folders : List TFolder} (hids : (folders.map (·.id)).Nodup)
include hids

theorem ofFolders_eq : Nodes.ofFolders folders = (folders.map TFolder.node).foldl Nodes.push
    { nodeMap := folders.map fun f => (f.id, f.node), roots := [] } := by
  rw [Nodes.ofFolders, foldl_set TFolder.node hids, List.foldl_map, List.foldl_map]

theorem folder_ofFolders {f : TFolder} (hf : f ∈ folders) :
    (Nodes.ofFolders folders).folder f.id = some f := by
  rw [ofFolders_eq hids, Nodes.folder_foldl_push, Nodes.folder, get?_map TFolder.node hids hf]
  rfl

/-- Hung under each folder are those that name it. -/
theorem list_ofFolders (l : Option String) :
    (Nodes.ofFolders folders).list l = (childrenIn folders l).map (·.id) := by
  have hempty : ({ nodeMap := folders.map fun f => (f.id, f.node), roots := [] } : Nodes).list l =
      [] := by
    cases l with
    | none => rfl
    | some id =>
      rw [Nodes.list]
      cases hget : get? (folders.map fun f => (f.id, f.node)) id with
      | none => rfl
      | some n =>
        obtain ⟨f, -, heq⟩ := List.mem_map.mp (mem_of_get? hget)
        cases heq
        rfl
  have hparent : ∀ f, Nodes.parent { nodeMap := folders.map fun f => (f.id, f.node), roots := [] }
      f.node = parentIn folders f := by
    intro f
    refine congrArg (f.parentFolderId.filter ·) (funext fun p => congrArg _ ?_)
    rw [Bool.eq_iff_iff, get?_isSome, List.map_map, decide_eq_true_iff]
    rfl
  rw [ofFolders_eq hids, Nodes.list_foldl_push, hempty, List.nil_append, List.filter_map,
    List.map_map]
  simp only [Function.comp_def, hparent]
  rfl

theorem byParent : ByParent (·.id) (parentIn folders) folders (childrenIn folders) where
  keys := hids
  nodup l := (List.Nodup.of_map _ hids).filter _
  mem := by
    intro l f
    rw [childrenIn, List.mem_filter, decide_eq_true_iff]

end Pass

/-! ### Sorting -/

/-- The same folders, and in each list the same nodes in some order. -/
structure SameNodes (t t' : Nodes) : Prop where
  folder : ∀ id, t'.folder id = t.folder id
  list : ∀ l, (t'.list l).Perm (t.list l)

theorem SameNodes.trans {t t' t'' : Nodes} (h : SameNodes t t') (h' : SameNodes t' t'') :
    SameNodes t t'' where
  folder id := (h'.folder id).trans (h.folder id)
  list l := (h'.list l).trans (h.list l)

/-- The folders in a list of nodes. -/
def Nodes.foldersIn (t : Nodes) (l : Option String) : List TFolder :=
  (t.list l).filterMap t.folder

/-- A list of nodes is put in some order. -/
theorem sameNodes_modifyList (t : Nodes) (l : Option String) {f : List String → List String}
    (hf : ∀ nodes, (f nodes).Perm nodes) : SameNodes t (t.modifyList l f) where
  folder := t.folder_modifyList l f
  list l' := by
    by_cases hl : l' = l
    · subst hl
      cases l' with
      | none => exact hf _
      | some k =>
        rw [Nodes.list, Nodes.list, Nodes.modifyList, get?_modify, if_pos rfl]
        cases get? t.nodeMap k with
        | none => exact .refl _
        | some n => exact hf _
    · rw [t.list_modifyList_ne f hl]

section Passes

variable {localeCompare : String → String → ℤ} {fuel fuel' : ℕ} {l : Option String}
  {t t' : Nodes}

theorem sameNodes_byName : SameNodes t (t.modifyList l (t.byName localeCompare)) :=
  sameNodes_modifyList t l fun nodes => List.perm_insertionSort _ nodes

/-- The sort only reorders. -/
theorem sameNodes_sort (h : t.sort localeCompare fuel l = some t') : SameNodes t t' := by
  induction fuel generalizing l t t' with
  | zero => cases h
  | succ fuel ih =>
    exact foldlM_keeps (I := SameNodes t) (fun _ _ _ hsame hstep => hsame.trans (ih hstep))
      sameNodes_byName h

/-- More fuel does not matter once it is enough. -/
theorem sort_of_le (h : t.sort localeCompare fuel l = some t') (hle : fuel ≤ fuel') :
    t.sort localeCompare fuel' l = some t' := by
  induction fuel generalizing fuel' l t t' with
  | zero => cases h
  | succ fuel ih =>
    obtain ⟨k, rfl⟩ := Nat.exists_eq_add_of_lt hle
    exact foldlM_mono (fun _ _ _ hstep => ih hstep (by omega)) h

end Passes

section Sorting

variable {folders : List TFolder} (hids : (folders.map (·.id)).Nodup)
  {localeCompare : String → String → ℤ} {fuel : ℕ} {l : Option String} {t : Nodes}
include hids

theorem SameNodes.exists_folder (h : SameNodes (Nodes.ofFolders folders) t) {id : String}
    (hid : id ∈ t.list l) : ∃ f ∈ childrenIn folders l, f.id = id ∧ t.folder id = some f := by
  rw [(h.list l).mem_iff, list_ofFolders hids, List.mem_map] at hid
  obtain ⟨f, hf, rfl⟩ := hid
  refine ⟨f, hf, rfl, ?_⟩
  rw [h.folder, folder_ofFolders hids (List.mem_filter.mp hf).1]

/-- With enough fuel the sort goes through. -/
theorem sort_total (h : SameNodes (Nodes.ofFolders folders) t)
    (hdeep : ¬Deep (childrenIn folders) (fun f => some f.id) fuel l) :
    ∃ t', t.sort localeCompare fuel l = some t' := by
  induction fuel generalizing l t with
  | zero => exact absurd trivial hdeep
  | succ fuel ih =>
    have hsorted : SameNodes (Nodes.ofFolders folders) (t.modifyList l (t.byName localeCompare)) :=
      h.trans sameNodes_byName
    suffices hpass : ∃ t', t.sort localeCompare (fuel + 1) l = some t' ∧
        SameNodes (Nodes.ofFolders folders) t' from hpass.imp fun _ h => h.1
    refine foldlM_total (fun t' id hid ht' => ?_) hsorted
    obtain ⟨f, hf, rfl, -⟩ := hsorted.exists_folder hids hid
    obtain ⟨t'', hsort⟩ := ih ht' (not_deep_of_mem hdeep hf)
    exact ⟨t'', hsort, ht'.trans (sameNodes_sort hsort)⟩

theorem SameNodes.byParent (h : SameNodes (Nodes.ofFolders folders) t) :
    ByParent (·.id) (parentIn folders) folders t.foldersIn := by
  refine (Console.byParent hids).of_perm fun l => ?_
  have hperm := (h.list l).filterMap t.folder
  rw [list_ofFolders hids, List.filterMap_map] at hperm
  have hsome : ∀ f ∈ childrenIn folders l, (t.folder ∘ fun f => f.id) f = some f := fun f hf =>
    (h.folder f.id).trans (folder_ofFolders hids (List.mem_filter.mp hf).1)
  rwa [List.filterMap_congr hsome, List.filterMap_some] at hperm

/-- What is seen of a list of nodes. -/
theorem SameNodes.reads (h : SameNodes (Nodes.ofFolders folders) t)
    (hdeep : ¬Deep t.foldersIn (fun f => some f.id) fuel l) :
    Reads t (t.list l) (grow t.foldersIn (fun f => some f.id) (fun _ => false) fuel l) := by
  induction fuel generalizing l with
  | zero => exact absurd trivial hdeep
  | succ fuel ih =>
    suffices hids' : ∀ ids, ids ⊆ t.list l → Reads t ids ((ids.filterMap t.folder).flatMap
        fun f => [node f (grow t.foldersIn (fun f => some f.id) (fun _ => false) fuel
          (some f.id))]) from
      hids' _ (List.Subset.refl _)
    intro ids hsub
    induction ids with
    | nil => exact .nil
    | cons id ids ihids =>
      obtain ⟨hid, hrest⟩ := List.cons_subset.mp hsub
      obtain ⟨f, -, rfl, hfolder⟩ := h.exists_folder hids hid
      obtain ⟨n, hget, rfl⟩ := Option.map_eq_some_iff.mp hfolder
      have hmem : n.toTFolder ∈ t.foldersIn l := List.mem_filterMap.mpr ⟨_, hid, hfolder⟩
      have hbelow := ih (not_deep_of_mem hdeep hmem)
      rw [Nodes.list, hget] at hbelow
      rw [List.filterMap_cons_some hfolder, List.flatMap_cons]
      exact .cons hget hbelow (ihids hrest)

omit hids in
theorem parentIn_eq_some {f : TFolder} {i : String} : parentIn folders f = some i ↔
    f.parentFolderId = some i ∧ i ≠ "" ∧ i ∈ folders.map (·.id) := by
  rw [parentIn, Option.filter_eq_some_iff, Bool.and_eq_true, bne_iff_ne, decide_eq_true_iff]

omit hids in
theorem parentIn_eq_some_iff {p f : TFolder} (hp : p ∈ folders) :
    parentIn folders f = some p.id ↔ NamesById p f := by
  rw [parentIn_eq_some, NamesById]
  exact and_congr_right fun _ => and_iff_left (List.mem_map_of_mem hp)

omit hids in
/-- Without cycles every folder has a chain of parents. -/
theorem exists_chain (hacyclic : Forest.Acyclic (·.id) (·.parentFolderId) folders) {f : TFolder}
    (hf : f ∈ folders) : ∃ chain, Forest.Chain (·.id) (parentIn folders) folders f chain := by
  refine (hacyclic.of_imp fun f i hi => (parentIn_eq_some.mp hi).1).exists_chain ?_ hf
  intro f hf i hi
  exact List.mem_map.mp (parentIn_eq_some.mp hi).2.2

/-- What is seen of the roots has every folder in its place. -/
theorem SameNodes.places (h : SameNodes (Nodes.ofFolders folders) t)
    (hacyclic : Forest.Acyclic (·.id) (·.parentFolderId) folders)
    (hfuel : folders.length < fuel) :
    Places NamesById folders
      (grow t.foldersIn (fun f => some f.id) (fun _ => false) fuel none) := by
  have hby := h.byParent hids
  have hdeep := hby.not_deep hfuel
  have honce : (labels (grow t.foldersIn (fun f => some f.id) (fun _ => false) fuel none)).Perm
      folders := by
    refine (List.perm_ext_iff_of_nodup (hby.nodup_labels_grow .root)
      (List.Nodup.of_map _ hids)).mpr fun f => ?_
    rw [mem_labels_grow hdeep, hby.reach_iff_chain]
    constructor
    · rintro ⟨⟨chain, hchain⟩, -⟩
      exact hchain.mem_nodes
    · exact fun hf => ⟨exists_chain hacyclic hf, .inl rfl⟩
  refine ⟨honce, fun p hp f hf hnames => ?_, fun f hf hroot => ?_⟩
  · obtain ⟨below, hsub⟩ := Sub.exists_of_mem (honce.mem_iff.mpr hp)
    obtain ⟨fuel', rfl, -, hdeep'⟩ := hsub.of_grow
    refine ⟨_, hsub, ?_⟩
    rw [map_label_grow_keep (fun _ => rfl) (hdeep' hdeep)]
    exact hby.mem.mpr ⟨hf, (parentIn_eq_some_iff hp).mpr hnames⟩
  · rw [map_label_grow_keep (fun _ => rfl) hdeep]
    refine hby.mem.mpr ⟨hf, Option.eq_none_iff_forall_ne_some.mpr fun i hi => ?_⟩
    obtain ⟨p, hp, rfl⟩ := List.mem_map.mp (parentIn_eq_some.mp hi).2.2
    exact hroot p hp ((parentIn_eq_some_iff hp).mp hi)

end Sorting

/-- In whatever order folders are listed, and whatever names are compared by: if their ids differ
and no folder is below itself, the tree has every folder once, under its parent if that is listed,
by an id that is not empty, and among the roots otherwise. -/
theorem buildTree_places (localeCompare : String → String → ℤ) (folders : List TFolder)
    (hids : (folders.map (·.id)).Nodup)
    (hacyclic : Forest.Acyclic (·.id) (·.parentFolderId) folders) :
    ∃ t forest, (∀ fuel, folders.length < fuel → buildTree localeCompare fuel folders = some t) ∧
      Reads t t.roots forest ∧ Places NamesById folders forest := by
  have hlt := Nat.lt_succ_self folders.length
  obtain ⟨t, hsort⟩ : ∃ t, buildTree localeCompare (folders.length + 1) folders = some t :=
    sort_total hids ⟨fun _ => rfl, fun _ => .refl _⟩ ((byParent hids).not_deep hlt)
  have hsame := sameNodes_sort hsort
  exact ⟨t, _, fun fuel hfuel => sort_of_le hsort hfuel,
    hsame.reads hids ((hsame.byParent hids).not_deep hlt), hsame.places hids hacyclic hlt⟩

/-! ### By name -/

/-- `localeCompare` orders the names. -/
structure Consistent (localeCompare : String → String → ℤ) : Prop where
  total : ∀ a b, localeCompare a b ≤ 0 ∨ localeCompare b a ≤ 0
  trans : ∀ a b c, localeCompare a b ≤ 0 → localeCompare b c ≤ 0 → localeCompare a c ≤ 0

/-- A list of nodes is in the order of their names. -/
def Nodes.Ordered (localeCompare : String → String → ℤ) (t : Nodes) (l : Option String) : Prop :=
  (t.list l).Pairwise fun a b => localeCompare (t.name a) (t.name b) ≤ 0

section ByName

variable {localeCompare : String → String → ℤ} (hcompare : Consistent localeCompare) {fuel : ℕ}
  {l l' : Option String} {t t' : Nodes}
include hcompare

/-- The list that is sorted is in order after it. -/
theorem ordered_byName : (t.modifyList l (t.byName localeCompare)).Ordered localeCompare l := by
  have hsorted : ∀ nodes, (t.byName localeCompare nodes).Pairwise fun a b =>
      localeCompare (t.name a) (t.name b) ≤ 0 :=
    fun nodes => @List.pairwise_insertionSort _
      (fun a b => localeCompare (t.name a) (t.name b) ≤ 0) _ ⟨fun a b => hcompare.total _ _⟩
      ⟨fun _ _ _ h h' => hcompare.trans _ _ _ h h'⟩ nodes
  rw [Nodes.Ordered]
  simp only [Nodes.name_modifyList]
  cases l with
  | none => exact hsorted _
  | some k =>
    rw [Nodes.list, Nodes.modifyList, get?_modify, if_pos rfl]
    cases get? t.nodeMap k with
    | none => exact .nil
    | some n => exact hsorted _

/-- The other lists stay in order. -/
theorem Nodes.Ordered.byName (h : t.Ordered localeCompare l') :
    (t.modifyList l (t.byName localeCompare)).Ordered localeCompare l' := by
  by_cases hl : l' = l
  · subst hl
    exact ordered_byName hcompare
  · rw [Nodes.Ordered, t.list_modifyList_ne _ hl]
    simp only [Nodes.name_modifyList]
    exact h

theorem Nodes.Ordered.sort (h : t.Ordered localeCompare l')
    (hsort : t.sort localeCompare fuel l = some t') : t'.Ordered localeCompare l' := by
  induction fuel generalizing l t t' with
  | zero => cases hsort
  | succ fuel ih =>
    exact foldlM_keeps (I := fun t => t.Ordered localeCompare l')
      (fun _ _ _ hordered hstep => ih hordered hstep) (h.byName hcompare) hsort

/-- All lists below the one that is sorted are in order after it. -/
theorem ordered_sort {folders : List TFolder} (hids : (folders.map (·.id)).Nodup)
    (h : SameNodes (Nodes.ofFolders folders) t)
    (hsort : t.sort localeCompare fuel l = some t')
    (hl' : l' = l ∨ ∃ f, Reach (childrenIn folders) (fun f => some f.id) l f ∧ l' = some f.id) :
    t'.Ordered localeCompare l' := by
  induction fuel generalizing l t t' with
  | zero => cases hsort
  | succ fuel ih =>
    have hkeeps : ∀ (b : Nodes) (id : String) (b' : Nodes), b.Ordered localeCompare l' →
        b.sort localeCompare fuel (some id) = some b' → b'.Ordered localeCompare l' :=
      fun _ _ _ hordered hstep => hordered.sort hcompare hstep
    rcases hl' with rfl | ⟨f, hreach, rfl⟩
    · exact foldlM_keeps (I := fun t => t.Ordered localeCompare l') hkeeps
        (ordered_byName hcompare) hsort
    · -- the child on the way is sorted in some step
      obtain ⟨b, hb, hf⟩ := reach_iff.mp hreach
      have hsame : SameNodes (Nodes.ofFolders folders)
          (t.modifyList l (t.byName localeCompare)) := h.trans sameNodes_byName
      have hmem := (hsame.list l).mem_iff.mpr (list_ofFolders hids l ▸ List.mem_map_of_mem hb)
      refine foldlM_reaches (I := SameNodes (Nodes.ofFolders folders))
        (J := fun t => t.Ordered localeCompare (some f.id))
        (fun _ _ _ hsame hstep => hsame.trans (sameNodes_sort hstep)) hkeeps hmem ?_ hsame hsort
      intro b₁ b₂ hb₁ hstep
      refine ih hb₁ hstep ?_
      rcases hf with rfl | hf
      · exact .inl rfl
      · exact .inr ⟨f, hf, rfl⟩

omit hcompare in
theorem Nodes.Ordered.foldersIn (h : t.Ordered localeCompare l) :
    (t.foldersIn l).Pairwise fun f g => localeCompare f.name g.name ≤ 0 := by
  refine List.Pairwise.filterMap t.folder (fun a b hab f hf g hg => ?_) h
  rw [Nodes.name, Nodes.name, Option.mem_def.mp hf, Option.mem_def.mp hg] at hab
  exact hab

/-- Where `localeCompare` orders the names, siblings are in the order of their names. -/
theorem siblings_byName {folders : List TFolder} (hids : (folders.map (·.id)).Nodup)
    (hfuel : folders.length < fuel) (hbuild : buildTree localeCompare fuel folders = some t)
    {forest : List (Rose TFolder)} (hreads : Reads t t.roots forest) :
    (forest.map label).Pairwise (fun f g => localeCompare f.name g.name ≤ 0) ∧
      ∀ p below, Sub forest (node p below) →
        (below.map label).Pairwise fun f g => localeCompare f.name g.name ≤ 0 := by
  have hstart : SameNodes (Nodes.ofFolders folders) (Nodes.ofFolders folders) :=
    ⟨fun _ => rfl, fun _ => .refl _⟩
  have hsame := sameNodes_sort hbuild
  have hby := hsame.byParent hids
  have hdeep := hby.not_deep hfuel
  obtain rfl := hreads.unique (hsame.reads hids hdeep)
  constructor
  · rw [map_label_grow_keep (fun _ => rfl) hdeep]
    exact (ordered_sort hcompare hids hstart hbuild (.inl rfl)).foldersIn
  · intro p below hsub
    have hp := (mem_labels_grow hdeep).mp (hsub.subset List.mem_cons_self)
    have hreach := (byParent hids).reach_iff_chain.mpr (hby.reach_iff_chain.mp hp.1)
    obtain ⟨fuel', rfl, -, hdeep'⟩ := hsub.of_grow
    rw [map_label_grow_keep (fun _ => rfl) (hdeep' hdeep)]
    exact (ordered_sort hcompare hids hstart hbuild (.inr ⟨p, hreach, rfl⟩)).foldersIn

end ByName

/-! ### Two lists of folders -/

/-- Names as they are spelled. -/
def compareSpelled (a b : String) : ℤ :=
  if a < b then -1 else if b < a then 1 else 0

/-- A folder of the project `site`. -/
def siteFolder (id : String) (parentFolderId : Option String) (name path : String) : TFolder where
  id
  organizationId := "acme"
  projectId := "site"
  parentFolderId
  name
  path
  createdAt := "2026-01-01T00:00:00Z"

def docs : TFolder := siteFolder "f1" none "docs" "docs"

def drafts : TFolder := siteFolder "f2" (some "f1") "drafts" "docs/drafts"

def archive : TFolder := siteFolder "f4" (some "f3") "archive" "old/archive"

/-- What is built of them. -/
def siteTree : Nodes where
  nodeMap := [("f2", drafts.node), ("f1", { docs.node with children := ["f2"] }),
    ("f4", archive.node)]
  roots := ["f4", "f1"]

theorem reads_siteTree :
    Reads siteTree siteTree.roots [node archive [], node docs [node drafts []]] := by
  have hdrafts : Reads siteTree ["f2"] [node drafts []] :=
    .cons (n := drafts.node) rfl .nil .nil
  have hdocs : Reads siteTree ["f1"] [node docs [node drafts []]] :=
    .cons (n := { docs.node with children := ["f2"] }) rfl hdrafts .nil
  exact .cons (n := archive.node) rfl .nil hdocs

theorem compareSpelled_le_iff {a b : String} : compareSpelled a b ≤ 0 ↔ a ≤ b := by
  rw [← String.not_lt]
  unfold compareSpelled
  by_cases hab : a < b
  · simp [hab, String.lt_asymm hab]
  · by_cases hba : b < a
    · simp [hab, hba]
    · simp [hab, hba]

theorem consistent_compareSpelled : Consistent compareSpelled where
  total a b := by
    simp only [compareSpelled_le_iff]
    exact String.le_total a b
  trans a b c := by
    simp only [compareSpelled_le_iff]
    exact String.le_trans

/-- The siblings are listed in another order than that of their names. -/
theorem siblings_byName_site :
    [archive, docs].Pairwise (fun f g => compareSpelled f.name g.name ≤ 0) :=
  (siblings_byName consistent_compareSpelled (by decide) (show 3 < 4 by decide)
    (show buildTree compareSpelled 4 [drafts, docs, archive] = some siteTree from rfl)
    reads_siteTree).1

/-- A child is listed before its parent, and the parent of another is not listed. -/
theorem places_siteFolders :
    Places NamesById [drafts, docs, archive] [node archive [], node docs [node drafts []]] := by
  obtain ⟨t, forest, hbuild, hreads, hplaces⟩ :=
    buildTree_places compareSpelled [drafts, docs, archive] (by decide)
      (Forest.acyclic_of_rank (fun id => if id = "f2" ∨ id = "f4" then 1 else 0) (by decide))
  have ht : some siteTree = some t := hbuild 4 (by decide)
  cases ht
  rwa [hreads.unique reads_siteTree] at hplaces

/-- A folder with an empty id. -/
def unnamed : TFolder := siteFolder "" none "docs" "docs"

def inUnnamed : TFolder := siteFolder "f1" (some "") "drafts" "docs/drafts"

/-- What is built of them. -/
def unnamedTree : Nodes where
  nodeMap := [("", unnamed.node), ("f1", inUnnamed.node)]
  roots := ["", "f1"]

theorem reads_unnamedTree :
    Reads unnamedTree unnamedTree.roots [node unnamed [], node inUnnamed []] := by
  have hinUnnamed : Reads unnamedTree ["f1"] [node inUnnamed []] :=
    .cons (n := inUnnamed.node) rfl .nil .nil
  exact .cons (n := unnamed.node) rfl .nil hinUnnamed

theorem eq_unnamedTree {fuel : ℕ} {t : Nodes}
    (h : buildTree compareSpelled fuel [unnamed, inUnnamed] = some t) : t = unnamedTree := by
  cases fuel with
  | zero => cases h
  | succ fuel =>
    cases fuel with
    | zero => cases h
    | succ fuel =>
      have ht : some unnamedTree = some t := h
      exact (Option.some.inj ht).symm

/-- Trees of one node each have nothing below. -/
theorem below_eq_nil {forest : List (Rose TFolder)} (h : ∀ t ∈ forest, ∃ f, t = node f [])
    {p : TFolder} {below : List (Rose TFolder)} (hsub : Sub forest (node p below)) :
    below = [] := by
  generalize ht : node p below = t at hsub
  induction hsub generalizing p below with
  | root hmem =>
    obtain ⟨f, rfl⟩ := h _ hmem
    cases ht
    rfl
  | down _ hmem ih =>
    rw [ih rfl] at hmem
    cases hmem

/-- A folder is not under its parent if the id of the parent is empty. -/
theorem child_of_unnamed_misplaced :
    ¬∀ (localeCompare : String → String → ℤ) (folders : List TFolder),
      (folders.map (·.id)).Nodup → Forest.Acyclic (·.id) (·.parentFolderId) folders →
        ∃ fuel t forest, buildTree localeCompare fuel folders = some t ∧
          Reads t t.roots forest ∧ Places Names folders forest := by
  intro hall
  obtain ⟨fuel, t, forest, hbuild, hreads, hplaces⟩ :=
    hall compareSpelled [unnamed, inUnnamed] (by decide)
      (Forest.acyclic_of_rank (fun id => id.length) (by decide))
  obtain ⟨below, hsub, hmem⟩ := hplaces.child unnamed List.mem_cons_self inUnnamed
    (List.mem_cons_of_mem _ List.mem_cons_self) rfl
  obtain rfl := eq_unnamedTree hbuild
  rw [hreads.unique reads_unnamedTree] at hsub
  have hnil := below_eq_nil (fun t ht => by
    rcases List.mem_pair.mp ht with rfl | rfl
    · exact ⟨unnamed, rfl⟩
    · exact ⟨inUnnamed, rfl⟩) hsub
  rw [hnil] at hmem
  cases hmem

end Console

end FileNest
