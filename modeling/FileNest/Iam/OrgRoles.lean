import FileNest.Iam.ActiveRole
import FileNest.Iam.PermissionKeys
import FileNest.Iam.RolePermissions

/-!
# The roles of an organisation

Administrators create, update and delete the roles of an organisation; a new organisation gets the
role of its owner.  An update writes to the first row of the role that the database comes upon.
Nothing keeps a role from having several rows, and members have the permissions of all of them.

## Main definitions

* `RoleTable`, `RoleEvent`, `RoleTable.step` — the roles on record, and what is done to them.
* `TakesEffect` — an update gives the members of a role what it says.
* `OthersGrantLess` — what an update must meet.
* `CreatedOnce` — a role is created where it has no row.

## Main results

* `updates_take_effect_iff` — **every update takes effect exactly if no other row of its role
  grants more.**
* `updates_take_effect_of_once` — it does while no role is created twice.
-/

namespace FileNest

namespace Iam

open Trace

/-! ### The roles of the organisations -/

/-- The organisations and their roles; ids are of one row, and a row is of an organisation that is
on record. -/
structure RoleTable where
  organizations : List String
  /-- Those whose `afterCreateOrganization` has not run yet. -/
  unseeded : List String
  rows : List RoleRow
  ids : (rows.map (·.id)).Nodup
  organization : ∀ row ∈ rows, row.organizationId ∈ organizations

/-- The payload of `createOrgRole` and of `updateOrgRole`. -/
structure OrgRolePayload where
  organizationId : String
  role : String
  permissions : List String

/-- The answer to both, but for the time the role was created. -/
structure OrgRole where
  role : String
  permissions : List String

namespace RoleTable

variable (t : RoleTable)

/-- The rows of a role. -/
def matching (organizationId role : String) : List RoleRow :=
  t.rows.filter fun row => row.organizationId = organizationId ∧ row.role = role

/-- `findFirst`, without `orderBy`: `choice` stands for the row the database comes upon first. -/
def findFirst (organizationId role : String) (choice : ℕ) : Option RoleRow :=
  (t.matching organizationId role)[choice % (t.matching organizationId role).length]?

/-- `organizationRole.create`, which the database may refuse. -/
def insert (row : RoleRow) : Option RoleTable :=
  if h : (∀ found ∈ t.rows, found.id ≠ row.id) ∧ row.organizationId ∈ t.organizations then
    some
      { t with
        rows := t.rows ++ [row]
        ids := by
          rw [List.map_append, List.nodup_append]
          refine ⟨t.ids, List.nodup_singleton _, fun i hi j hj => ?_⟩
          obtain ⟨found, hfound, rfl⟩ := List.mem_map.mp hi
          rw [List.map_singleton, List.mem_singleton] at hj
          exact hj ▸ h.1 found hfound
        organization := by
          intro found hfound
          obtain hfound | hfound := List.mem_append.mp hfound
          · exact t.organization found hfound
          · rw [List.mem_singleton.mp hfound]
            exact h.2 }
  else none

/-- `organizationRole.update`, of the row with an id. -/
def setPermission (id : String) (permission : Option (List (String × List String))) : RoleTable :=
  { t with
    rows := t.rows.map fun row => if row.id = id then { row with permission } else row
    ids := by
      have hkept : ((fun row : RoleRow => row.id) ∘
          fun row => if row.id = id then { row with permission } else row) = fun row => row.id := by
        funext row
        simp only [Function.comp_apply]
        split <;> rfl
      rw [List.map_map, hkept]
      exact t.ids
    organization := by
      intro row hrow
      obtain ⟨before, hbefore, rfl⟩ := List.mem_map.mp hrow
      split <;> exact t.organization before hbefore }

/-- `createOrgRole`; `id` is a `randomUUID`. -/
def createOrgRole (payload : OrgRolePayload) (id : String) : Option (RoleTable × OrgRole) := do
  let permission ← orgPermissionKeysToJson payload.permissions
  let t' ← t.insert ⟨⟨payload.organizationId, payload.role, some permission⟩, id⟩
  return (t', ⟨payload.role, payload.permissions⟩)

/-- `updateOrgRole` -/
def updateOrgRole (payload : OrgRolePayload) (choice : ℕ) (id : String) :
    Option (RoleTable × OrgRole) := do
  let existing := t.findFirst payload.organizationId payload.role choice
  let permissionJson ← orgPermissionKeysToJson payload.permissions
  let t' ← match existing with
    | some existing => some (t.setPermission existing.id permissionJson)
    | none => t.insert ⟨⟨payload.organizationId, payload.role, some permissionJson⟩, id⟩
  return (t', ⟨payload.role, payload.permissions⟩)

/-- `deleteOrgRole`, which answers `success`. -/
def deleteOrgRole (organizationId role : String) : RoleTable × Bool :=
  ({ t with
    rows := t.rows.filter fun row => ¬(row.organizationId = organizationId ∧ row.role = role)
    ids := t.ids.sublist (List.filter_sublist.map _)
    organization := fun row hrow => t.organization row (List.mem_of_mem_filter hrow) }, true)

/-- The plugin creates an organisation. -/
def createOrganization (organizationId : String) : RoleTable :=
  if organizationId ∈ t.organizations then t
  else
    { t with
      organizations := t.organizations ++ [organizationId]
      unseeded := t.unseeded ++ [organizationId]
      organization := fun row hrow => List.mem_append_left _ (t.organization row hrow) }

/-- `afterCreateOrganization`, which seeds the owner. -/
def afterCreateOrganization (organizationId id : String) : Option RoleTable := do
  let permission ← orgPermissionKeysToJson ownerPermissions
  ({ t with unseeded := t.unseeded.erase organizationId } : RoleTable).insert
    ⟨⟨organizationId, "owner", some permission⟩, id⟩

end RoleTable

/-- What is done to the roles. -/
inductive RoleEvent where
  | createOrganization (organizationId : String)
  | afterCreateOrganization (organizationId id : String)
  | createOrgRole (payload : OrgRolePayload) (id : String)
  | updateOrgRole (payload : OrgRolePayload) (choice : ℕ) (id : String)
  | deleteOrgRole (organizationId role : String)

/-- One event; what throws leaves the table as it is. -/
def RoleTable.step (t : RoleTable) : RoleEvent → RoleTable
  | .createOrganization organizationId => t.createOrganization organizationId
  | .afterCreateOrganization organizationId id =>
      -- once for every organisation
      if organizationId ∈ t.unseeded then
        (t.afterCreateOrganization organizationId id).getD
          { t with unseeded := t.unseeded.erase organizationId }
      else t
  | .createOrgRole payload id => ((t.createOrgRole payload id).map Prod.fst).getD t
  | .updateOrgRole payload choice id => ((t.updateOrgRole payload choice id).map Prod.fst).getD t
  | .deleteOrgRole organizationId role => (t.deleteOrgRole organizationId role).1

/-- The tables `getUserPermissions` reads. -/
def RoleTable.toState (t : RoleTable) (members : List Member) : State where
  members
  organizationRoles := t.rows.map RoleRow.toOrganizationRole

/-- The membership lists the role, and no other. -/
def OnlyRole (m : Member) (role : String) : Prop :=
  rolesOf m.role ≠ [] ∧ ∀ r ∈ rolesOf m.role, r = role

/-- An update that succeeds gives every member whose only role it is the permissions it names. -/
def TakesEffect (t : RoleTable) : RoleEvent → Prop
  | .updateOrgRole payload choice id => ∀ t' answer,
      t.updateOrgRole payload choice id = some (t', answer) →
        ∀ members userId m, (t'.toState members).member userId payload.organizationId = some m →
          OnlyRole m payload.role →
            ∀ key, key ∈ getUserPermissions (t'.toState members) userId payload.organizationId ↔
              key ∈ payload.permissions ∧ WellFormedKey key
  | _ => True

/-- What an update must meet, if its permissions can be written and its role is one a member can
have: the rows of the role beside the one that is updated grant no more than it will. -/
def OthersGrantLess (t : RoleTable) : RoleEvent → Prop
  | .updateOrgRole payload choice _ =>
      rolesOf payload.role = [payload.role] → (∀ key ∈ payload.permissions, ¬ClashingKey key) →
        ∀ first, t.findFirst payload.organizationId payload.role choice = some first →
          ∀ row ∈ t.matching payload.organizationId payload.role, row.id ≠ first.id →
            ∀ key ∈ orgPermissionJsonToKeys row.permission,
              key ∈ payload.permissions ∧ WellFormedKey key
  | _ => True

/-- A role is created where it has no row. -/
def CreatedOnce (t : RoleTable) : RoleEvent → Prop
  | .afterCreateOrganization organizationId _ => t.matching organizationId "owner" = []
  | .createOrgRole payload _ => t.matching payload.organizationId payload.role = []
  | _ => True

/-- Every role has one row. -/
def RoleTable.Single (t : RoleTable) : Prop :=
  ∀ row ∈ t.rows, ∀ row' ∈ t.rows, row.organizationId = row'.organizationId →
    row.role = row'.role → row.id = row'.id

/-! ### Members of one role -/

/-- A role that a membership lists can be all of it. -/
theorem rolesOf_of_mem {rawRole role : String} (h : role ∈ rolesOf rawRole) :
    rolesOf role = [role] := by
  obtain ⟨hmem, hne⟩ := List.mem_filter.mp h
  obtain ⟨piece, hpiece, rfl⟩ := List.mem_map.mp hmem
  have hcomma : ',' ∉ (Text.trim piece).toList := by
    rw [Text.trim, Text.mem_stripBy (by decide)]
    exact Text.notMem_of_mem_split hpiece
  have hsplit : Text.split ',' (Text.trim piece) = [Text.trim piece] := by
    rw [Text.split, Text.splitChars_of_notMem hcomma, List.map_singleton, String.ofList_toList]
  have htrim : Text.trim (Text.trim piece) = Text.trim piece := Text.stripBy_stripBy _ _
  rw [rolesOf, hsplit, List.map_singleton, htrim, List.filter_singleton, hne]
  rfl

theorem exists_onlyRole_iff {role : String} :
    (∃ m, OnlyRole m role) ↔ rolesOf role = [role] := by
  constructor
  · rintro ⟨m, hne, honly⟩
    obtain ⟨r, hr⟩ := List.exists_mem_of_ne_nil _ hne
    obtain rfl := honly r hr
    exact rolesOf_of_mem hr
  · intro h
    refine ⟨⟨"", "", role⟩, ?_, ?_⟩
    · rw [h]
      exact List.cons_ne_nil _ _
    · rw [h]
      exact fun r hr => List.mem_singleton.mp hr

theorem OnlyRole.mem_iff {m : Member} {role r : String} (h : OnlyRole m role) :
    r ∈ rolesOf m.role ↔ r = role := by
  refine ⟨h.2 r, ?_⟩
  rintro rfl
  obtain ⟨r', hr'⟩ := List.exists_mem_of_ne_nil _ h.1
  exact h.2 r' hr' ▸ hr'

namespace RoleTable

section Rows

variable {t t' : RoleTable} {organizationId role id key : String} {row first : RoleRow}
variable {choice : ℕ}

theorem mem_matching :
    row ∈ t.matching organizationId role
      ↔ row ∈ t.rows ∧ row.organizationId = organizationId ∧ row.role = role := by
  simp [matching]

theorem eq_of_id (ht : row ∈ t.rows) (hfirst : first ∈ t.rows) (hid : row.id = first.id) :
    row = first :=
  List.inj_on_of_nodup_map t.ids ht hfirst hid

theorem mem_of_findFirst (h : t.findFirst organizationId role choice = some first) :
    first ∈ t.matching organizationId role :=
  List.mem_of_getElem? h

theorem findFirst_eq_none :
    t.findFirst organizationId role choice = none ↔ t.matching organizationId role = [] := by
  unfold findFirst
  rw [List.getElem?_eq_none_iff, ← List.length_eq_zero_iff]
  constructor
  · intro h
    by_contra hne
    exact absurd (Nat.mod_lt choice (Nat.pos_of_ne_zero hne)) (not_lt.mpr h)
  · intro h
    rw [h]
    exact Nat.zero_le _

theorem insert_eq_some (h : t.insert row = some t') :
    t'.rows = t.rows ++ [row] ∧ ∀ found ∈ t.rows, found.id ≠ row.id := by
  unfold insert at h
  split at h
  · rename_i hok
    cases h
    exact ⟨rfl, hok.1⟩
  · cases h

/-- The permissions of a member of one role are those of its rows. -/
theorem mem_getUserPermissions {members : List Member} {userId : String} {m : Member}
    (hm : (t.toState members).member userId organizationId = some m) (honly : OnlyRole m role)
    (hrow : ∃ row, row ∈ t.matching organizationId role) :
    key ∈ getUserPermissions (t.toState members) userId organizationId ↔
      ∃ row ∈ t.matching organizationId role, key ∈ orgPermissionJsonToKeys row.permission := by
  have hrows : ∀ (P : OrganizationRole → Prop),
      (∃ r ∈ (t.toState members).organizationRoles,
        (r.organizationId = organizationId ∧ r.role ∈ rolesOf m.role) ∧ P r)
      ↔ ∃ row ∈ t.matching organizationId role, P row.toOrganizationRole := by
    intro P
    simp only [toState, List.mem_map, honly.mem_iff, mem_matching, and_assoc,
      exists_exists_and_eq_and]
  have hrec : OnRecord (t.toState members).organizationRoles organizationId (rolesOf m.role) := by
    obtain ⟨r, hr, hmatch, -⟩ := (hrows fun _ => True).mpr (by simpa using hrow)
    exact ⟨r, hr, hmatch⟩
  rw [getUserPermissions_of_member hm, mem_rolePermissions_of_onRecord hrec]
  exact hrows fun r => key ∈ orgPermissionJsonToKeys r.permission

theorem mem_matching_setPermission (hfirst : first ∈ t.matching organizationId role)
    (permission : Option (List (String × List String))) :
    { first with permission } ∈ (t.setPermission first.id permission).matching organizationId
      role := by
  obtain ⟨hmem, horg, hrole⟩ := mem_matching.mp hfirst
  exact mem_matching.mpr ⟨List.mem_map.mpr ⟨first, hmem, if_pos rfl⟩, horg, hrole⟩

/-- What the rows of a role grant after one of them is updated. -/
theorem exists_matching_setPermission (hfirst : first ∈ t.matching organizationId role)
    {permission : Option (List (String × List String))} :
    (∃ row ∈ (t.setPermission first.id permission).matching organizationId role,
        key ∈ orgPermissionJsonToKeys row.permission) ↔
      key ∈ orgPermissionJsonToKeys permission ∨
        ∃ row ∈ t.matching organizationId role, row.id ≠ first.id ∧
          key ∈ orgPermissionJsonToKeys row.permission := by
  constructor
  · rintro ⟨row, hrow, hkey⟩
    obtain ⟨hrow, horg', hrole'⟩ := mem_matching.mp hrow
    obtain ⟨before, hbefore, rfl⟩ := List.mem_map.mp hrow
    by_cases hid : before.id = first.id
    · rw [if_pos hid] at hkey
      exact .inl hkey
    · rw [if_neg hid] at horg' hrole' hkey
      exact .inr ⟨before, mem_matching.mpr ⟨hbefore, horg', hrole'⟩, hid, hkey⟩
  · rintro (hkey | ⟨row, hrow, hid, hkey⟩)
    · exact ⟨_, mem_matching_setPermission hfirst permission, hkey⟩
    · obtain ⟨hrow, horg', hrole'⟩ := mem_matching.mp hrow
      refine ⟨row, mem_matching.mpr ⟨?_, horg', hrole'⟩, hkey⟩
      exact List.mem_map.mpr ⟨row, hrow, if_neg hid⟩

/-- What an update that succeeds has done. -/
theorem updateOrgRole_eq_some {payload : OrgRolePayload} {answer : OrgRole}
    (h : t.updateOrgRole payload choice id = some (t', answer)) :
    ∃ json, orgPermissionKeysToJson payload.permissions = some json ∧
      ((∃ first, t.findFirst payload.organizationId payload.role choice = some first ∧
          t' = t.setPermission first.id json) ∨
        t.matching payload.organizationId payload.role = [] ∧
          t.insert ⟨⟨payload.organizationId, payload.role, some json⟩, id⟩ = some t') := by
  simp only [updateOrgRole, Option.bind_eq_bind, Option.bind_eq_some_iff] at h
  obtain ⟨json, hjson, h⟩ := h
  refine ⟨json, hjson, ?_⟩
  cases hfirst : t.findFirst payload.organizationId payload.role choice with
  | none =>
    rw [hfirst] at h
    obtain ⟨next, hnext, hanswer⟩ := Option.bind_eq_some_iff.mp h
    obtain ⟨rfl, -⟩ := Prod.mk.inj (Option.some.inj hanswer)
    exact .inr ⟨findFirst_eq_none.mp hfirst, hnext⟩
  | some first =>
    rw [hfirst] at h
    exact .inl ⟨first, rfl, (Prod.mk.inj (Option.some.inj h)).1.symm⟩

/-- An update of a role that has rows. -/
theorem updateOrgRole_of_findFirst {payload : OrgRolePayload} {json : List (String × List String)}
    (hjson : orgPermissionKeysToJson payload.permissions = some json)
    (hfirst : t.findFirst payload.organizationId payload.role choice = some first) :
    t.updateOrgRole payload choice id
      = some (t.setPermission first.id json, ⟨payload.role, payload.permissions⟩) := by
  simp only [updateOrgRole, hjson, hfirst]
  rfl

end Rows

end RoleTable

/-! ### Updates -/

section Updates

variable {t t' : RoleTable}

/-- A role that was updated has a row. -/
theorem RoleTable.matching_of_update {payload : OrgRolePayload} {choice : ℕ} {id : String}
    {answer : OrgRole} (h : t.updateOrgRole payload choice id = some (t', answer)) :
    ∃ row, row ∈ t'.matching payload.organizationId payload.role := by
  obtain ⟨json, -, ⟨first, hfirst, rfl⟩ | ⟨-, hinsert⟩⟩ := updateOrgRole_eq_some h
  · exact ⟨_, mem_matching_setPermission (mem_of_findFirst hfirst) json⟩
  · refine ⟨⟨⟨payload.organizationId, payload.role, some json⟩, id⟩,
      mem_matching.mpr ⟨?_, rfl, rfl⟩⟩
    rw [(insert_eq_some hinsert).1]
    exact List.mem_append_right _ (List.mem_singleton_self _)

/-- What the rows of a role grant after an update of it that succeeds. -/
theorem RoleTable.exists_matching_of_update {payload : OrgRolePayload} {choice : ℕ} {id : String}
    {answer : OrgRole} (h : t.updateOrgRole payload choice id = some (t', answer)) (key : String) :
    (∃ row ∈ t'.matching payload.organizationId payload.role,
        key ∈ orgPermissionJsonToKeys row.permission) ↔
      key ∈ payload.permissions ∧ WellFormedKey key ∨
        ∃ first, t.findFirst payload.organizationId payload.role choice = some first ∧
          ∃ row ∈ t.matching payload.organizationId payload.role, row.id ≠ first.id ∧
            key ∈ orgPermissionJsonToKeys row.permission := by
  obtain ⟨json, hjson, hdone⟩ := updateOrgRole_eq_some h
  rw [← (orgPermissionKeysToJson_eq_some hjson).2 key]
  obtain ⟨first, hfirst, rfl⟩ | ⟨hnone, hinsert⟩ := hdone
  · rw [exists_matching_setPermission (mem_of_findFirst hfirst), hfirst]
    simp only [Option.some.injEq, exists_eq_left']
  · obtain ⟨hrows, -⟩ := insert_eq_some hinsert
    have hmatching : t'.matching payload.organizationId payload.role
        = [⟨⟨payload.organizationId, payload.role, some json⟩, id⟩] := by
      unfold matching at hnone ⊢
      rw [hrows, List.filter_append, hnone]
      simp
    rw [hmatching, hnone]
    simp

/-- **An update takes effect exactly if no other row of its role grants more.** -/
theorem takesEffect_iff (t : RoleTable) (e : RoleEvent) :
    TakesEffect t e ↔ OthersGrantLess t e := by
  cases e with
  | updateOrgRole payload choice id =>
    constructor
    · intro h hrole hkeys first hfirst row hrow hid key hkey
      obtain ⟨json, hjson, -⟩ := orgPermissionKeysToJson_of_plain hkeys
      have hupdate : t.updateOrgRole payload choice id = some _ :=
        RoleTable.updateOrgRole_of_findFirst hjson hfirst
      have hafter := (RoleTable.exists_matching_of_update hupdate key).mpr
        (.inr ⟨first, hfirst, row, hrow, hid, hkey⟩)
      -- someone whose only role it is
      let m : Member := ⟨"", payload.organizationId, payload.role⟩
      have hm : ((t.setPermission first.id json).toState [m]).member "" payload.organizationId
          = some m := by
        simp [State.member, RoleTable.toState, m]
      have honly : OnlyRole m payload.role := by
        unfold OnlyRole
        simp [m, hrole]
      exact (h _ _ hupdate [m] "" m hm honly key).mp ((RoleTable.mem_getUserPermissions hm honly
        (RoleTable.matching_of_update hupdate)).mpr hafter)
    · intro h t' answer hupdate members userId m hm honly key
      obtain ⟨json, hjson, -⟩ := RoleTable.updateOrgRole_eq_some hupdate
      have hless := h (exists_onlyRole_iff.mp ⟨m, honly⟩) (orgPermissionKeysToJson_eq_some hjson).1
      rw [RoleTable.mem_getUserPermissions hm honly (RoleTable.matching_of_update hupdate),
        RoleTable.exists_matching_of_update hupdate]
      refine or_iff_left_of_imp ?_
      rintro ⟨first, hfirst, row, hrow, hid, hkey⟩
      exact hless first hfirst row hrow hid key hkey
  | createOrganization | afterCreateOrganization | createOrgRole | deleteOrgRole => exact Iff.rfl

end Updates

/-- **Every update of a run takes effect exactly if no other row of its role grants more.** -/
theorem updates_take_effect_iff (t : RoleTable) (es : List RoleEvent) :
    EachStep RoleTable.step TakesEffect t es ↔ EachStep RoleTable.step OthersGrantLess t es :=
  eachStep_congr takesEffect_iff

/-! ### Roles that are created once -/

section Single

variable {t t' : RoleTable}

theorem RoleTable.Single.insert (h : t.Single) {row : RoleRow}
    (hinsert : t.insert row = some t') (hnone : t.matching row.organizationId row.role = []) :
    t'.Single := by
  have hnew : ∀ found ∈ t.rows, ¬(found.organizationId = row.organizationId
      ∧ found.role = row.role) := by
    intro found hfound hmatch
    have hmem := mem_matching.mpr ⟨hfound, hmatch⟩
    rw [hnone] at hmem
    cases hmem
  intro x hx y hy horg hrole
  rw [(insert_eq_some hinsert).1] at hx hy
  obtain hx | hx := List.mem_append.mp hx <;> obtain hy | hy := List.mem_append.mp hy
  · exact h x hx y hy horg hrole
  · rw [List.mem_singleton.mp hy] at horg hrole
    exact absurd ⟨horg, hrole⟩ (hnew x hx)
  · rw [List.mem_singleton.mp hx] at horg hrole
    exact absurd ⟨horg.symm, hrole.symm⟩ (hnew y hy)
  · rw [List.mem_singleton.mp hx, List.mem_singleton.mp hy]

theorem RoleTable.Single.setPermission (h : t.Single) (id : String)
    (permission : Option (List (String × List String))) :
    (t.setPermission id permission).Single := by
  -- a row is one from before, but for what it grants
  have hbefore : ∀ x ∈ (t.setPermission id permission).rows, ∃ row ∈ t.rows,
      row.organizationId = x.organizationId ∧ row.role = x.role ∧ row.id = x.id := by
    intro x hx
    obtain ⟨row, hrow, rfl⟩ := List.mem_map.mp hx
    refine ⟨row, hrow, ?_⟩
    split <;> exact ⟨rfl, rfl, rfl⟩
  intro x hx y hy horg hrole
  obtain ⟨row, hrow, hxorg, hxrole, hxid⟩ := hbefore x hx
  obtain ⟨row', hrow', hyorg, hyrole, hyid⟩ := hbefore y hy
  rw [← hxid, ← hyid]
  exact h row hrow row' hrow' (by rw [hxorg, horg, hyorg]) (by rw [hxrole, hrole, hyrole])

/-- A step that creates a role once keeps it so. -/
theorem RoleTable.Single.step (h : t.Single) {e : RoleEvent} (honce : CreatedOnce t e) :
    (t.step e).Single := by
  cases e with
  | createOrganization organizationId =>
    simp only [RoleTable.step, RoleTable.createOrganization]
    split <;> exact h
  | afterCreateOrganization organizationId id =>
    simp only [RoleTable.step]
    split
    · cases hafter : t.afterCreateOrganization organizationId id with
      | none => exact h
      | some t' =>
        simp only [afterCreateOrganization, Option.bind_eq_bind, Option.bind_eq_some_iff] at hafter
        obtain ⟨permission, -, hinsert⟩ := hafter
        have hsame : RoleTable.Single { t with unseeded := t.unseeded.erase organizationId } := h
        exact hsame.insert hinsert honce
    · exact h
  | createOrgRole payload id =>
    simp only [RoleTable.step]
    cases hcreate : t.createOrgRole payload id with
    | none => exact h
    | some created =>
      obtain ⟨permission, -, hcreate⟩ := Option.bind_eq_some_iff.mp hcreate
      obtain ⟨t', hinsert, hanswer⟩ := Option.bind_eq_some_iff.mp hcreate
      obtain rfl := Option.some.inj hanswer
      exact h.insert hinsert honce
  | updateOrgRole payload choice id =>
    simp only [RoleTable.step]
    cases hupdate : t.updateOrgRole payload choice id with
    | none => exact h
    | some updated =>
      obtain ⟨json, -, ⟨first, -, hset⟩ | ⟨hnone, hinsert⟩⟩ := updateOrgRole_eq_some hupdate
      · rw [Option.map_some, Option.getD_some, hset]
        exact h.setPermission first.id json
      · exact h.insert hinsert hnone
  | deleteOrgRole organizationId role =>
    exact fun x hx y hy => h x (List.mem_of_mem_filter hx) y (List.mem_of_mem_filter hy)

/-- Where every role has one row, an update writes to all of it. -/
theorem RoleTable.Single.othersGrantLess (h : t.Single) (e : RoleEvent) : OthersGrantLess t e := by
  cases e with
  | updateOrgRole payload choice id =>
    intro _ _ first hfirst row hrow hid
    obtain ⟨hmem, horg, hrole⟩ := mem_matching.mp hrow
    obtain ⟨hmem', horg', hrole'⟩ := mem_matching.mp (mem_of_findFirst hfirst)
    exact absurd (h row hmem first hmem' (horg.trans horg'.symm) (hrole.trans hrole'.symm)) hid
  | createOrganization | afterCreateOrganization | createOrgRole | deleteOrgRole => exact trivial

/-- While no role is created twice, every update takes effect. -/
theorem updates_take_effect_of_once (h : t.Single) {es : List RoleEvent}
    (honce : EachStep RoleTable.step CreatedOnce t es) :
    EachStep RoleTable.step TakesEffect t es := by
  have hsingle : Throughout RoleTable.step RoleTable.Single t es :=
    honce.throughout (fun _ _ hs hcond => hs.step hcond) h
  exact hsingle.eachStep fun s e hs => (takesEffect_iff s e).mpr (hs.othersGrantLess e)

end Single

/-- No organisation is there. -/
def RoleTable.empty : RoleTable where
  organizations := []
  unseeded := []
  rows := []
  ids := List.nodup_nil
  organization row hrow := by cases hrow

/-- A viewer may read and delete. -/
def viewerRole : OrgRolePayload := ⟨"acme", "viewer", ["files:read", "files:delete"]⟩

/-- The role is created twice, and then is to read only. -/
def viewerRun : List RoleEvent :=
  [.createOrganization "acme", .afterCreateOrganization "acme" "r0",
    .createOrgRole viewerRole "r1", .createOrgRole viewerRole "r2",
    .updateOrgRole { viewerRole with permissions := ["files:read"] } 0 "r3"]

/-- Viewers can still delete. -/
theorem viewers_keep_deleting :
    "files:delete" ∈ getUserPermissions
        ((viewerRun.foldl RoleTable.step RoleTable.empty).toState [⟨"ann", "acme", "viewer"⟩])
        "ann" "acme" ∧
      ¬∀ es, EachStep RoleTable.step TakesEffect RoleTable.empty es := by
  have hkept : "files:delete" ∈ getUserPermissions
      ((viewerRun.foldl RoleTable.step RoleTable.empty).toState [⟨"ann", "acme", "viewer"⟩])
      "ann" "acme" := by decide
  refine ⟨hkept, fun h => ?_⟩
  obtain ⟨-, -, -, -, hupdate, -⟩ := h viewerRun
  have hdelete := hupdate (viewerRun.foldl RoleTable.step RoleTable.empty)
    ⟨"viewer", ["files:read"]⟩ rfl [⟨"ann", "acme", "viewer"⟩] "ann" ⟨"ann", "acme", "viewer"⟩ rfl
    (by unfold OnlyRole; decide) "files:delete"
  exact absurd (hdelete.mp hkept).1 (by decide)

end Iam

end FileNest
