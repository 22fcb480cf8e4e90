import FileNest.Iam.ApiKey

/-!
# What roles grant

A member has the permissions of all rows on record for their roles.  Where none of the roles is
on record, owners have the default permissions, and others have none.

## Main definitions

* `rolesOf`, `rolePermissions` — the roles of a membership, and what roles grant.
* `State.setRole`, `KeepsDefaults` — a member's roles are set, and what that must not take away.

## Main results

* `permissions_monotone_iff` — **more roles grant no less exactly if the default permissions of an
  owner are not lost to the rows of the roles that are added.**
-/

namespace FileNest

namespace Iam

/-! ### The permissions of a membership -/

/-- The roles a membership lists, as `getUserPermissions` reads them. -/
def rolesOf (rawRole : String) : List String :=
  ((Text.split ',' rawRole).map Text.trim).filter (· != "")

/-- A row of one of the roles is on record. -/
def OnRecord (rows : List OrganizationRole) (organizationId : String) (roles : List String) :
    Prop :=
  ∃ row ∈ rows, row.organizationId = organizationId ∧ row.role ∈ roles

/-- A row of one of the roles grants the permission. -/
def Granted (rows : List OrganizationRole) (organizationId : String) (roles : List String)
    (key : String) : Prop :=
  ∃ row ∈ rows, (row.organizationId = organizationId ∧ row.role ∈ roles) ∧
    key ∈ orgPermissionJsonToKeys row.permission

/-- What some roles of an organisation grant. -/
def rolePermissions (rows : List OrganizationRole) (organizationId : String)
    (roles : List String) : List String :=
  let orgRoles := rows.filter fun r => r.organizationId == organizationId && roles.contains r.role
  if orgRoles.isEmpty then if roles.contains "owner" then ownerPermissions else []
  else orgRoles.flatMap fun r => orgPermissionJsonToKeys r.permission

/-- The membership `getUserPermissions` finds. -/
def State.member (st : State) (userId organizationId : String) : Option Member :=
  st.members.find? fun m => m.userId == userId && m.organizationId == organizationId

/-- Sets the roles of the members of a user in an organisation. -/
def State.setRole (st : State) (userId organizationId role : String) : State :=
  { st with
    members := st.members.map fun m =>
      if m.userId = userId ∧ m.organizationId = organizationId then { m with role } else m }

section Permissions

variable {rows : List OrganizationRole} {organizationId userId key : String}
variable {roles roles' : List String} {st : State}

theorem getUserPermissions_of_member {m : Member} (h : st.member userId organizationId = some m) :
    getUserPermissions st userId organizationId
      = rolePermissions st.organizationRoles organizationId (rolesOf m.role) := by
  unfold State.member at h
  unfold getUserPermissions
  rw [h]
  rfl

theorem getUserPermissions_of_not_member (h : st.member userId organizationId = none) :
    getUserPermissions st userId organizationId = [] := by
  unfold State.member at h
  unfold getUserPermissions
  rw [h]

/-- With rows on record, their permissions; … -/
theorem mem_rolePermissions_of_onRecord (h : OnRecord rows organizationId roles) :
    key ∈ rolePermissions rows organizationId roles ↔ Granted rows organizationId roles key := by
  obtain ⟨row, hrow, horg, hrole⟩ := h
  have hmem : row ∈ rows.filter fun r => r.organizationId == organizationId
      && roles.contains r.role := by
    simp [List.mem_filter, hrow, horg, hrole]
  unfold rolePermissions Granted
  rw [if_neg (by simpa using List.ne_nil_of_mem hmem)]
  simp [List.mem_flatMap, List.mem_filter, and_assoc]

/-- … without, the defaults of an owner. -/
theorem rolePermissions_of_not_onRecord (h : ¬OnRecord rows organizationId roles) :
    rolePermissions rows organizationId roles
      = if "owner" ∈ roles then ownerPermissions else [] := by
  have hnil : (rows.filter fun r => r.organizationId == organizationId
      && roles.contains r.role) = [] := by
    refine List.filter_eq_nil_iff.mpr fun row hrow hmatch => h ⟨row, hrow, ?_⟩
    simpa using hmatch
  unfold rolePermissions
  rw [hnil]
  simp

theorem OnRecord.mono (h : OnRecord rows organizationId roles) (hsub : roles ⊆ roles') :
    OnRecord rows organizationId roles' := by
  obtain ⟨row, hrow, horg, hrole⟩ := h
  exact ⟨row, hrow, horg, hsub hrole⟩

theorem Granted.mono (h : Granted rows organizationId roles key) (hsub : roles ⊆ roles') :
    Granted rows organizationId roles' key := by
  obtain ⟨row, hrow, ⟨horg, hrole⟩, hkey⟩ := h
  exact ⟨row, hrow, ⟨horg, hsub hrole⟩, hkey⟩

/-- More roles grant no less, but for the defaults. -/
theorem rolePermissions_subset_iff (hsub : roles ⊆ roles') :
    rolePermissions rows organizationId roles ⊆ rolePermissions rows organizationId roles' ↔
      ("owner" ∈ roles → ¬OnRecord rows organizationId roles →
        OnRecord rows organizationId roles' →
          ∀ key ∈ ownerPermissions, Granted rows organizationId roles' key) := by
  by_cases hrec : OnRecord rows organizationId roles
  · refine iff_of_true (fun key hkey => ?_) fun _ hnot => absurd hrec hnot
    rw [mem_rolePermissions_of_onRecord hrec] at hkey
    exact (mem_rolePermissions_of_onRecord (hrec.mono hsub)).mpr (hkey.mono hsub)
  rw [rolePermissions_of_not_onRecord hrec]
  by_cases howner : "owner" ∈ roles
  · rw [if_pos howner]
    by_cases hrec' : OnRecord rows organizationId roles'
    · constructor
      · intro h _ _ _ key hkey
        exact (mem_rolePermissions_of_onRecord hrec').mp (h hkey)
      · intro h key hkey
        exact (mem_rolePermissions_of_onRecord hrec').mpr (h howner hrec hrec' key hkey)
    · rw [rolePermissions_of_not_onRecord hrec', if_pos (hsub howner)]
      exact iff_of_true (List.Subset.refl _) fun _ _ h => absurd h hrec'
  · rw [if_neg howner]
    exact iff_of_true (List.nil_subset _) fun h => absurd h howner

theorem State.member_setRole (st : State) (userId organizationId role : String) :
    (st.setRole userId organizationId role).member userId organizationId
      = (st.member userId organizationId).map fun m => { m with role } := by
  unfold State.member State.setRole
  rw [List.find?_map]
  have hkept : ((fun m : Member => m.userId == userId && m.organizationId == organizationId) ∘
      fun m => if m.userId = userId ∧ m.organizationId = organizationId then { m with role } else m)
        = fun m => m.userId == userId && m.organizationId == organizationId := by
    funext m
    simp only [Function.comp_apply]
    split <;> rfl
  rw [hkept]
  cases hfind : st.members.find? fun m =>
      m.userId == userId && m.organizationId == organizationId with
  | none => rfl
  | some m =>
    have hm : m.userId = userId ∧ m.organizationId = organizationId := by
      simpa using List.find?_some hfind
    rw [Option.map_some, Option.map_some, if_pos hm]

end Permissions

/-- An owner whose roles are not on record does not lose the default permissions to the roles that
are added. -/
def KeepsDefaults (st : State) (userId organizationId role role' : String) : Prop :=
  (∃ m ∈ st.members, m.userId = userId ∧ m.organizationId = organizationId) →
    "owner" ∈ rolesOf role →
    ¬OnRecord st.organizationRoles organizationId (rolesOf role) →
    OnRecord st.organizationRoles organizationId (rolesOf role') →
      ∀ key ∈ ownerPermissions, Granted st.organizationRoles organizationId (rolesOf role') key

/-- A user has the permissions of their roles, whatever these are set to. -/
theorem getUserPermissions_setRole (st : State) (userId organizationId role : String) :
    getUserPermissions (st.setRole userId organizationId role) userId organizationId
      = (st.member userId organizationId).elim []
          fun _ => rolePermissions st.organizationRoles organizationId (rolesOf role) := by
  have hset := st.member_setRole userId organizationId role
  cases hmember : st.member userId organizationId with
  | none =>
    rw [hmember] at hset
    exact getUserPermissions_of_not_member hset
  | some m =>
    rw [hmember, Option.map_some] at hset
    rw [getUserPermissions_of_member hset]
    rfl

theorem State.member_isSome {st : State} {userId organizationId : String} :
    (st.member userId organizationId).isSome = true ↔
      ∃ m ∈ st.members, m.userId = userId ∧ m.organizationId = organizationId := by
  simp [State.member]

/-- **More roles grant no less exactly if the default permissions of an owner are not lost to the
rows of the roles that are added.** -/
theorem permissions_monotone_iff (st : State) (userId organizationId : String)
    {role role' : String} (hsub : rolesOf role ⊆ rolesOf role') :
    getUserPermissions (st.setRole userId organizationId role) userId organizationId
        ⊆ getUserPermissions (st.setRole userId organizationId role') userId organizationId
      ↔ KeepsDefaults st userId organizationId role role' := by
  rw [getUserPermissions_setRole, getUserPermissions_setRole]
  unfold KeepsDefaults
  rw [← State.member_isSome]
  cases st.member userId organizationId with
  | none => exact iff_of_true (List.Subset.refl _) fun h => absurd h (by simp)
  | some m => exact (rolePermissions_subset_iff hsub).trans ⟨fun h _ => h, fun h => h rfl⟩

/-- An organisation from before owners were seeded, with a role on record. -/
def legacyState : State where
  members := [⟨"ann", "acme", "owner"⟩]
  organizationRoles := [⟨"acme", "viewer", some [("files", ["read"])]⟩]

/-- Another role for a viewer takes nothing away. -/
theorem permissions_monotone_viewer :
    getUserPermissions (legacyState.setRole "ann" "acme" "viewer") "ann" "acme"
      ⊆ getUserPermissions (legacyState.setRole "ann" "acme" "viewer,member") "ann" "acme" := by
  refine (permissions_monotone_iff legacyState "ann" "acme" ?_).mpr fun _ howner => ?_
  · decide
  · exact absurd howner (by decide)

/-- An owner becomes a viewer too, and is left with what viewers have. -/
theorem owner_loses_defaults :
    ¬∀ (st : State) (userId organizationId role role' : String), rolesOf role ⊆ rolesOf role' →
      getUserPermissions (st.setRole userId organizationId role) userId organizationId
        ⊆ getUserPermissions (st.setRole userId organizationId role') userId organizationId := by
  intro h
  have hkept : "projects:read"
      ∈ getUserPermissions (legacyState.setRole "ann" "acme" "owner,viewer") "ann" "acme" :=
    h legacyState "ann" "acme" "owner" "owner,viewer" (by decide) (by decide)
  exact absurd hkept (by decide)

end Iam

end FileNest
