import FileNest.Iam.ActiveOrganization

/-!
# The active role of a user

Beside the active organisation, the stored context of a user names an active role, by the id of
a role on record.  The navigation shows the role together with the organisation of the session.
The two halves are written apart: the organisation alone by the user, both by an administrator,
and neither when a role is taken away.

## Main definitions

* `Roster`, `RosterEvent`, `Roster.step` — members, roles, contexts and sessions.
* `buildUserContext` — what a session is told about its user.
* `Roster.Shows`, `Roster.Holds` — the role that is active, and a role of the membership.
* `RolesHeld` — what is active is held.
* `KeepsRoles` — what a step must meet.

## Main results

* `RolesHeld.activeRole_mem` — the role a session is told is among those it is told.
* `roles_held_iff` — **active roles are held throughout a run exactly if no organisation becomes
  active beside a role of another, and no role is lost while it is active.**
-/

namespace FileNest

namespace Iam

open Trace

/-! ### The state -/

/-- A role on record. -/
structure RoleRow extends OrganizationRole where
  id : String

/-- The stored context of a user. -/
structure RoleContext extends UserContext where
  activeRoleId : Option String

/-- The IAM, as far as roles go. -/
structure Roster where
  members : List Member
  organizationRoles : List RoleRow
  /-- By user. -/
  contexts : String → Option RoleContext
  /-- By id. -/
  sessions : String → Option Session

/-- The roles of a membership: `rawRole.split(",")`, each trimmed. -/
def splitRoles (rawRole : String) : List String :=
  if rawRole = "" then [] else (Text.split ',' rawRole).map Text.trim

/-- What happens to the IAM; requests that are refused do not happen. -/
inductive RosterEvent where
  /-- A sign-in, or any other creation of a session. -/
  | createSession (id userId : String)
  /-- `PATCH /api/internal/user-context/active-organization`. -/
  | patchActiveOrganization (userId orgId : String)
  /-- `setUserContext`, for superadmins. -/
  | setUserContext (userId activeOrganizationId activeRoleId : String)
  /-- `set-active` of the organisation plugin. -/
  | setActive (sessionId : String) (requested : Option String)
  | addMember (member : Member)
  /-- A user creates an organisation, or accepts an invitation. -/
  | join (sessionId organizationId role : String)
  | updateMemberRole (userId organizationId : String) (roles : List String)
  /-- `removeMember`, and its like of the plugin, from the caller's session. -/
  | removeMember (caller userId organizationId : String)
  /-- Also what seeds the roles of a new organisation. -/
  | createOrgRole (row : RoleRow)
  /-- The row that is there is updated, or this one is created. -/
  | updateOrgRole (row : RoleRow)
  | deleteOrgRole (organizationId role : String)
  /-- Its members and roles go with it. -/
  | deleteOrganization (organizationId : String)
  /-- The user's members, context and sessions go with it. -/
  | removeUser (userId : String)
  | deleteSession (id : String)

namespace Roster

variable (a : Roster)

/-- The tables of members and roles. -/
def toState : State where
  members := a.members
  organizationRoles := a.organizationRoles.map RoleRow.toOrganizationRole

/-- Without active roles. -/
def toAccounts : Accounts :=
  { a.toState with
    contexts := fun userId => (a.contexts userId).map RoleContext.toUserContext
    sessions := a.sessions
    cookies := [] }

/-- The roles the user's membership in the organisation lists. -/
def activeOrganizationRoles (userId organizationId : String) : List String :=
  match a.members.find? fun m => m.userId = userId ∧ m.organizationId = organizationId with
  | none => []
  | some m => splitRoles m.role

/-- Writes the context of a user. -/
def setContext (userId : String) (context : RoleContext) : Roster :=
  { a with contexts := Function.update a.contexts userId (some context) }

/-- The hook before a session is created, and the creation. -/
def createSession (id userId : String) : Roster :=
  { a.setContext userId ((a.contexts userId).getD ⟨⟨none⟩, none⟩) with
    sessions := Function.update a.sessions id (some ⟨userId, a.toAccounts.startsIn userId⟩) }

/-- Changes the active organisation of a session. -/
def updateSession (id : String) (change : Session → Option String) : Roster :=
  { a with
    sessions := Function.update a.sessions id
      ((a.sessions id).map fun s => { s with activeOrganizationId := change s }) }

/-- Removes the members of some users in some organisations. -/
def dropMembers (gone : String → String → Bool) : Roster :=
  { a with members := a.members.filter fun m => !gone m.userId m.organizationId }

/-- Removes roles. -/
def dropRoles (gone : OrganizationRole → Bool) : Roster :=
  { a with organizationRoles := a.organizationRoles.filter fun row => !gone row.toOrganizationRole }

/-- Adds a member. -/
def addMember (member : Member) : Roster := { a with members := a.members ++ [member] }

/-- Adds a role, under an id of its own. -/
def createOrgRole (row : RoleRow) : Roster :=
  if a.organizationRoles.any (·.id = row.id) then a
  else { a with organizationRoles := a.organizationRoles ++ [row] }

/-- Sets the permission of the row with an id. -/
def setPermission (id : String) (permission : Option (List (String × List String))) : Roster :=
  { a with
    organizationRoles := a.organizationRoles.map fun row =>
      if row.id = id then { row with permission } else row }

/-- Sets the roles of the members of a user in an organisation. -/
def setRole (userId organizationId role : String) : Roster :=
  { a with
    members := a.members.map fun m =>
      if m.userId = userId ∧ m.organizationId = organizationId then { m with role } else m }

variable (plugin : OrganizationPlugin)

/-- One event. -/
def step : RosterEvent → Roster
  | .createSession id userId => if (a.sessions id).isSome then a else a.createSession id userId
  | .patchActiveOrganization userId orgId =>
    if orgId ≠ "" ∧ a.members.any (fun m => m.userId = userId ∧ m.organizationId = orgId) then
      -- the role stays as it is
      a.setContext userId
        { (a.contexts userId).getD ⟨⟨none⟩, none⟩ with activeOrganizationId := some orgId }
    else a
  | .setUserContext userId activeOrganizationId activeRoleId =>
    if activeOrganizationId = "" ∨ activeRoleId = "" then a
    else a.setContext userId ⟨⟨some activeOrganizationId⟩, some activeRoleId⟩
  | .setActive sessionId requested =>
    a.updateSession sessionId fun s => plugin.setActive a.toState s requested
  | .addMember member => a.addMember member
  | .join sessionId organizationId role =>
    match a.sessions sessionId with
    | none => a
    | some s =>
      (a.addMember { userId := s.userId, organizationId, role }).updateSession sessionId fun s =>
        plugin.afterJoining s organizationId
  | .updateMemberRole userId organizationId roles =>
    a.setRole userId organizationId (Text.joinWith "," roles)
  | .removeMember caller userId organizationId =>
    (a.updateSession caller fun s => plugin.afterRemoval s userId organizationId).dropMembers
      fun u o => u = userId ∧ o = organizationId
  | .createOrgRole row => a.createOrgRole row
  | .updateOrgRole row =>
    match a.organizationRoles.find? fun found =>
        found.organizationId = row.organizationId ∧ found.role = row.role with
    | some existing => a.setPermission existing.id row.permission
    | none => a.createOrgRole row
  | .deleteOrgRole organizationId role =>
    a.dropRoles fun row => row.organizationId = organizationId ∧ row.role = role
  | .deleteOrganization organizationId =>
    (a.dropMembers fun _ o => o = organizationId).dropRoles (·.organizationId = organizationId)
  | .removeUser userId =>
    { a.dropMembers fun u _ => u = userId with
      contexts := Function.update a.contexts userId none
      sessions := fun id => (a.sessions id).filter (·.userId ≠ userId) }
  | .deleteSession id => { a with sessions := Function.update a.sessions id none }

/-- A session of the user has the organisation active. -/
def InSession (userId organizationId : String) : Prop :=
  ∃ id s, a.sessions id = some s ∧ s.userId = userId ∧ s.activeOrganizationId = some organizationId

/-- The context of the user, as stored or as a session sees it, has the organisation and the role
active. -/
def Shows (userId organizationId roleId : String) : Prop :=
  ∃ context, a.contexts userId = some context ∧ context.activeRoleId = some roleId ∧
    (context.activeOrganizationId = some organizationId ∨ a.InSession userId organizationId)

/-- The role is one of the organisation, and the user's membership in it includes it. -/
def Holds (userId organizationId roleId : String) : Prop :=
  ∃ row ∈ a.organizationRoles, row.id = roleId ∧ row.organizationId = organizationId ∧
    row.role ∈ a.activeOrganizationRoles userId organizationId

/-- Ids are those of one role, and a context with a role has an organisation. -/
structure WellKept : Prop where
  ids : ∀ row ∈ a.organizationRoles, ∀ row' ∈ a.organizationRoles, row.id = row'.id → row = row'
  organization : ∀ userId context, a.contexts userId = some context →
    context.activeRoleId ≠ none → context.activeOrganizationId ≠ none

end Roster

/-! ### What a session is told -/

/-- The answer of `buildUserContext`, as far as roles go. -/
structure BuiltContext where
  permissions : List String
  activeOrganizationRoles : List String
  activeRoleId : Option String
  activeRole : Option String

/-- `buildUserContext`; the role is looked up by its id alone. -/
def buildUserContext (a : Roster) (userId : String) (organizationId : Option String) :
    BuiltContext :=
  let activeRoleId := (a.contexts userId).bind RoleContext.activeRoleId
  { permissions := (orNone organizationId).elim [] (getUserPermissions a.toState userId)
    activeOrganizationRoles := (orNone organizationId).elim [] (a.activeOrganizationRoles userId)
    activeRoleId
    activeRole := (orNone activeRoleId).bind fun id =>
      (a.organizationRoles.find? (·.id = id)).map (·.role) }

/-- What is active is held. -/
def RolesHeld (a : Roster) : Prop :=
  ∀ userId organizationId roleId, a.Shows userId organizationId roleId →
    a.Holds userId organizationId roleId

/-- What a step must meet. -/
def KeepsRoles (plugin : OrganizationPlugin) (a : Roster) : RosterEvent → Prop
  -- the role that stays is held in the new organisation
  | .patchActiveOrganization userId orgId =>
      orgId ≠ "" → (∃ m ∈ a.members, m.userId = userId ∧ m.organizationId = orgId) →
        ∀ context roleId, a.contexts userId = some context → context.activeRoleId = some roleId →
          a.Holds userId orgId roleId
  -- the new role is held in the new organisation, and in those of the sessions
  | .setUserContext userId organizationId roleId => organizationId ≠ "" → roleId ≠ "" →
      a.Holds userId organizationId roleId ∧
        ∀ o, a.InSession userId o → a.Holds userId o roleId
  | .setActive sessionId requested => ∀ s, a.sessions sessionId = some s →
      ∀ organizationId, plugin.setActive a.toState s requested = some organizationId →
        ∀ context roleId, a.contexts s.userId = some context →
          context.activeRoleId = some roleId → a.Holds s.userId organizationId roleId
  | .join sessionId organizationId role => ∀ s, a.sessions sessionId = some s →
      ∀ o, plugin.afterJoining s organizationId = some o →
        ∀ context roleId, a.contexts s.userId = some context →
          context.activeRoleId = some roleId →
            (a.addMember ⟨s.userId, organizationId, role⟩).Holds s.userId o roleId
  -- the active role is not lost
  | .updateMemberRole userId organizationId roles => ∀ roleId,
      a.Shows userId organizationId roleId → ∀ row ∈ a.organizationRoles, row.id = roleId →
        row.role ∈ splitRoles (Text.joinWith "," roles)
  | .removeMember caller userId organizationId => ∀ roleId,
      ¬(a.updateSession caller fun s => plugin.afterRemoval s userId organizationId).Shows
        userId organizationId roleId
  | .deleteOrgRole organizationId role => ∀ userId roleId,
      a.Shows userId organizationId roleId →
        ∀ row ∈ a.organizationRoles, row.id = roleId → row.role ≠ role
  | .deleteOrganization organizationId => ∀ userId roleId,
      ¬a.Shows userId organizationId roleId
  | _ => True

section Steps

variable {a a' : Roster} {plugin : OrganizationPlugin}

/-! ### Tables -/

theorem Roster.activeOrganizationRoles_addMember {userId organizationId : String} (member : Member)
    {role : String} (h : role ∈ a.activeOrganizationRoles userId organizationId) :
    role ∈ (a.addMember member).activeOrganizationRoles userId organizationId := by
  unfold Roster.activeOrganizationRoles Roster.addMember at *
  rw [List.find?_append]
  cases hfind : a.members.find? fun m => m.userId = userId ∧ m.organizationId = organizationId with
  | none =>
    rw [hfind] at h
    cases h
  | some m => rwa [hfind] at h

theorem Roster.activeOrganizationRoles_dropMembers (gone : String → String → Bool)
    (userId organizationId : String) :
    (a.dropMembers gone).activeOrganizationRoles userId organizationId
      = if gone userId organizationId then []
        else a.activeOrganizationRoles userId organizationId := by
  unfold Roster.activeOrganizationRoles Roster.dropMembers
  rw [List.find?_filter]
  cases hgone : gone userId organizationId with
  | true =>
    rw [List.find?_eq_none.mpr]
    · rfl
    · rintro m -
      simp only [Bool.not_eq_true', decide_eq_true_eq, not_and]
      rintro hkept rfl rfl
      exact absurd (hgone.symm.trans hkept) (by decide)
  | false =>
    congr 2
    funext m
    by_cases hm : m.userId = userId ∧ m.organizationId = organizationId
    · obtain ⟨rfl, rfl⟩ := hm
      simp [hgone]
    · simp [hm]

theorem Roster.find?_setRole (userId organizationId role : String) (u o : String) :
    (a.setRole userId organizationId role).members.find? (fun m => m.userId = u ∧
        m.organizationId = o)
      = (a.members.find? fun m => m.userId = u ∧ m.organizationId = o).map fun m =>
        if m.userId = userId ∧ m.organizationId = organizationId then { m with role } else m := by
  unfold Roster.setRole
  rw [List.find?_map]
  congr 2
  funext m
  simp only [Function.comp_apply]
  split <;> rfl

theorem Roster.activeOrganizationRoles_setRole_of_ne {userId organizationId u o : String}
    (role : String) (h : ¬(u = userId ∧ o = organizationId)) :
    (a.setRole userId organizationId role).activeOrganizationRoles u o
      = a.activeOrganizationRoles u o := by
  unfold Roster.activeOrganizationRoles
  rw [Roster.find?_setRole]
  cases hfind : a.members.find? fun m => m.userId = u ∧ m.organizationId = o with
  | none => rfl
  | some m =>
    obtain ⟨rfl, rfl⟩ : m.userId = u ∧ m.organizationId = o := by
      simpa using List.find?_some hfind
    rw [Option.map_some, if_neg h]

/-- A user with roles in an organisation is a member, and gets the new ones. -/
theorem Roster.activeOrganizationRoles_setRole_self {userId organizationId held : String}
    (role : String) (h : held ∈ a.activeOrganizationRoles userId organizationId) :
    (a.setRole userId organizationId role).activeOrganizationRoles userId organizationId
      = splitRoles role := by
  unfold Roster.activeOrganizationRoles at *
  rw [Roster.find?_setRole]
  cases hfind : a.members.find? fun m => m.userId = userId ∧ m.organizationId = organizationId with
  | none =>
    rw [hfind] at h
    cases h
  | some m =>
    have hm : m.userId = userId ∧ m.organizationId = organizationId := by
      simpa using List.find?_some hfind
    rw [Option.map_some, if_pos hm]

theorem Roster.Holds.addMember {userId organizationId roleId : String}
    (h : a.Holds userId organizationId roleId) (member : Member) :
    (a.addMember member).Holds userId organizationId roleId := by
  obtain ⟨row, hrow, hid, horg, hrole⟩ := h
  exact ⟨row, hrow, hid, horg, a.activeOrganizationRoles_addMember member hrole⟩

theorem Roster.holds_dropMembers {gone : String → String → Bool}
    {userId organizationId roleId : String} :
    (a.dropMembers gone).Holds userId organizationId roleId
      ↔ a.Holds userId organizationId roleId ∧ gone userId organizationId = false := by
  unfold Roster.Holds
  rw [Roster.activeOrganizationRoles_dropMembers]
  cases gone userId organizationId with
  | true => simp
  | false => simp [Roster.dropMembers]

/-- Ids are those of one role, so it is this one that goes. -/
theorem Roster.WellKept.holds_dropRoles (ha : a.WellKept) {gone : OrganizationRole → Bool}
    {userId organizationId roleId : String} :
    (a.dropRoles gone).Holds userId organizationId roleId
      ↔ a.Holds userId organizationId roleId ∧
        ∀ row ∈ a.organizationRoles, row.id = roleId → gone row.toOrganizationRole = false := by
  constructor
  · rintro ⟨row, hrow, hid, horg, hrole⟩
    obtain ⟨hrow, hkept⟩ := List.mem_filter.mp hrow
    refine ⟨⟨row, hrow, hid, horg, hrole⟩, fun row' hrow' hid' => ?_⟩
    rw [← ha.ids row hrow row' hrow' (hid.trans hid'.symm)]
    simpa using hkept
  · rintro ⟨⟨row, hrow, hid, horg, hrole⟩, hkept⟩
    have hmem : row ∈ (a.dropRoles gone).organizationRoles :=
      List.mem_filter.mpr ⟨hrow, by simpa using hkept row hrow hid⟩
    exact ⟨row, hmem, hid, horg, hrole⟩

theorem Roster.Holds.createOrgRole {userId organizationId roleId : String}
    (h : a.Holds userId organizationId roleId) (row : RoleRow) :
    (a.createOrgRole row).Holds userId organizationId roleId := by
  unfold Roster.createOrgRole
  split
  · exact h
  · obtain ⟨found, hfound, hrest⟩ := h
    exact ⟨found, List.mem_append_left _ hfound, hrest⟩

theorem Roster.Holds.setPermission {userId organizationId roleId : String}
    (h : a.Holds userId organizationId roleId) (id : String)
    (permission : Option (List (String × List String))) :
    (a.setPermission id permission).Holds userId organizationId roleId := by
  obtain ⟨found, hfound, hid, horg, hrole⟩ := h
  refine ⟨_, List.mem_map_of_mem hfound, ?_⟩
  split
  · exact ⟨hid, horg, hrole⟩
  · exact ⟨hid, horg, hrole⟩

/-- The membership lists other roles; a role stays held if it is one of them. -/
theorem Roster.WellKept.holds_setRole (ha : a.WellKept) {u o roleId : String}
    (h : a.Holds u o roleId) (userId organizationId role : String) :
    (a.setRole userId organizationId role).Holds u o roleId
      ↔ (u = userId → o = organizationId →
        ∀ row ∈ a.organizationRoles, row.id = roleId → row.role ∈ splitRoles role) := by
  obtain ⟨row, hrow, hid, horg, hrole⟩ := h
  constructor
  · rintro ⟨row', hrow', hid', -, hrole'⟩ rfl rfl found hfound hfid
    rw [Roster.activeOrganizationRoles_setRole_self role hrole] at hrole'
    rwa [← ha.ids row' hrow' found hfound (hid'.trans hfid.symm)]
  · intro hkept
    refine ⟨row, hrow, hid, horg, ?_⟩
    by_cases heq : u = userId ∧ o = organizationId
    · obtain ⟨rfl, rfl⟩ := heq
      rw [Roster.activeOrganizationRoles_setRole_self role hrole]
      exact hkept rfl rfl row hrow hid
    · rwa [Roster.activeOrganizationRoles_setRole_of_ne role heq]

/-! ### Contexts and sessions -/

/-- Nothing new is active, and nothing is lost. -/
theorem RolesHeld.mono (h : RolesHeld a)
    (hshows : ∀ u o r, a'.Shows u o r → a.Shows u o r)
    (hholds : ∀ u o r, a.Holds u o r → a'.Holds u o r) : RolesHeld a' :=
  fun u o r hactive => hholds u o r (h u o r (hshows u o r hactive))

/-- The tables change under what is active. -/
theorem RolesHeld.tables_iff {b : Roster} (h : RolesHeld a) (hcontexts : b.contexts = a.contexts)
    (hsessions : b.sessions = a.sessions) {K : String → String → String → Prop}
    (hK : ∀ u o r, a.Holds u o r → (b.Holds u o r ↔ K u o r)) :
    RolesHeld b ↔ ∀ u o r, a.Shows u o r → K u o r := by
  have hshows : ∀ u o r, b.Shows u o r ↔ a.Shows u o r := by
    intro u o r
    unfold Roster.Shows Roster.InSession
    rw [hcontexts, hsessions]
  constructor
  · intro hheld u o r hactive
    exact (hK u o r (h u o r hactive)).mp (hheld u o r ((hshows u o r).mpr hactive))
  · intro hkept u o r hactive
    rw [hshows] at hactive
    exact (hK u o r (h u o r hactive)).mpr (hkept u o r hactive)

/-- A context is written. -/
theorem RolesHeld.setContext_iff (h : RolesHeld a) (userId : String) (context : RoleContext) :
    RolesHeld (a.setContext userId context) ↔ ∀ roleId, context.activeRoleId = some roleId →
      ∀ o, context.activeOrganizationId = some o ∨ a.InSession userId o →
        a.Holds userId o roleId := by
  constructor
  · intro hheld roleId hrole o hactive
    exact hheld userId o roleId ⟨context, Function.update_self userId _ _, hrole, hactive⟩
  · rintro hnew u o r ⟨found, hfound, hrole, hactive⟩
    by_cases heq : u = userId
    · subst heq
      obtain rfl : context = found := by
        simpa [Roster.setContext] using hfound
      exact hnew r hrole o hactive
    · simp only [Roster.setContext, Function.update_of_ne heq] at hfound
      exact h u o r ⟨found, hfound, hrole, hactive⟩

/-- What a session has active after a change. -/
theorem Roster.inSession_updateSession {id : String} {change : Session → Option String}
    {userId o : String} (h : (a.updateSession id change).InSession userId o) :
    a.InSession userId o ∨
      ∃ s, a.sessions id = some s ∧ s.userId = userId ∧ change s = some o := by
  obtain ⟨id', s, hs, huser, hactive⟩ := h
  unfold Roster.updateSession at hs
  by_cases heq : id' = id
  · subst heq
    simp only [Function.update_self, Option.map_eq_some_iff] at hs
    obtain ⟨s, hfound, rfl⟩ := hs
    exact .inr ⟨s, hfound, huser, hactive⟩
  · simp only [Function.update_of_ne heq] at hs
    exact .inl ⟨id', s, hs, huser, hactive⟩

/-- A session changes what it has active. -/
theorem RolesHeld.updateSession_iff (h : RolesHeld a) (id : String)
    (change : Session → Option String) :
    RolesHeld (a.updateSession id change) ↔ ∀ s, a.sessions id = some s →
      ∀ o, change s = some o → ∀ context roleId, a.contexts s.userId = some context →
        context.activeRoleId = some roleId → a.Holds s.userId o roleId := by
  constructor
  · intro hheld s hs o hchange context roleId hcontext hrole
    have hsession : (a.updateSession id change).InSession s.userId o :=
      ⟨id, { s with activeOrganizationId := change s }, by simp [Roster.updateSession, hs], rfl,
        hchange⟩
    exact hheld s.userId o roleId ⟨context, hcontext, hrole, .inr hsession⟩
  · rintro hnew u o r ⟨context, hcontext, hrole, hstored | hsession⟩
    · exact h u o r ⟨context, hcontext, hrole, .inl hstored⟩
    · obtain hold | ⟨s, hs, rfl, hchange⟩ := Roster.inSession_updateSession hsession
      · exact h u o r ⟨context, hcontext, hrole, .inr hold⟩
      · exact hnew s hs o hchange context r hcontext hrole

/-- A new session starts in the stored organisation, if there is a role. -/
theorem RolesHeld.createSession (h : RolesHeld a) (ha : a.WellKept) (id userId : String) :
    RolesHeld (a.createSession id userId) := by
  refine h.mono ?_ fun _ _ _ hholds => hholds
  rintro u o r ⟨context, hcontext, hrole, hactive⟩
  have hfound : a.contexts u = some context := by
    unfold Roster.createSession Roster.setContext at hcontext
    by_cases heq : u = userId
    · subst heq
      simp only [Function.update_self, Option.some.injEq] at hcontext
      cases hstored : a.contexts u with
      | none =>
        rw [hstored] at hcontext
        subst hcontext
        cases hrole
      | some stored =>
        rw [hstored] at hcontext
        exact congrArg some hcontext
    · simpa only [Function.update_of_ne heq] using hcontext
  refine ⟨context, hfound, hrole, ?_⟩
  obtain hstored | ⟨id', s, hs, rfl, hsession⟩ := hactive
  · exact .inl hstored
  · unfold Roster.createSession at hs
    by_cases heq : id' = id
    · subst heq
      simp only [Function.update_self, Option.some.injEq] at hs
      subst hs
      have hne := ha.organization _ context hfound (by rw [hrole]; exact Option.some_ne_none r)
      obtain ⟨stored, hstored⟩ := Option.ne_none_iff_exists'.mp hne
      simp only [Accounts.startsIn, Roster.toAccounts, hfound, Option.map_some, hstored,
        Option.some_or] at hsession
      exact .inl (hstored.trans hsession)
    · simp only [Function.update_of_ne heq] at hs
      exact .inr ⟨id', s, hs, rfl, hsession⟩

/-- The plugin may clear the caller's session; then a membership ends. -/
theorem RolesHeld.removeMember_iff (hplugin : plugin.Lawful) (h : RolesHeld a)
    (caller userId organizationId : String) :
    RolesHeld (a.step plugin (.removeMember caller userId organizationId))
      ↔ KeepsRoles plugin a (.removeMember caller userId organizationId) := by
  have hupdate : RolesHeld
      (a.updateSession caller fun s => plugin.afterRemoval s userId organizationId) := by
    refine (h.updateSession_iff caller _).mpr fun s hs o hchange context r hcontext hrole => ?_
    obtain hsame | hnone := hplugin.afterRemoval_eq s userId organizationId
    · rw [hsame] at hchange
      exact h s.userId o r ⟨context, hcontext, hrole, .inr ⟨caller, s, hs, rfl, hchange⟩⟩
    · rw [hnone] at hchange
      cases hchange
  have hdrop := hupdate.tables_iff
    (b := a.step plugin (.removeMember caller userId organizationId))
    (K := fun u o _ => ¬(u = userId ∧ o = organizationId)) rfl rfl fun u o r hholds => by
      simp only [Roster.step, Roster.holds_dropMembers, hholds, true_and, decide_eq_false_iff_not]
  refine hdrop.trans ⟨fun hkept r hshows => ?_, ?_⟩
  · exact hkept userId organizationId r hshows ⟨rfl, rfl⟩
  · rintro hnot u o r hshows ⟨rfl, rfl⟩
    exact hnot r hshows

/-- A user takes the context and the sessions along. -/
theorem RolesHeld.removeUser (h : RolesHeld a) (userId : String) :
    RolesHeld (a.step plugin (.removeUser userId)) := by
  rintro u o r ⟨context, hcontext, hrole, hactive⟩
  have hne : u ≠ userId := by
    rintro rfl
    simp [Roster.step] at hcontext
  simp only [Roster.step, Function.update_of_ne hne] at hcontext
  have hshows : a.Shows u o r := by
    refine ⟨context, hcontext, hrole, hactive.imp_right ?_⟩
    rintro ⟨id, s, hs, huser, hsession⟩
    exact ⟨id, s, (Option.filter_eq_some_iff.mp hs).1, huser, hsession⟩
  have hkept : (a.dropMembers fun u _ => u = userId).Holds u o r :=
    Roster.holds_dropMembers.mpr ⟨h u o r hshows, decide_eq_false hne⟩
  exact hkept

/-- The organisation changes, and the role stays. -/
theorem RolesHeld.patchActiveOrganization_iff (h : RolesHeld a) (userId orgId : String) :
    RolesHeld (a.step plugin (.patchActiveOrganization userId orgId))
      ↔ KeepsRoles plugin a (.patchActiveOrganization userId orgId) := by
  simp only [Roster.step, KeepsRoles]
  split
  · rename_i hmember
    have hin : ∃ m ∈ a.members, m.userId = userId ∧ m.organizationId = orgId := by
      simpa using hmember.2
    refine (h.setContext_iff userId _).trans ⟨fun hnew _ _ context r hcontext hrole => ?_, ?_⟩
    · exact hnew r (by rw [hcontext]; exact hrole) orgId (.inl rfl)
    · intro hkept r hrole o hactive
      cases hcontext : a.contexts userId with
      | none =>
        rw [hcontext] at hrole
        cases hrole
      | some context =>
        rw [hcontext] at hrole
        obtain hsame | hsession := hactive
        · obtain rfl : orgId = o := Option.some.inj hsame
          exact hkept hmember.1 hin context r hcontext hrole
        · exact h userId o r ⟨context, hcontext, hrole, .inr hsession⟩
  · rename_i hrefused
    refine iff_of_true h fun hne hin => absurd ⟨hne, ?_⟩ hrefused
    simpa using hin

/-- Both halves change; the sessions of the user do not. -/
theorem RolesHeld.setUserContext_iff (h : RolesHeld a) (userId organizationId roleId : String) :
    RolesHeld (a.step plugin (.setUserContext userId organizationId roleId))
      ↔ KeepsRoles plugin a (.setUserContext userId organizationId roleId) := by
  simp only [Roster.step, KeepsRoles]
  split
  · rename_i hempty
    exact iff_of_true h fun horg hrole => absurd hempty (not_or.mpr ⟨horg, hrole⟩)
  · rename_i hgiven
    obtain ⟨horg, hrole⟩ := not_or.mp hgiven
    refine (h.setContext_iff userId _).trans ⟨fun hnew _ _ => ?_, ?_⟩
    · have hholds := hnew roleId rfl
      exact ⟨hholds organizationId (.inl rfl), fun o hsession => hholds o (.inr hsession)⟩
    · intro hkept r hactiveRole o hactive
      obtain rfl : roleId = r := Option.some.inj hactiveRole
      obtain ⟨hnew, hsessions⟩ := hkept horg hrole
      obtain hsame | hsession := hactive
      · obtain rfl : organizationId = o := Option.some.inj hsame
        exact hnew
      · exact hsessions o hsession

/-- The membership comes first, then the session changes. -/
theorem RolesHeld.join_iff (h : RolesHeld a) (sessionId organizationId role : String) :
    RolesHeld (a.step plugin (.join sessionId organizationId role))
      ↔ KeepsRoles plugin a (.join sessionId organizationId role) := by
  simp only [Roster.step, KeepsRoles]
  cases hsession : a.sessions sessionId with
  | none => exact iff_of_true h fun s hs => by cases hs
  | some s =>
    have hadd : RolesHeld (a.addMember ⟨s.userId, organizationId, role⟩) :=
      h.mono (fun _ _ _ hs => hs) fun _ _ _ hh => hh.addMember _
    refine (hadd.updateSession_iff sessionId _).trans ⟨fun hnew s' hs' => ?_, ?_⟩
    · obtain rfl : s = s' := Option.some.inj hs'
      exact hnew s hsession
    · intro hkept s' hs'
      obtain rfl : s = s' := Option.some.inj (hsession.symm.trans hs')
      exact hkept s rfl

/-- An active role that goes is one of the organisation that is active. -/
theorem RolesHeld.deleteOrgRole_iff (ha : a.WellKept) (h : RolesHeld a)
    (organizationId role : String) :
    RolesHeld (a.step plugin (.deleteOrgRole organizationId role))
      ↔ KeepsRoles plugin a (.deleteOrgRole organizationId role) := by
  have hdrop := h.tables_iff (b := a.step plugin (.deleteOrgRole organizationId role)) rfl rfl
    fun u o r hholds => (ha.holds_dropRoles.trans (and_iff_right hholds))
  simp only [decide_eq_false_iff_not] at hdrop
  have horg_eq : ∀ {u o r row}, a.Shows u o r → row ∈ a.organizationRoles → row.id = r →
      row.organizationId = o := by
    intro u o r row hshows hrow hid
    obtain ⟨found, hfound, hfid, horg, -⟩ := h u o r hshows
    rwa [ha.ids found hfound row hrow (hfid.trans hid.symm)] at horg
  refine hdrop.trans ⟨fun hkept u r hshows row hrow hid hrole => ?_, ?_⟩
  · exact hkept u organizationId r hshows row hrow hid ⟨horg_eq hshows hrow hid, hrole⟩
  · rintro hkept u o r hshows row hrow hid ⟨rfl, hrole⟩
    obtain rfl := horg_eq hshows hrow hid
    exact hkept u r hshows row hrow hid hrole

/-- Neither members nor roles of the organisation are left. -/
theorem RolesHeld.deleteOrganization_iff (ha : a.WellKept) (h : RolesHeld a)
    (organizationId : String) :
    RolesHeld (a.step plugin (.deleteOrganization organizationId))
      ↔ KeepsRoles plugin a (.deleteOrganization organizationId) := by
  have hmembers : (a.dropMembers fun _ o => o = organizationId).WellKept :=
    ⟨ha.ids, ha.organization⟩
  have hdrop := h.tables_iff (b := a.step plugin (.deleteOrganization organizationId))
    (K := fun _ o _ => o ≠ organizationId) rfl rfl fun u o r hholds => by
      obtain ⟨row, hrow, hid, horg, -⟩ := id hholds
      refine hmembers.holds_dropRoles.trans ?_
      rw [Roster.holds_dropMembers, and_iff_right hholds, decide_eq_false_iff_not]
      refine and_iff_left_of_imp fun hne row' hrow' hid' => ?_
      rw [← ha.ids row hrow row' hrow' (hid.trans hid'.symm)]
      exact decide_eq_false (horg ▸ hne)
  refine hdrop.trans ⟨fun hkept u r hshows => ?_, ?_⟩
  · exact hkept u organizationId r hshows rfl
  · rintro hnot u o r hshows rfl
    exact hnot u r hshows

/-- **A step keeps active roles held exactly if it meets its condition.** -/
theorem RolesHeld.step_iff (hplugin : plugin.Lawful) (ha : a.WellKept) (h : RolesHeld a)
    (e : RosterEvent) : RolesHeld (a.step plugin e) ↔ KeepsRoles plugin a e := by
  have hcreated : ∀ row, RolesHeld (a.createOrgRole row) := by
    intro row
    refine h.mono (fun u o r hshows => ?_) fun _ _ _ hh => hh.createOrgRole row
    unfold Roster.createOrgRole at hshows
    split at hshows <;> exact hshows
  cases e with
  | createSession id userId =>
    refine iff_of_true ?_ trivial
    simp only [Roster.step]
    split
    · exact h
    · exact h.createSession ha id userId
  | patchActiveOrganization userId orgId => exact h.patchActiveOrganization_iff userId orgId
  | setUserContext userId organizationId roleId =>
    exact h.setUserContext_iff userId organizationId roleId
  | setActive sessionId requested => exact h.updateSession_iff sessionId _
  | addMember member =>
    exact iff_of_true (h.mono (fun _ _ _ hs => hs) fun _ _ _ hh => hh.addMember member) trivial
  | join sessionId organizationId role => exact h.join_iff sessionId organizationId role
  | updateMemberRole userId organizationId roles =>
    refine (h.tables_iff (b := a.setRole userId organizationId (Text.joinWith "," roles)) rfl rfl
      fun u o r hholds => ha.holds_setRole hholds userId organizationId _).trans ⟨?_, ?_⟩
    · intro hkept r hshows
      exact hkept userId organizationId r hshows rfl rfl
    · rintro hkept u o r hshows rfl rfl
      exact hkept r hshows
  | removeMember caller userId organizationId =>
    exact h.removeMember_iff hplugin caller userId organizationId
  | createOrgRole row => exact iff_of_true (hcreated row) trivial
  | updateOrgRole row =>
    refine iff_of_true ?_ trivial
    simp only [Roster.step]
    split
    · exact h.mono (fun _ _ _ hs => hs) fun _ _ _ hh => hh.setPermission _ _
    · exact hcreated row
  | deleteOrgRole organizationId role => exact h.deleteOrgRole_iff ha organizationId role
  | deleteOrganization organizationId => exact h.deleteOrganization_iff ha organizationId
  | removeUser userId => exact iff_of_true (h.removeUser userId) trivial
  | deleteSession id =>
    refine iff_of_true (h.mono ?_ fun _ _ _ hh => hh) trivial
    rintro u o r ⟨context, hcontext, hrole, hactive⟩
    refine ⟨context, hcontext, hrole, hactive.imp_right ?_⟩
    rintro ⟨id', s, hs, hrest⟩
    refine ⟨id', s, ?_, hrest⟩
    by_cases heq : id' = id
    · simp [Roster.step, heq] at hs
    · simpa [Roster.step, heq] using hs

/-! ### Well-kept tables -/

theorem Roster.WellKept.setContext (ha : a.WellKept) (userId : String) {context : RoleContext}
    (hcontext : context.activeRoleId ≠ none → context.activeOrganizationId ≠ none) :
    (a.setContext userId context).WellKept := by
  refine ⟨ha.ids, fun u found hfound => ?_⟩
  by_cases heq : u = userId
  · subst heq
    obtain rfl : context = found := by simpa [Roster.setContext] using hfound
    exact hcontext
  · simp only [Roster.setContext, Function.update_of_ne heq] at hfound
    exact ha.organization u found hfound

theorem Roster.WellKept.createOrgRole (ha : a.WellKept) (row : RoleRow) :
    (a.createOrgRole row).WellKept := by
  unfold Roster.createOrgRole
  split
  · exact ha
  · rename_i hfresh
    have hne : ∀ found ∈ a.organizationRoles, found.id ≠ row.id := by simpa using hfresh
    refine ⟨fun x hx y hy hid => ?_, ha.organization⟩
    obtain hx | hx := List.mem_append.mp hx <;> obtain hy | hy := List.mem_append.mp hy
    · exact ha.ids x hx y hy hid
    · rw [List.mem_singleton.mp hy] at hid
      exact absurd hid (hne x hx)
    · rw [List.mem_singleton.mp hx] at hid
      exact absurd hid.symm (hne y hy)
    · rw [List.mem_singleton.mp hx, List.mem_singleton.mp hy]

theorem Roster.WellKept.setPermission (ha : a.WellKept) (id : String)
    (permission : Option (List (String × List String))) :
    (a.setPermission id permission).WellKept := by
  have hkeeps : ∀ row : RoleRow,
      (if row.id = id then { row with permission } else row).id = row.id := by
    intro row
    split <;> rfl
  refine ⟨fun x hx y hy hxy => ?_, ha.organization⟩
  obtain ⟨row, hrow, rfl⟩ := List.mem_map.mp hx
  obtain ⟨row', hrow', rfl⟩ := List.mem_map.mp hy
  rw [hkeeps, hkeeps] at hxy
  rw [ha.ids row hrow row' hrow' hxy]

theorem Roster.WellKept.dropRoles (ha : a.WellKept) (gone : OrganizationRole → Bool) :
    (a.dropRoles gone).WellKept :=
  ⟨fun x hx y hy => ha.ids x (List.mem_of_mem_filter hx) y (List.mem_of_mem_filter hy),
    ha.organization⟩

/-- Every step keeps the tables. -/
theorem Roster.WellKept.step (ha : a.WellKept) (e : RosterEvent) : (a.step plugin e).WellKept := by
  have hstored : ∀ u, ((a.contexts u).getD ⟨⟨none⟩, none⟩).activeRoleId ≠ none →
      ((a.contexts u).getD ⟨⟨none⟩, none⟩).activeOrganizationId ≠ none := by
    intro u hrole
    cases hcontext : a.contexts u with
    | none => simp [hcontext] at hrole
    | some context =>
      rw [hcontext] at hrole
      exact ha.organization u context hcontext hrole
  cases e with
  | createSession id userId =>
    simp only [Roster.step]
    split
    · exact ha
    · have hkept := ha.setContext userId (hstored userId)
      exact ⟨hkept.ids, hkept.organization⟩
  | patchActiveOrganization userId orgId =>
    simp only [Roster.step]
    split
    · exact ha.setContext userId fun _ => Option.some_ne_none orgId
    · exact ha
  | setUserContext userId organizationId roleId =>
    simp only [Roster.step]
    split
    · exact ha
    · exact ha.setContext userId fun _ => Option.some_ne_none organizationId
  | join sessionId organizationId role =>
    simp only [Roster.step]
    split
    · exact ha
    · exact ⟨ha.ids, ha.organization⟩
  | createOrgRole row => exact ha.createOrgRole row
  | updateOrgRole row =>
    simp only [Roster.step]
    split
    · exact ha.setPermission _ _
    · exact ha.createOrgRole row
  | deleteOrgRole organizationId role =>
    exact ha.dropRoles fun row => row.organizationId = organizationId ∧ row.role = role
  | deleteOrganization organizationId =>
    have hkept := ha.dropRoles (·.organizationId = organizationId)
    exact ⟨hkept.ids, hkept.organization⟩
  | removeUser userId =>
    refine ⟨ha.ids, fun u context hcontext => ?_⟩
    by_cases heq : u = userId
    · simp [Roster.step, heq] at hcontext
    · simp only [Roster.step, Function.update_of_ne heq] at hcontext
      exact ha.organization u context hcontext
  | setActive | addMember | updateMemberRole | removeMember | deleteSession =>
    exact ⟨ha.ids, ha.organization⟩

/-! ### What a session is told -/

/-- The role a session is told is one of those it is told. -/
theorem RolesHeld.activeRole_mem (h : RolesHeld a) (ha : a.WellKept) {userId o r : String}
    (hshows : a.Shows userId o r) (ho : o ≠ "") (hr : r ≠ "") :
    ∃ role, (buildUserContext a userId (some o)).activeRole = some role ∧
      role ∈ (buildUserContext a userId (some o)).activeOrganizationRoles := by
  obtain ⟨row, hrow, rfl, -, hrole⟩ := h userId o r hshows
  obtain ⟨context, hcontext, hactive, -⟩ := hshows
  have hfound : a.organizationRoles.find? (·.id = row.id) = some row := by
    cases hfind : a.organizationRoles.find? (·.id = row.id) with
    | none => simpa using List.find?_eq_none.mp hfind row hrow
    | some found =>
      have hid : found.id = row.id := by simpa using List.find?_some hfind
      rw [ha.ids found (List.mem_of_find?_eq_some hfind) row hrow hid]
  refine ⟨row.role, ?_, ?_⟩
  · simp [buildUserContext, hcontext, hactive, orNone, hr, hfound]
  · simpa [buildUserContext, orNone, ho] using hrole

/-- **Active roles are held throughout a run exactly if no organisation becomes active beside a
role that is not held in it, and no role is lost while it is active.** -/
theorem roles_held_iff (hplugin : plugin.Lawful) (ha : a.WellKept) (h : RolesHeld a)
    (events : List RosterEvent) :
    Throughout (Roster.step · plugin) RolesHeld a events
      ↔ EachStep (Roster.step · plugin) (KeepsRoles plugin) a events :=
  throughout_iff_eachStep (fun _ e hkept => hkept.step e)
    (fun _ e hkept hheld => hheld.step_iff hplugin hkept e) ha h

end Steps

/-- Nobody is there. -/
def Roster.empty : Roster where
  members := []
  organizationRoles := []
  contexts _ := none
  sessions _ := none

theorem wellKept_empty : Roster.empty.WellKept where
  ids row hrow := by cases hrow
  organization _ _ hcontext := by cases hcontext

theorem rolesHeld_empty : RolesHeld .empty := by
  rintro u o r ⟨context, hcontext, -⟩
  cases hcontext

/-- A user is a doctor in one organisation and a member of another; an administrator makes the
doctor active. -/
def doctorRun : List RosterEvent :=
  [.createOrgRole ⟨⟨"acme", "doctor", none⟩, "r1"⟩, .addMember ⟨"ann", "acme", "doctor"⟩,
    .addMember ⟨"ann", "globex", "member"⟩, .setUserContext "ann" "acme" "r1"]

/-- Signing in and staying in the organisation, the role is held. -/
theorem roles_held_doctor : Throughout (Roster.step · devPlugin) RolesHeld .empty
    (doctorRun ++ [.createSession "s1" "ann", .patchActiveOrganization "ann" "acme"]) := by
  have hholds : ∀ b : Roster, b.members = [⟨"ann", "acme", "doctor"⟩, ⟨"ann", "globex", "member"⟩] →
      b.organizationRoles = [⟨⟨"acme", "doctor", none⟩, "r1"⟩] → b.Holds "ann" "acme" "r1" := by
    intro b hmembers hroles
    refine ⟨⟨⟨"acme", "doctor", none⟩, "r1"⟩, ?_, rfl, rfl, ?_⟩
    · rw [hroles]
      exact List.mem_singleton_self _
    · unfold Roster.activeOrganizationRoles
      rw [hmembers]
      decide
  refine (roles_held_iff devPlugin_lawful wellKept_empty rolesHeld_empty _).mpr ?_
  refine ⟨trivial, trivial, trivial, ?_, trivial, ?_, trivial⟩
  · intro _ _
    refine ⟨hholds _ rfl rfl, ?_⟩
    rintro o ⟨id, s, hs, -⟩
    cases hs
  · intro _ _ context r hcontext hrole
    obtain rfl := Option.some.inj hcontext
    obtain rfl := Option.some.inj hrole
    exact hholds _ rfl rfl

/-- The user makes the other organisation active. -/
def switchRun : List RosterEvent := doctorRun ++ [.patchActiveOrganization "ann" "globex"]

/-- The role of the first stays active. -/
theorem role_outlives_switch :
    (switchRun.foldl (Roster.step · devPlugin) .empty).Shows "ann" "globex" "r1" ∧
      ¬(switchRun.foldl (Roster.step · devPlugin) .empty).Holds "ann" "globex" "r1" ∧
      ¬Throughout (Roster.step · devPlugin) RolesHeld .empty switchRun := by
  have hshows : (switchRun.foldl (Roster.step · devPlugin) .empty).Shows "ann" "globex" "r1" :=
    ⟨⟨⟨some "globex"⟩, some "r1"⟩, rfl, rfl, .inl rfl⟩
  have hholds : ¬(switchRun.foldl (Roster.step · devPlugin) .empty).Holds "ann" "globex" "r1" := by
    rintro ⟨row, hrow, -, horg, -⟩
    have hroles : (switchRun.foldl (Roster.step · devPlugin) .empty).organizationRoles
        = [⟨⟨"acme", "doctor", none⟩, "r1"⟩] := rfl
    rw [hroles] at hrow
    rw [List.mem_singleton.mp hrow] at horg
    simp at horg
  exact ⟨hshows, hholds, fun h => hholds (h.last _ _ _ hshows)⟩

end Iam

end FileNest
