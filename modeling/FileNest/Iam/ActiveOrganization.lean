import FileNest.Iam.ApiKey
import FileNest.Lib.Trace

/-!
# The active organisation of a session

A user has a stored context with an active organisation, and every new session starts in it.
The token of a session names the organisation of the session, and the backend takes it for the
tenant.  Memberships end without a look at contexts, sessions, or the copies of sessions in
cookies; and an administrator sets a context without a look at memberships.

## Main definitions

* `OrganizationPlugin` — the organisation plugin, as far as it changes sessions.
* `Accounts`, `IamEvent`, `Accounts.step` — the IAM and what happens to it.
* `definePayload`, `jwtContext` — the token of a session, and the backend's context.
* `TokensCurrent` — every token names an organisation of its user, or none.
* `KeepsTokens`, `KeepsContexts` — what a step must meet.

## Main results

* `contexts_current_iff` — when stored contexts name organisations of their users.
* `tokens_current_iff` — **every token of a run is current exactly if no session starts in a
  context that is out of date, and no membership ends that a session or a cookie still names.**
-/

namespace FileNest

namespace Iam

open Trace

/-! ### The state -/

/-- The stored context of a user. -/
structure UserContext where
  activeOrganizationId : Option String

/-- A session. -/
structure Session where
  userId : String
  activeOrganizationId : Option String
  deriving DecidableEq

/-- The IAM. -/
structure Accounts extends State where
  /-- By user. -/
  contexts : String → Option UserContext
  /-- By id. -/
  sessions : String → Option Session
  /-- The copies of sessions in cookies, until they expire. -/
  cookies : List Session

/-- The user is a member of the organisation. -/
def State.IsMember (st : State) (userId organizationId : String) : Prop :=
  ∃ m ∈ st.members, m.userId = userId ∧ m.organizationId = organizationId

/-- The organisation plugin: what it makes of the active organisation of the caller's session. -/
structure OrganizationPlugin where
  /-- `set-active`. -/
  setActive : State → Session → Option String → Option String
  /-- `create`, and `accept-invitation`. -/
  afterJoining : Session → (organizationId : String) → Option String
  /-- `remove-member`, and `leave`. -/
  afterRemoval : Session → (userId organizationId : String) → Option String

/-- What the IAM relies on. -/
structure OrganizationPlugin.Lawful (plugin : OrganizationPlugin) : Prop where
  /-- Only members can make an organisation active. -/
  setActive_member : ∀ {st s requested organizationId},
    plugin.setActive st s requested = some organizationId → st.IsMember s.userId organizationId
  /-- Who creates or joins an organisation may find it active. -/
  afterJoining_eq : ∀ s organizationId,
    plugin.afterJoining s organizationId = s.activeOrganizationId
      ∨ plugin.afterJoining s organizationId = some organizationId
  /-- Who leaves an organisation may find none active. -/
  afterRemoval_eq : ∀ s userId organizationId,
    plugin.afterRemoval s userId organizationId = s.activeOrganizationId
      ∨ plugin.afterRemoval s userId organizationId = none

/-! ### What happens -/

/-- What happens to the IAM. -/
inductive IamEvent where
  /-- A sign-in, or any other creation of a session. -/
  | createSession (id userId : String)
  /-- `PATCH /api/internal/user-context/active-organization`. -/
  | patchActiveOrganization (userId orgId : String)
  /-- `setUserContext`, for superadmins. -/
  | setUserContext (userId activeOrganizationId : String)
  | setActive (sessionId : String) (requested : Option String)
  | addMember (member : Member)
  /-- A user creates an organisation, or accepts an invitation. -/
  | join (sessionId organizationId role : String)
  /-- `removeMember`, and its like of the plugin, from the caller's session. -/
  | removeMember (caller userId organizationId : String)
  /-- `deleteOrganization`; its members go with it. -/
  | deleteOrganization (organizationId : String)
  /-- The user's members, context and sessions go with it. -/
  | removeUser (userId : String)
  | deleteSession (id : String)
  /-- A session is read, and copied to a cookie. -/
  | cacheSession (id : String)
  | expireCookie (cookie : Session)

namespace Accounts

variable (a : Accounts)

/-- `prisma.userContext.upsert`. -/
def upsertContext (userId : String) (activeOrganizationId : Option String) : Accounts :=
  { a with contexts := Function.update a.contexts userId (some { activeOrganizationId }) }

/-- `findFirst` of the user's memberships by creation; members are listed in this order. -/
def earliestMembership (userId : String) : Option String :=
  (a.members.find? (·.userId = userId)).map Member.organizationId

/-- The organisation a session starts in: the stored one, or else that of the earliest membership.
It is none for a user without a context. -/
def startsIn (userId : String) : Option String :=
  match a.contexts userId with
  | none => none
  | some context => context.activeOrganizationId.or (a.earliestMembership userId)

/-- The hook before a session is created, and the creation. -/
def createSession (id userId : String) : Accounts :=
  { a with
    contexts := Function.update a.contexts userId ((a.contexts userId).getD ⟨none⟩)
    sessions := Function.update a.sessions id (some ⟨userId, a.startsIn userId⟩) }

/-- Changes the active organisation of a session. -/
def updateSession (id : String) (change : Session → Option String) : Accounts :=
  { a with
    sessions := Function.update a.sessions id
      ((a.sessions id).map fun s => { s with activeOrganizationId := change s }) }

/-- Removes the members of some users in some organisations. -/
def dropMembers (gone : String → String → Bool) : Accounts :=
  { a with members := a.members.filter fun m => !gone m.userId m.organizationId }

variable (plugin : OrganizationPlugin)

/-- One event. -/
def step : IamEvent → Accounts
  | .createSession id userId => if (a.sessions id).isSome then a else a.createSession id userId
  | .patchActiveOrganization userId orgId =>
    if orgId ≠ "" ∧ a.members.any (fun m => m.userId = userId ∧ m.organizationId = orgId) then
      a.upsertContext userId (some orgId)
    else a
  | .setUserContext userId activeOrganizationId =>
    if activeOrganizationId = "" then a else a.upsertContext userId (some activeOrganizationId)
  | .setActive sessionId requested =>
    a.updateSession sessionId fun s => plugin.setActive a.toState s requested
  | .addMember member => { a with members := a.members ++ [member] }
  | .join sessionId organizationId role =>
    match a.sessions sessionId with
    | none => a
    | some s =>
      { a.updateSession sessionId fun s => plugin.afterJoining s organizationId with
        members := a.members ++ [{ userId := s.userId, organizationId, role }] }
  | .removeMember caller userId organizationId =>
    (a.dropMembers fun u o => u = userId ∧ o = organizationId).updateSession caller fun s =>
      plugin.afterRemoval s userId organizationId
  | .deleteOrganization organizationId => a.dropMembers fun _ o => o = organizationId
  | .removeUser userId =>
    { a.dropMembers fun u _ => u = userId with
      contexts := Function.update a.contexts userId none
      sessions := fun id => (a.sessions id).filter (·.userId ≠ userId) }
  | .deleteSession id => { a with sessions := Function.update a.sessions id none }
  | .cacheSession id => { a with cookies := a.cookies ++ (a.sessions id).toList }
  | .expireCookie cookie => { a with cookies := a.cookies.erase cookie }

end Accounts

/-! ### Tokens -/

/-- The claims of a token. -/
structure JwtPayload where
  sub : String
  activeOrganizationId : Option String
  permissions : List String

/-- `definePayload`, with the permissions of `buildUserContext`. -/
def definePayload (st : State) (s : Session) : JwtPayload where
  sub := s.userId
  activeOrganizationId := s.activeOrganizationId
  permissions :=
    match orNone s.activeOrganizationId with
    | none => []
    | some organizationId => getUserPermissions st s.userId organizationId

/-- The context the backend builds from a token, `_verify_jwt`. -/
def jwtContext (payload : JwtPayload) : TenantContext where
  organizationId := payload.activeOrganizationId.getD ""
  projectId := none
  actorId := payload.sub
  scopes := payload.permissions

/-- A session a token can be issued for: one on record, or a copy in a cookie. -/
def Accounts.Live (a : Accounts) (s : Session) : Prop :=
  (∃ id, a.sessions id = some s) ∨ s ∈ a.cookies

/-- Every token that can be issued names an organisation the user is a member of, or none. -/
def TokensCurrent (a : Accounts) : Prop :=
  ∀ s, a.Live s → ∀ organizationId,
    (definePayload a.toState s).activeOrganizationId = some organizationId →
      a.IsMember s.userId organizationId

/-- Every stored context names an organisation the user is a member of, or none. -/
def ContextsCurrent (a : Accounts) : Prop :=
  ∀ userId context, a.contexts userId = some context → ∀ organizationId,
    context.activeOrganizationId = some organizationId → a.IsMember userId organizationId

/-- None of the memberships that end is named by a session or a cookie. -/
def NotNamed (a : Accounts) (gone : String → String → Prop) : Prop :=
  ∀ s, a.Live s → ∀ organizationId, s.activeOrganizationId = some organizationId →
    ¬gone s.userId organizationId

/-- What a step must meet for the tokens. -/
def KeepsTokens (plugin : OrganizationPlugin) (a : Accounts) : IamEvent → Prop
  -- the stored organisation is still one of the user's
  | .createSession id userId => a.sessions id = none → ∀ context organizationId,
      a.contexts userId = some context → context.activeOrganizationId = some organizationId →
        a.IsMember userId organizationId
  | .removeMember caller userId organizationId =>
      NotNamed (a.updateSession caller fun s => plugin.afterRemoval s userId organizationId)
        fun u o => u = userId ∧ o = organizationId
  | .deleteOrganization organizationId => NotNamed a fun _ o => o = organizationId
  | .removeUser userId => ∀ s ∈ a.cookies, s.userId = userId → s.activeOrganizationId = none
  | _ => True

/-- What a step must meet for the contexts. -/
def KeepsContexts (a : Accounts) : IamEvent → Prop
  | .setUserContext userId organizationId =>
      organizationId ≠ "" → a.IsMember userId organizationId
  | .removeMember _ userId organizationId => ∀ context, a.contexts userId = some context →
      context.activeOrganizationId ≠ some organizationId
  | .deleteOrganization organizationId => ∀ userId context, a.contexts userId = some context →
      context.activeOrganizationId ≠ some organizationId
  | _ => True

/-! ### Steps -/

section Steps

variable {a a' : Accounts} {plugin : OrganizationPlugin}

theorem isMember_dropMembers {gone : String → String → Bool} {userId organizationId : String} :
    (a.dropMembers gone).IsMember userId organizationId
      ↔ a.IsMember userId organizationId ∧ gone userId organizationId = false := by
  constructor
  · rintro ⟨m, hm, rfl, rfl⟩
    obtain ⟨hm, hgone⟩ := List.mem_filter.mp hm
    exact ⟨⟨m, hm, rfl, rfl⟩, by simpa using hgone⟩
  · rintro ⟨⟨m, hm, rfl, rfl⟩, hgone⟩
    exact ⟨m, List.mem_filter.mpr ⟨hm, by simpa using hgone⟩, rfl, rfl⟩

theorem isMember_append {member : Member} {userId organizationId : String}
    (h : a.IsMember userId organizationId) :
    State.IsMember { a.toState with members := a.members ++ [member] } userId organizationId := by
  obtain ⟨m, hm, hmember⟩ := h
  exact ⟨m, List.mem_append_left _ hm, hmember⟩

/-- The earliest membership is one. -/
theorem isMember_of_earliestMembership {userId organizationId : String}
    (h : a.earliestMembership userId = some organizationId) : a.IsMember userId organizationId := by
  unfold Accounts.earliestMembership at h
  obtain ⟨m, hfind, rfl⟩ := Option.map_eq_some_iff.mp h
  exact ⟨m, List.mem_of_find?_eq_some hfind, by simpa using List.find?_some hfind, rfl⟩

/-- No session is new, and no membership ends. -/
theorem TokensCurrent.mono (h : TokensCurrent a) (hlive : ∀ s, a'.Live s → a.Live s)
    (hmember : ∀ userId organizationId, a.IsMember userId organizationId →
      a'.IsMember userId organizationId) : TokensCurrent a' :=
  fun s hs organizationId hactive => hmember _ _ (h s (hlive s hs) organizationId hactive)

/-- A session changes what it has active. -/
theorem TokensCurrent.updateSession (h : TokensCurrent a) (id : String)
    {change : Session → Option String}
    (hchange : ∀ s, a.sessions id = some s → ∀ organizationId, change s = some organizationId →
      a'.IsMember s.userId organizationId)
    (hmember : ∀ userId organizationId, a.IsMember userId organizationId →
      a'.IsMember userId organizationId)
    (hsessions : a'.sessions = (a.updateSession id change).sessions)
    (hcookies : a'.cookies = a.cookies) : TokensCurrent a' := by
  intro s hs organizationId hactive
  obtain ⟨id', hid'⟩ | hcookie := hs
  · rw [hsessions] at hid'
    unfold Accounts.updateSession at hid'
    by_cases heq : id' = id
    · subst heq
      simp only [Function.update_self, Option.map_eq_some_iff] at hid'
      obtain ⟨s, hsession, rfl⟩ := hid'
      exact hchange s hsession organizationId hactive
    · simp only [Function.update_of_ne heq] at hid'
      exact hmember _ _ (h s (.inl ⟨id', hid'⟩) organizationId hactive)
  · rw [hcookies] at hcookie
    exact hmember _ _ (h s (.inr hcookie) organizationId hactive)

/-- Memberships end. -/
theorem TokensCurrent.dropMembers_iff (h : TokensCurrent a) (gone : String → String → Bool) :
    TokensCurrent (a.dropMembers gone) ↔ NotNamed a fun u o => gone u o = true := by
  constructor
  · intro hcurrent s hs organizationId hactive hgone
    have hkept := (isMember_dropMembers.mp (hcurrent s hs organizationId hactive)).2
    rw [hgone] at hkept
    cases hkept
  · intro hnamed s hs organizationId hactive
    refine isMember_dropMembers.mpr ⟨h s hs organizationId hactive, ?_⟩
    exact Bool.eq_false_iff.mpr (hnamed s hs organizationId hactive)

/-- A session starts. -/
theorem TokensCurrent.createSession_iff (h : TokensCurrent a) {id : String} (userId : String)
    (hid : a.sessions id = none) :
    TokensCurrent (a.createSession id userId) ↔ ∀ context organizationId,
      a.contexts userId = some context → context.activeOrganizationId = some organizationId →
        a.IsMember userId organizationId := by
  constructor
  · intro hcurrent context organizationId hcontext hactive
    have hlive : (a.createSession id userId).Live ⟨userId, a.startsIn userId⟩ :=
      .inl ⟨id, Function.update_self id _ _⟩
    refine hcurrent _ hlive organizationId ?_
    show a.startsIn userId = some organizationId
    unfold Accounts.startsIn
    simp only [hcontext, hactive, Option.some_or]
  · intro hcontext s hs organizationId hactive
    obtain ⟨id', hid'⟩ | hcookie := hs
    · unfold Accounts.createSession at hid'
      by_cases heq : id' = id
      · subst heq
        simp only [Function.update_self, Option.some.injEq] at hid'
        subst hid'
        have hstarts : a.startsIn userId = some organizationId := hactive
        unfold Accounts.startsIn at hstarts
        split at hstarts
        · cases hstarts
        · rename_i context hfound
          obtain hstored | ⟨-, hearliest⟩ := Option.or_eq_some_iff.mp hstarts
          · exact hcontext context organizationId hfound hstored
          · exact isMember_of_earliestMembership hearliest
      · simp only [Function.update_of_ne heq] at hid'
        exact h s (.inl ⟨id', hid'⟩) organizationId hactive
    · exact h s (.inr hcookie) organizationId hactive

/-- Who joins is a member by then. -/
theorem TokensCurrent.join (hplugin : plugin.Lawful) (h : TokensCurrent a)
    (sessionId organizationId role : String) :
    TokensCurrent (a.step plugin (.join sessionId organizationId role)) := by
  simp only [Accounts.step]
  cases hsession : a.sessions sessionId with
  | none => exact h
  | some s =>
    refine h.updateSession sessionId (fun s' hs' o hactive => ?_)
      (fun _ _ => isMember_append) rfl rfl
    obtain rfl : s = s' := Option.some.inj (hsession.symm.trans hs')
    obtain hsame | hjoined := hplugin.afterJoining_eq s organizationId
    · rw [hsame] at hactive
      exact isMember_append (h s (.inl ⟨sessionId, hsession⟩) o hactive)
    · obtain rfl : organizationId = o := Option.some.inj (hjoined.symm.trans hactive)
      exact ⟨_, List.mem_append_right _ (List.mem_singleton_self _), rfl, rfl⟩

/-- The caller's session may be cleared; then a membership ends. -/
theorem TokensCurrent.removeMember_iff (hplugin : plugin.Lawful) (h : TokensCurrent a)
    (caller userId organizationId : String) :
    TokensCurrent (a.step plugin (.removeMember caller userId organizationId))
      ↔ KeepsTokens plugin a (.removeMember caller userId organizationId) := by
  have hupdate : TokensCurrent
      (a.updateSession caller fun s => plugin.afterRemoval s userId organizationId) := by
    refine h.updateSession caller (fun s hs o hactive => ?_) (fun _ _ hm => hm) rfl rfl
    obtain hsame | hnone := hplugin.afterRemoval_eq s userId organizationId
    · rw [hsame] at hactive
      exact h s (.inl ⟨caller, hs⟩) o hactive
    · rw [hnone] at hactive
      cases hactive
  have hdrop := hupdate.dropMembers_iff fun u o => u = userId ∧ o = organizationId
  simp only [decide_eq_true_eq] at hdrop
  exact hdrop

/-- The user's sessions on record go with the user, the copies in cookies do not. -/
theorem TokensCurrent.removeUser_iff (h : TokensCurrent a) (userId : String) :
    TokensCurrent (a.step plugin (.removeUser userId))
      ↔ KeepsTokens plugin a (.removeUser userId) := by
  have hothers : TokensCurrent
      { a with
        contexts := Function.update a.contexts userId none
        sessions := fun id => (a.sessions id).filter (·.userId ≠ userId) } := by
    refine h.mono (fun s hs => hs.imp_left ?_) fun _ _ hm => hm
    rintro ⟨id, hid⟩
    exact ⟨id, (Option.filter_eq_some_iff.mp hid).1⟩
  refine (hothers.dropMembers_iff fun u _ => u = userId).trans ?_
  simp only [decide_eq_true_eq]
  constructor
  · intro hnamed s hs huser
    cases hactive : s.activeOrganizationId with
    | none => rfl
    | some o => exact absurd huser (hnamed s (.inr hs) o hactive)
  · rintro hcookies s (⟨id, hid⟩ | hs) o hactive huser
    · have hne := (Option.filter_eq_some_iff.mp hid).2
      simp [huser] at hne
    · rw [hcookies s hs huser] at hactive
      cases hactive

/-- **A step keeps the tokens current exactly if it meets its condition.** -/
theorem TokensCurrent.step_iff (hplugin : plugin.Lawful) (h : TokensCurrent a) (e : IamEvent) :
    TokensCurrent (a.step plugin e) ↔ KeepsTokens plugin a e := by
  cases e with
  | createSession id userId =>
    simp only [Accounts.step, KeepsTokens]
    cases hid : a.sessions id with
    | none => simpa [hid] using h.createSession_iff userId hid
    | some s => simpa [hid] using h
  | patchActiveOrganization userId orgId =>
    refine iff_of_true ?_ trivial
    simp only [Accounts.step]
    split <;> exact h
  | setUserContext userId organizationId =>
    refine iff_of_true ?_ trivial
    simp only [Accounts.step]
    split <;> exact h
  | setActive sessionId requested =>
    refine iff_of_true (h.updateSession sessionId ?_ (fun _ _ hm => hm) rfl rfl) trivial
    exact fun s _ organizationId hactive => hplugin.setActive_member hactive
  | addMember member =>
    exact iff_of_true (h.mono (fun _ hs => hs) fun _ _ => isMember_append) trivial
  | join sessionId organizationId role =>
    exact iff_of_true (h.join hplugin sessionId organizationId role) trivial
  | removeMember caller userId organizationId =>
    exact h.removeMember_iff hplugin caller userId organizationId
  | deleteOrganization organizationId =>
    have hdrop := h.dropMembers_iff fun _ o => o = organizationId
    simp only [decide_eq_true_eq] at hdrop
    exact hdrop
  | removeUser userId => exact h.removeUser_iff userId
  | deleteSession id =>
    refine iff_of_true (h.mono (fun s hs => hs.imp_left ?_) fun _ _ hm => hm) trivial
    rintro ⟨id', hid'⟩
    refine ⟨id', ?_⟩
    by_cases heq : id' = id
    · simp [Accounts.step, heq] at hid'
    · simpa [Accounts.step, heq] using hid'
  | cacheSession id =>
    refine iff_of_true (h.mono (fun s hs => ?_) fun _ _ hm => hm) trivial
    obtain hsession | hcookie := hs
    · exact .inl hsession
    · obtain hold | hnew := List.mem_append.mp hcookie
      · exact .inr hold
      · exact .inl ⟨id, by simpa using hnew⟩
  | expireCookie cookie =>
    refine iff_of_true (h.mono (fun s hs => hs.imp_right ?_) fun _ _ hm => hm) trivial
    exact fun hcookie => List.mem_of_mem_erase hcookie

/-- Contexts are written, and no membership ends. -/
theorem ContextsCurrent.upsert_iff (h : ContextsCurrent a) (userId organizationId : String) :
    ContextsCurrent (a.upsertContext userId (some organizationId))
      ↔ a.IsMember userId organizationId := by
  unfold Accounts.upsertContext
  constructor
  · intro hcurrent
    exact hcurrent userId ⟨some organizationId⟩ (Function.update_self userId _ _) organizationId rfl
  · intro hmember userId' context hcontext o hactive
    by_cases heq : userId' = userId
    · subst heq
      simp only [Function.update_self, Option.some.injEq] at hcontext
      subst hcontext
      obtain rfl : organizationId = o := Option.some.inj hactive
      exact hmember
    · simp only [Function.update_of_ne heq] at hcontext
      exact h userId' context hcontext o hactive

theorem ContextsCurrent.mono (h : ContextsCurrent a) (hcontexts : ∀ userId context,
      a'.contexts userId = some context → context.activeOrganizationId = none
        ∨ a.contexts userId = some context)
    (hmember : ∀ userId organizationId, a.IsMember userId organizationId →
      a'.IsMember userId organizationId) : ContextsCurrent a' := by
  intro userId context hcontext o hactive
  obtain hnone | hold := hcontexts userId context hcontext
  · rw [hnone] at hactive
    cases hactive
  · exact hmember _ _ (h userId context hold o hactive)

theorem ContextsCurrent.dropMembers_iff (h : ContextsCurrent a) (gone : String → String → Bool) :
    ContextsCurrent (a.dropMembers gone) ↔ ∀ userId context, a.contexts userId = some context →
      ∀ organizationId, context.activeOrganizationId = some organizationId →
        gone userId organizationId = false := by
  constructor
  · intro hcurrent userId context hcontext o hactive
    exact (isMember_dropMembers.mp (hcurrent userId context hcontext o hactive)).2
  · intro hkept userId context hcontext o hactive
    have hmember := h userId context hcontext o hactive
    exact isMember_dropMembers.mpr ⟨hmember, hkept userId context hcontext o hactive⟩

/-- A new context names no organisation. -/
theorem ContextsCurrent.createSession (h : ContextsCurrent a) (id userId : String) :
    ContextsCurrent (a.createSession id userId) := by
  refine h.mono (fun userId' context hcontext => ?_) fun _ _ hm => hm
  unfold Accounts.createSession at hcontext
  by_cases heq : userId' = userId
  · subst heq
    simp only [Function.update_self, Option.some.injEq] at hcontext
    cases hfound : a.contexts userId' with
    | none =>
      rw [hfound] at hcontext
      exact .inl (hcontext ▸ rfl)
    | some found =>
      rw [hfound] at hcontext
      exact .inr (congrArg some hcontext)
  · simp only [Function.update_of_ne heq] at hcontext
    exact .inr hcontext

/-- **A step keeps the contexts current exactly if it meets its condition.** -/
theorem ContextsCurrent.step_iff (h : ContextsCurrent a) (e : IamEvent) :
    ContextsCurrent (a.step plugin e) ↔ KeepsContexts a e := by
  cases e with
  | createSession id userId =>
    refine iff_of_true ?_ trivial
    simp only [Accounts.step]
    split
    · exact h
    · exact h.createSession id userId
  | patchActiveOrganization userId orgId =>
    refine iff_of_true ?_ trivial
    simp only [Accounts.step]
    split
    · rename_i hmember
      refine (h.upsert_iff userId orgId).mpr ?_
      simpa [State.IsMember] using hmember.2
    · exact h
  | setUserContext userId organizationId =>
    simp only [Accounts.step, KeepsContexts]
    split
    · rename_i hempty
      exact iff_of_true h fun hne => absurd hempty hne
    · rename_i hne
      rw [h.upsert_iff]
      exact ⟨fun hmember _ => hmember, fun hmember => hmember hne⟩
  | setActive sessionId requested => exact iff_of_true h trivial
  | addMember member =>
    exact iff_of_true (h.mono (fun _ _ hc => .inr hc) fun _ _ => isMember_append) trivial
  | join sessionId organizationId role =>
    refine iff_of_true ?_ trivial
    simp only [Accounts.step]
    split
    · exact h
    · exact h.mono (fun _ _ hc => .inr hc) fun _ _ => isMember_append
  | removeMember caller userId organizationId =>
    refine (h.dropMembers_iff fun u o => u = userId ∧ o = organizationId).trans ?_
    simp only [decide_eq_false_iff_not]
    constructor
    · intro hkept context hcontext hactive
      exact hkept userId context hcontext organizationId hactive ⟨rfl, rfl⟩
    · rintro hnot u context hcontext o hactive ⟨rfl, rfl⟩
      exact hnot context hcontext hactive
  | deleteOrganization organizationId =>
    refine (h.dropMembers_iff fun _ o => o = organizationId).trans ?_
    simp only [decide_eq_false_iff_not]
    constructor
    · intro hkept userId context hcontext hactive
      exact hkept userId context hcontext organizationId hactive rfl
    · rintro hnot userId context hcontext o hactive rfl
      exact hnot userId context hcontext hactive
  | removeUser userId =>
    refine iff_of_true ?_ trivial
    intro u context hcontext o hactive
    simp only [Accounts.step] at hcontext
    by_cases heq : u = userId
    · simp [heq] at hcontext
    · simp only [Function.update_of_ne heq] at hcontext
      have hmember : (a.dropMembers fun u _ => u = userId).IsMember u o :=
        isMember_dropMembers.mpr ⟨h u context hcontext o hactive, decide_eq_false heq⟩
      exact hmember
  | deleteSession id => exact iff_of_true h trivial
  | cacheSession id => exact iff_of_true h trivial
  | expireCookie cookie => exact iff_of_true h trivial

/-- A session starts current while the stored contexts are. -/
theorem ContextsCurrent.keepsTokens_createSession (h : ContextsCurrent a) (id userId : String) :
    KeepsTokens plugin a (.createSession id userId) :=
  fun _ context o hcontext hactive => h userId context hcontext o hactive

/-- The backend's tenant is an organisation of the actor, or blank. -/
theorem TokensCurrent.tenant (h : TokensCurrent a) {s : Session} (hs : a.Live s) :
    (jwtContext (definePayload a.toState s)).organizationId = "" ∨
      a.IsMember (jwtContext (definePayload a.toState s)).actorId
        (jwtContext (definePayload a.toState s)).organizationId := by
  show s.activeOrganizationId.getD "" = "" ∨ a.IsMember s.userId (s.activeOrganizationId.getD "")
  cases hactive : s.activeOrganizationId with
  | none => exact .inl rfl
  | some o => exact .inr (h s hs o hactive)

end Steps

/-! ### Runs -/

section Runs

variable {a : Accounts} {plugin : OrganizationPlugin}

/-- The contexts of a run are current exactly if contexts are set to organisations of their users,
and no membership ends that a context still names. -/
theorem contexts_current_iff (h : ContextsCurrent a) (events : List IamEvent) :
    Throughout (Accounts.step · plugin) ContextsCurrent a events
      ↔ EachStep (Accounts.step · plugin) KeepsContexts a events :=
  throughout_iff_eachStep (I := fun _ => True) (fun _ _ _ => trivial)
    (fun _ e _ hcurrent => hcurrent.step_iff e) trivial h

/-- **The tokens of a run are current exactly if every session starts in an organisation of its
user, and no membership ends that a session or a cookie still names.** -/
theorem tokens_current_iff (hplugin : plugin.Lawful) (h : TokensCurrent a)
    (events : List IamEvent) :
    Throughout (Accounts.step · plugin) TokensCurrent a events
      ↔ EachStep (Accounts.step · plugin) (KeepsTokens plugin) a events :=
  throughout_iff_eachStep (I := fun _ => True) (fun _ _ _ => trivial)
    (fun _ e _ hcurrent => hcurrent.step_iff hplugin e) trivial h

end Runs

/-- A plugin that clears the caller's session when its user leaves. -/
def devPlugin : OrganizationPlugin where
  setActive st s requested := requested.filter fun o =>
    st.members.any fun m => m.userId = s.userId ∧ m.organizationId = o
  afterJoining _ organizationId := some organizationId
  afterRemoval s userId organizationId :=
    if s.userId = userId ∧ s.activeOrganizationId = some organizationId then none
    else s.activeOrganizationId

theorem devPlugin_lawful : devPlugin.Lawful where
  setActive_member := by
    intro st s requested o h
    obtain ⟨-, hany⟩ := Option.filter_eq_some_iff.mp h
    simpa [State.IsMember] using hany
  afterJoining_eq _ _ := .inr rfl
  afterRemoval_eq s userId organizationId := by
    show ite _ _ _ = _ ∨ ite _ _ _ = _
    split
    · exact .inr rfl
    · exact .inl rfl

/-- Nobody is there. -/
def Accounts.empty : Accounts where
  members := []
  organizationRoles := []
  contexts _ := none
  sessions _ := none
  cookies := []

theorem tokensCurrent_empty : TokensCurrent .empty := by
  rintro s (⟨id, hid⟩ | hcookie)
  · cases hid
  · cases hcookie

/-- A user signs in, becomes a member, and makes the organisation active. -/
def joinRun : List IamEvent :=
  [.createSession "s1" "ann", .addMember ⟨"ann", "acme", "member"⟩,
    .patchActiveOrganization "ann" "acme"]

/-- The user signs in again, and leaves from the session in which the organisation is active. -/
theorem tokens_current_leave : Throughout (Accounts.step · devPlugin) TokensCurrent .empty
    (joinRun ++ [.createSession "s2" "ann", .removeMember "s2" "ann" "acme"]) := by
  refine (tokens_current_iff devPlugin_lawful tokensCurrent_empty _).mpr ?_
  refine ⟨?_, trivial, trivial, ?_, ?_, trivial⟩
  · rintro - context o hcontext
    cases hcontext
  · rintro - context o hcontext hactive
    obtain rfl := Option.some.inj hcontext
    obtain rfl := Option.some.inj hactive
    exact ⟨⟨"ann", "acme", "member"⟩, .head _, rfl, rfl⟩
  · rintro s (⟨id, hid⟩ | hcookie) o hactive ⟨-, rfl⟩
    · by_cases h2 : id = "s2"
      · subst h2
        obtain rfl := Option.some.inj hid
        cases hactive
      · by_cases h1 : id = "s1"
        · subst h1
          obtain rfl := Option.some.inj hid
          cases hactive
        · simp [Accounts.updateSession, Accounts.step, Accounts.createSession,
            Accounts.upsertContext, Accounts.empty, h1, h2] at hid
    · cases hcookie

/-- The user is removed, and signs in again. -/
def removalRun : List IamEvent :=
  joinRun ++ [.removeMember "s0" "ann" "acme", .createSession "s2" "ann"]

/-- The token of the new session names the organisation. -/
theorem token_outlives_membership :
    (definePayload (removalRun.foldl (Accounts.step · devPlugin) .empty).toState
        ⟨"ann", some "acme"⟩).activeOrganizationId = some "acme" ∧
      (removalRun.foldl (Accounts.step · devPlugin) .empty).Live ⟨"ann", some "acme"⟩ ∧
      ¬(removalRun.foldl (Accounts.step · devPlugin) .empty).IsMember "ann" "acme" ∧
      ¬Throughout (Accounts.step · devPlugin) TokensCurrent .empty removalRun := by
  have hlive : (removalRun.foldl (Accounts.step · devPlugin) .empty).Live ⟨"ann", some "acme"⟩ :=
    .inl ⟨"s2", rfl⟩
  have hmember : ¬(removalRun.foldl (Accounts.step · devPlugin) .empty).IsMember "ann" "acme" := by
    rintro ⟨m, hm, -⟩
    have hnone : (removalRun.foldl (Accounts.step · devPlugin) .empty).members = [] := rfl
    rw [hnone] at hm
    cases hm
  exact ⟨rfl, hlive, hmember, fun h => hmember (h.last _ hlive "acme" rfl)⟩

end Iam

end FileNest
