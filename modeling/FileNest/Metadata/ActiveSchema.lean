import FileNest.Versioning

/-!
# The active metadata schema

A project keeps every version of its metadata schema and validates against the active
one.  `create_schema` reads the greatest version, deactivates the active rows it sees and
inserts the next version, active.  Two that overlap take the same version and leave two
active rows, on which `get_active` raises.

## Main definitions

* `projectSchemas`, `schemaVersions` — the schemas of a project.
* `OneActiveSchema` — one active row, of the greatest of distinct versions.
* `SchemasInTurn` — no schema of the project committed between a creation's read and commit.

## Main results

* `OneActiveSchema.step_iff` — one step.
* `one_active_schema_iff` — **one schema is active exactly where creations take turns.**
* `two_active_schemas` — two first schemas, created side by side.
-/

namespace FileNest

open RowStore ReadCommitted MetadataSchemaRepository

/-- The schemas of a project, in table order. -/
def projectSchemas (db : Database) (projectId organizationId : String) : List MetadataSchema :=
  (db .metadataSchemas).filter fun (r : MetadataSchema) =>
    r.projectId == projectId && r.organizationId == organizationId

def schemaVersions (db : Database) (projectId organizationId : String) : List ℕ :=
  (projectSchemas db projectId organizationId).map MetadataSchema.version

/-- At most one schema is active, the versions are distinct, the active one is the newest. -/
structure OneActiveSchema (db : Database) (projectId organizationId : String) : Prop where
  active : (activeRows db projectId organizationId).length ≤ 1
  distinct : (schemaVersions db projectId organizationId).Nodup
  newest : ∀ r ∈ activeRows db projectId organizationId,
    ∀ v ∈ schemaVersions db projectId organizationId, v ≤ r.version

/-- **The condition** on the commit of a new schema of the project: the schemas of the project are
still those that it read. -/
def SchemasInTurn (p o : String) : Guard Table.Row ServiceCall := fun db c snapshot =>
  ∀ schema, c.op = .createSchema schema → c.projectId = p → c.ctx.organizationId = o →
    projectSchemas db p o = projectSchemas snapshot p o

/-! ### Queries -/

section Queries

variable {db snapshot : Database} {p o : String}

theorem activeRows_eq_filter (db : Database) (p o : String) :
    activeRows db p o = (projectSchemas db p o).filter fun r => r.isActive := by
  rw [activeRows, projectSchemas, List.filter_filter]
  refine List.filter_congr fun (r : MetadataSchema) _ => ?_
  simp only [Bool.and_comm]

/-- No version is greater than the one `get_max_version` finds. -/
theorem le_getMaxVersion {v : ℕ} (h : v ∈ schemaVersions db p o) : v ≤ getMaxVersion db p o := by
  obtain ⟨r, hr, rfl⟩ := List.mem_map.mp h
  have hsorted := Sql.sorted_orderByDesc MetadataSchema.version (projectSchemas db p o)
  have hmem := (Sql.perm_orderByDesc MetadataSchema.version (projectSchemas db p o)).mem_iff.mpr hr
  have hlist : MetadataSchemaRepository.list db p o
    = Sql.orderByDesc MetadataSchema.version (projectSchemas db p o) := rfl
  rw [getMaxVersion, hlist]
  cases hrows : Sql.orderByDesc MetadataSchema.version (projectSchemas db p o) with
  | nil =>
    rw [hrows] at hmem
    cases hmem
  | cons first rest =>
    rw [hrows] at hmem hsorted
    rcases List.mem_cons.mp hmem with rfl | hmem
    · exact le_refl _
    · exact (List.pairwise_cons.mp hsorted).1 r hmem

theorem getMaxVersion_congr (h : projectSchemas db p o = projectSchemas snapshot p o) :
    getMaxVersion db p o = getMaxVersion snapshot p o := by
  have hlist : list db p o = list snapshot p o :=
    congrArg (Sql.orderByDesc MetadataSchema.version) h
  rw [getMaxVersion, getMaxVersion, hlist]

/-- `get_active` raises on two active rows, and on nothing else. -/
theorem getActive_ok_iff :
    (∃ r, getActive db p o = .ok r) ↔ (activeRows db p o).length ≤ 1 := by
  rw [getActive]
  rcases activeRows db p o with _ | ⟨row, _ | ⟨row', rest⟩⟩
  · simp [scalarOneOrNone]
  · simp [scalarOneOrNone]
  · simp [scalarOneOrNone, Sql.oneOrNone]

end Queries

/-! ### One creation -/

section Creation

variable {db snapshot : Database} {p o : String}

/-- `UPDATE … SET is_active = false`, of the rows with these ids. -/
theorem applyAll_deactivate (rows : List MetadataSchema) (db : Database) :
    applyAll (rows.map fun r => (.update .metadataSchemas r.id deactivate : DbWrite)) db
        .metadataSchemas
      = (db .metadataSchemas).map fun (r : MetadataSchema) =>
        if r.id ∈ rows.map MetadataSchema.id then { r with isActive := false } else r := by
  induction rows generalizing db with
  | nil => simp
  | cons row rows ih =>
    rw [List.map_cons, applyAll_cons, ih, apply_update_self, List.map_map]
    refine List.map_congr_left fun (r : MetadataSchema) _ => ?_
    simp only [Function.comp, List.map_cons, List.mem_cons]
    by_cases hid : r.id = row.id
    · simp [hid, pk, rowId, deactivate]
    · simp [hid, pk, rowId]

/-- What `create_schema` leaves of the schemas of a project. -/
theorem projectSchemas_create {rows : List MetadataSchema} {record : MetadataSchema} :
    projectSchemas (applyAll
        (rows.map (fun r => (.update .metadataSchemas r.id deactivate : DbWrite))
        ++ [.insert .metadataSchemas record]) db) p o
      = (projectSchemas db p o).map (fun r =>
          if r.id ∈ rows.map MetadataSchema.id then { r with isActive := false } else r)
        ++ if record.projectId = p ∧ record.organizationId = o then [record] else [] := by
  rw [projectSchemas, applyAll_append, applyAll_cons, applyAll_nil, apply_insert_self,
    applyAll_deactivate, List.filter_append, List.filter_map, projectSchemas]
  congr 1
  · congr 1
    refine List.filter_congr fun (r : MetadataSchema) _ => ?_
    simp only [Function.comp]
    split <;> rfl
  · by_cases hrecord : record.projectId = p ∧ record.organizationId = o
    · simp [hrecord]
    · rw [if_neg hrecord, List.filter_cons_of_neg (by simpa using hrecord), List.filter_nil]

/-- Deactivation changes no version. -/
theorem schemaVersions_create {rows : List MetadataSchema} {record : MetadataSchema} :
    schemaVersions (applyAll
        (rows.map (fun r => (.update .metadataSchemas r.id deactivate : DbWrite))
        ++ [.insert .metadataSchemas record]) db) p o
      = schemaVersions db p o
        ++ if record.projectId = p ∧ record.organizationId = o then [record.version] else [] := by
  rw [schemaVersions, projectSchemas_create, List.map_append, List.map_map, schemaVersions]
  congr 1
  · refine List.map_congr_left fun r _ => ?_
    simp only [Function.comp]
    split <;> rfl
  · split <;> rfl

/-- A creation that commits on what it read leaves its own schema as the active one. -/
theorem OneActiveSchema.create {record : MetadataSchema} (h : OneActiveSchema db p o)
    (hp : record.projectId = p) (ho : record.organizationId = o)
    (hversion : record.version = getMaxVersion snapshot p o + 1) (hactive : record.isActive = true)
    (hread : projectSchemas db p o = projectSchemas snapshot p o) :
    OneActiveSchema (applyAll (deactivateAll snapshot p o ++ [.insert .metadataSchemas record]) db)
      p o := by
  have hactiveRows : activeRows (applyAll (deactivateAll snapshot p o
      ++ [.insert .metadataSchemas record]) db) p o = [record] := by
    rw [activeRows_eq_filter, deactivateAll, projectSchemas_create, if_pos ⟨hp, ho⟩,
      List.filter_append, List.filter_cons_of_pos hactive, List.filter_nil]
    refine List.append_left_eq_self.mpr (List.filter_eq_nil_iff.mpr fun r' hr' => ?_)
    obtain ⟨r, hr, rfl⟩ := List.mem_map.mp hr'
    split
    · simp
    · -- a row that stays was inactive in what the creation read
      rename_i hid
      intro hr_active
      refine hid (List.mem_map_of_mem ?_)
      rw [activeRows_eq_filter, ← hread]
      exact List.mem_filter.mpr ⟨hr, hr_active⟩
  have hversions : schemaVersions (applyAll (deactivateAll snapshot p o
      ++ [.insert .metadataSchemas record]) db) p o
      = schemaVersions db p o ++ [record.version] := by
    rw [deactivateAll, schemaVersions_create, if_pos ⟨hp, ho⟩]
  have hnew : ∀ v ∈ schemaVersions db p o, v < record.version := by
    intro v hv
    rw [hversion, ← getMaxVersion_congr hread]
    exact Nat.lt_succ_of_le (le_getMaxVersion hv)
  constructor
  · rw [hactiveRows]
    exact le_refl _
  · rw [hversions, List.nodup_append]
    refine ⟨h.distinct, List.nodup_singleton _, fun v hv w hw => ?_⟩
    rw [List.mem_singleton.mp hw]
    exact (hnew v hv).ne
  · intro r hr v hv
    rw [hactiveRows, List.mem_singleton] at hr
    rw [hversions, List.mem_append, List.mem_singleton] at hv
    rw [hr]
    rcases hv with hv | rfl
    · exact (hnew v hv).le
    · exact le_refl _

/-- What a call does to the schemas: nothing, or it creates the next version. -/
inductive SchemaEffect (c : ServiceCall) (snapshot : Database) (ws : List DbWrite) : Prop
  | none (hop : ∀ schema, c.op ≠ .createSchema schema) (hws : ∀ w ∈ ws, w.table ≠ .metadataSchemas)
  | create (schema : Fields) (record : MetadataSchema) (hop : c.op = .createSchema schema)
      (hp : record.projectId = c.projectId) (ho : record.organizationId = c.ctx.organizationId)
      (hversion : record.version
        = getMaxVersion snapshot c.projectId c.ctx.organizationId + 1)
      (hactive : record.isActive = true)
      (hws : ws = deactivateAll snapshot c.projectId c.ctx.organizationId
        ++ [.insert .metadataSchemas record])

/-- **Every call has one of the effects.** -/
theorem ServiceCall.schemaEffect {c : ServiceCall} {r : Response} {ws : List DbWrite}
    (hsnap : snapshot.Good) (h : c.result snapshot = .ok (r, ws)) : SchemaEffect c snapshot ws := by
  have hsound := Operation.sound hsnap h
  obtain ⟨ctx, env, projectId, op⟩ := c
  by_cases hop : ∃ schema, op = .createSchema schema
  · obtain ⟨schema, rfl⟩ := hop
    simp only [ServiceCall.result, Operation.run, MetadataService.createSchema, pure_eq_ok,
      Prod.mk.injEq] at h
    exact .create schema _ rfl rfl rfl rfl rfl h.2.symm
  · refine .none (fun schema heq => hop ⟨schema, heq⟩) fun w hw htable => ?_
    have htables := hsound.tables w hw
    rw [htable] at htables
    cases op <;> simp [Operation.tables] at htables hop

/-- A creation leaves the schemas of another project alone. -/
theorem projectSchemas_create_other (hdb : db.Good) {p' o' : String} {record : MetadataSchema}
    (hp : record.projectId = p') (ho : record.organizationId = o') (hne : ¬(p' = p ∧ o' = o))
    (hkeys : ∀ k ∈ snapshot.keys .metadataSchemas, k ∈ db.keys .metadataSchemas) :
    projectSchemas (applyAll (deactivateAll snapshot p' o' ++ [.insert .metadataSchemas record]) db)
      p o = projectSchemas db p o := by
  rw [deactivateAll, projectSchemas_create, if_neg (by rwa [hp, ho]), List.append_nil]
  refine (List.map_congr_left fun r hr => if_neg fun hid => ?_).trans (List.map_id _)
  obtain ⟨r', hr', hid⟩ := List.mem_map.mp hid
  obtain ⟨hr'_mem, hr'_project⟩ := List.mem_filter.mp hr'
  obtain ⟨hr_mem, hr_project⟩ := List.mem_filter.mp hr
  simp only [Bool.and_eq_true, beq_iff_eq] at hr'_project hr_project
  obtain ⟨r'', hr'', hpk, howner⟩ := exists_of_mem_keys (hkeys _ (mem_keys_of_mem hr'_mem))
  have hsame : r'' = r := hdb.uniquePk.eq_of_pk (t := .metadataSchemas) hr'' hr_mem
    (hpk.trans hid)
  rw [hsame] at howner
  have howner_p : r.projectId = r'.projectId := congrArg Owner.projectId howner
  have howner_o : r.organizationId = r'.organizationId := congrArg Owner.organizationId howner
  refine hne ⟨?_, ?_⟩
  · rw [← hr'_project.1.1, ← howner_p, hr_project.1]
  · rw [← hr'_project.1.2, ← howner_o, hr_project.2]

theorem SchemaEffect.keys {c : ServiceCall} {ws : List DbWrite} (h : SchemaEffect c snapshot ws)
    {k : String × Owner} (hk : k ∈ db.keys .metadataSchemas) :
    k ∈ Store.keys (applyAll ws db) .metadataSchemas := by
  refine mem_keys_applyAll (fun w hw q heq => ?_) hk
  cases h with
  | none hop hws => exact hws w hw (heq ▸ rfl)
  | create schema record hop hp ho hversion hactive hws =>
    rw [hws, heq] at hw
    simp [deactivateAll] at hw

/-- Only a new schema of the project changes its schemas. -/
theorem SchemaEffect.projectSchemas_eq {c : ServiceCall} {ws : List DbWrite}
    (h : SchemaEffect c snapshot ws) (hdb : db.Good)
    (hkeys : ∀ k ∈ snapshot.keys .metadataSchemas, k ∈ db.keys .metadataSchemas)
    (hop : ∀ schema, c.op = .createSchema schema → ¬(c.projectId = p ∧ c.ctx.organizationId = o)) :
    projectSchemas (applyAll ws db) p o = projectSchemas db p o := by
  cases h with
  | none hop' hws => rw [projectSchemas, applyAll_of_table_ne hws, projectSchemas]
  | create schema record hop' hp ho hversion hactive hws =>
    rw [hws]
    exact projectSchemas_create_other hdb hp ho (hop schema hop') hkeys

end Creation

/-! ### Runs -/

section Runs

variable {p o : String} {w w' : World Table.Row ServiceCall}

/-- What a transaction knows of the schemas since it read them: they are unchanged, or someone
else has taken the version it is going to use. -/
def SchemasRead (p o : String) (snapshot db : Database) : Prop :=
  (∀ k ∈ snapshot.keys .metadataSchemas, k ∈ db.keys .metadataSchemas)
    ∧ ((schemaVersions db p o).Nodup → projectSchemas db p o = projectSchemas snapshot p o
      ∨ getMaxVersion snapshot p o + 1 ∈ schemaVersions db p o)

theorem SchemasRead.refl (p o : String) (db : Database) : SchemasRead p o db db :=
  ⟨fun _ hk => hk, fun _ => .inl rfl⟩

/-- What the commits of others leave of it. -/
theorem SchemasRead.commit {snap snapshot db : Database} {c : ServiceCall} {ws : List DbWrite}
    (h : SchemasRead p o snap db) (hdb : db.Good) (hread : SchemasRead p o snapshot db)
    (heffect : SchemaEffect c snapshot ws) : SchemasRead p o snap (applyAll ws db) := by
  refine ⟨fun k hk => heffect.keys (h.1 k hk), fun hnodup => ?_⟩
  by_cases hop : ∀ schema, c.op = .createSchema schema →
      ¬(c.projectId = p ∧ c.ctx.organizationId = o)
  · have hrows := heffect.projectSchemas_eq hdb hread.1 hop
    rw [schemaVersions, hrows] at hnodup
    rw [schemaVersions, hrows]
    exact h.2 hnodup
  · push Not at hop
    obtain ⟨_, hop, rfl, rfl⟩ := hop
    obtain ⟨hop', -⟩ | ⟨schema, record, -, hp, ho, hversion, -, rfl⟩ := heffect
    · exact absurd hop (hop' _)
    · rw [deactivateAll, schemaVersions_create, if_pos ⟨hp, ho⟩] at hnodup ⊢
      obtain ⟨hnodup, -, hfresh⟩ := List.nodup_append.mp hnodup
      refine .inr (List.mem_append.mpr ?_)
      rcases h.2 hnodup with hsame | htaken
      · -- the version just taken is the one this transaction is going to use
        refine .inr (List.mem_singleton.mpr ?_)
        have hread' : projectSchemas db c.projectId c.ctx.organizationId
            = projectSchemas snapshot c.projectId c.ctx.organizationId :=
          (hread.2 hnodup).resolve_right fun htaken =>
            hfresh _ htaken _ (List.mem_singleton_self _) hversion.symm
        rw [hversion, ← getMaxVersion_congr hsame, getMaxVersion_congr hread']
      · exact .inl htaken

/-- Transactions in flight, in any run. -/
theorem schemasRead_of_reachable {commits : Guard Table.Row ServiceCall}
    (hw : Reachable ServiceCall.writes commits (· = Database.empty) w) (p o : String) :
    Database.Good w.store
      ∧ ∀ x ∈ w.inflight, Database.Good x.2 ∧ SchemasRead p o x.2 w.store := by
  have hinv := ServiceCall.invariant_inflight (P := fun _ => True) (R := SchemasRead p o) trivial
    (SchemasRead.refl p o) (fun db snapshot c r ws hdb hsnap _ hread _ hr _ _ =>
      ⟨trivial, fun snap h => h.commit hdb hread (c.schemaEffect hsnap hr)⟩) hw
  exact ⟨hinv.1.1, fun x hx => ⟨(hinv.2 x hx).1, (hinv.2 x hx).2.2⟩⟩

/-- **A commit leaves one schema active exactly if it takes its turn.** -/
theorem OneActiveSchema.commit_iff {snapshot db : Database} {c : ServiceCall} {ws : List DbWrite}
    (h : OneActiveSchema db p o) (hdb : db.Good) (hread : SchemasRead p o snapshot db)
    (heffect : SchemaEffect c snapshot ws) :
    OneActiveSchema (applyAll ws db) p o ↔ SchemasInTurn p o db c snapshot := by
  by_cases hop : ∀ schema, c.op = .createSchema schema →
      ¬(c.projectId = p ∧ c.ctx.organizationId = o)
  · have hrows := heffect.projectSchemas_eq hdb hread.1 hop
    refine iff_of_true ⟨?_, ?_, ?_⟩ fun schema hcreate hp ho => absurd ⟨hp, ho⟩ (hop schema hcreate)
    · rw [activeRows_eq_filter, hrows, ← activeRows_eq_filter]
      exact h.active
    · rw [schemaVersions, hrows]
      exact h.distinct
    · rw [activeRows_eq_filter, schemaVersions, hrows, ← activeRows_eq_filter]
      exact h.newest
  · push Not at hop
    obtain ⟨_, hop, rfl, rfl⟩ := hop
    obtain ⟨hop', -⟩ | ⟨schema, record, -, hp, ho, hversion, hactive, rfl⟩ := heffect
    · exact absurd hop (hop' _)
    · constructor
      · intro hkept _ _ _ _
        refine (hread.2 h.distinct).resolve_right fun htaken => ?_
        have hnodup := hkept.distinct
        rw [deactivateAll, schemaVersions_create, if_pos ⟨hp, ho⟩, List.nodup_append] at hnodup
        exact hnodup.2.2 _ htaken _ (List.mem_singleton_self _) hversion.symm
      · exact fun hturn => h.create hp ho hversion hactive (hturn _ hop rfl rfl)

/-- **A step leaves one schema active exactly if it takes its turn.** -/
theorem OneActiveSchema.step_iff {commits : Guard Table.Row ServiceCall}
    (hw : Reachable ServiceCall.writes commits (· = Database.empty) w)
    (h : OneActiveSchema w.store p o) (hs : Step ServiceCall.writes .always w w') :
    OneActiveSchema w'.store p o ↔ Step ServiceCall.writes (SchemasInTurn p o) w w' := by
  obtain ⟨hdb, hinflight⟩ := schemasRead_of_reachable hw p o
  refine Step.iff_of_commit (P := fun db => OneActiveSchema db p o) h ?_ hs
  intro c snapshot ws hmem hws _
  obtain ⟨r, hr⟩ := ServiceResult.writes_eq_some.mp hws
  obtain ⟨hsnap, hread⟩ := hinflight _ hmem
  exact h.commit_iff hdb hread (c.schemaEffect hsnap hr)

theorem oneActiveSchema_empty (p o : String) : OneActiveSchema Database.empty p o where
  active := Nat.zero_le _
  distinct := List.nodup_nil
  newest := fun r hr => by cases hr

/-- **One schema is active exactly where creations take turns**: runs whose creations all do keep
one active schema of the greatest version, which `get_active` finds, and the first creation that
does not take its turn breaks that. -/
theorem one_active_schema_iff (p o : String) :
    (∀ w, Reachable ServiceCall.writes (SchemasInTurn p o) (· = Database.empty) w →
        OneActiveSchema w.store p o ∧ ∃ r, getActive w.store p o = .ok r)
      ∧ ∀ w w', Reachable ServiceCall.writes .always (· = Database.empty) w →
        OneActiveSchema w.store p o → Step ServiceCall.writes .always w w' →
          (OneActiveSchema w'.store p o ↔ Step ServiceCall.writes (SchemasInTurn p o) w w') := by
  refine ⟨fun w hw => ?_, fun w w' hw h hs => h.step_iff hw hs⟩
  have hone : OneActiveSchema w.store p o := by
    induction hw with
    | init hdb =>
      rw [hdb]
      exact oneActiveSchema_empty p o
    | step hw hs ih => exact (ih.step_iff hw hs.always).mpr hs
  exact ⟨hone, getActive_ok_iff.mpr hone.active⟩

end Runs

/-- A project. -/
def schemaProject : List ServiceCall :=
  [⟨orgContext "acme", devEnv "p" 1, "", .createProject devProject⟩]

/-- A new schema for it. -/
def newSchema (tag : String) (now : ℕ) : ServiceCall :=
  ⟨orgContext "acme", devEnv tag now, "p0", .createSchema [("type", .str "object")]⟩

/-- Two schemas, one after the other. -/
theorem one_active_schema_in_turn :
    let db := runAll (schemaProject ++ [newSchema "x" 2, newSchema "y" 3]) Database.empty
    (activeRows db "p0" "acme").map MetadataSchema.version = [2]
      ∧ OneActiveSchema db "p0" "acme" ∧ ∃ r, getActive db "p0" "acme" = .ok r := by
  have hrun := reachable_runAll (SchemasInTurn "p0" "acme") (fun _ _ _ _ _ _ => rfl)
    (schemaProject ++ [newSchema "x" 2, newSchema "y" 3]) (.init rfl)
  exact ⟨by decide, (one_active_schema_iff "p0" "acme").1 _ hrun⟩

/-- Two first schemas, created side by side, are both active and both version one. -/
theorem two_active_schemas : ¬∀ w : World Table.Row ServiceCall,
    Reachable ServiceCall.writes .always (· = Database.empty) w →
      ∀ p o, OneActiveSchema w.store p o ∧ ∃ r, getActive w.store p o = .ok r := by
  intro h
  have hstart := reachable_runAll .always (fun _ _ => trivial) schemaProject (.init rfl)
  have hread := (hstart.step (.read (newSchema "x" 2))).step (.read (newSchema "y" 3))
  have hfirst := hread.step (.commit [] [_] rfl (by decide) trivial)
  have hsecond := hfirst.step (.commit [] [] rfl (by decide) trivial)
  have hactive := getActive_ok_iff.mp (h _ hsecond "p0" "acme").2
  exact absurd hactive (by decide)

end FileNest
