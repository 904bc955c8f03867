import LogDrift.Store.Schema

/-!
# Migration

A migration goes from the version that it reads to the current one, a step at a time. A step
succeeds if the tables that it needs exist, and then changes the version and, on the way to the
second version, the indexes (`migrationStep_eq_done_iff`); the index may be there before the version
cannot be written, and is taken back with the savepoint (`run_migrationBody`, `migrationStep_eq`). So
what any number of completed steps leaves can be said in one line (`StepsTo.eq_worked`), and
a migration that stops is one that did fewer of them (`migrate_stepsTo`).

## Key results

- `migrate_stepsTo`: a migration is a run of completed steps, up to the current version or to the
  first step that fails
- `StepsTo.version_eq`: the version read after completed steps is the one that they led to
- `migrate_snd_eq_none_iff`: a migration succeeds if its tables exist
- `initialise_eq`: a store can always be initialised, and keeps its rows
-/

namespace LogDrift

/-- The rows of the meta table besides that of the schema version. -/
def MetaTable.otherRows (t : MetaTable) : List (String × Option String) :=
  t.rows.filter (·.1 ≠ versionKey)

/-- To write a version leaves the other rows of the meta table. -/
theorem MetaTable.otherRows_withVersion (t : MetaTable) (text : Option String) :
    (t.withVersion text).otherRows = t.otherRows :=
  filter_putText versionKey text t.rows

namespace Database

/-! ## One step -/

/-- The database with the number of a version written, if it has a meta table. -/
def atVersion (db : Database) (v : Int) : Database :=
  { db with metaTable := db.metaTable.map (·.withVersion (some (toString v))) }

/-- The database with what the work of the step to a version makes. -/
def worked (db : Database) (v : Int) : Database :=
  if v = 2 then { db with indexes := db.indexes.insert .byFile } else db

/-- The work of a step leaves the commits. -/
@[simp] theorem commits_worked (db : Database) (v : Int) : (db.worked v).commits = db.commits := by
  rw [worked]
  split <;> rfl

/-- It leaves the logs. -/
@[simp] theorem logs_worked (db : Database) (v : Int) : (db.worked v).logs = db.logs := by
  rw [worked]
  split <;> rfl

/-- It leaves the meta table, too, so the version is written apart. -/
@[simp] theorem metaTable_worked (db : Database) (v : Int) :
    (db.worked v).metaTable = db.metaTable := by
  rw [worked]
  split <;> rfl

/-- Of two versions written, only the later one is there. -/
private theorem atVersion_worked_atVersion (db : Database) (v w : Int) :
    ((db.atVersion v).worked w).atVersion w = (db.worked w).atVersion w := by
  have htable : (db.metaTable.map (·.withVersion (some (toString v)))).map
      (·.withVersion (some (toString w))) =
        db.metaTable.map (·.withVersion (some (toString w))) := by
    cases db.metaTable <;> simp
  rw [worked, worked]
  split <;> simp only [atVersion, htable]

/-- A version that is written is read back, if it fits into its column. -/
private theorem version_atVersion {db : Database} {v : Int} (hfits : isInt32 v = true)
    (htable : db.metaTable.isSome = true) : (db.atVersion v).version = v := by
  obtain ⟨table, htable⟩ := Option.isSome_iff_exists.mp htable
  simpa [version, atVersion, htable] using congrArg (·.getD 0) (readVersion?_toString hfits)

/-- Whatever the meta table holds, the version that is read fits into its column. -/
private theorem isInt32_version (db : Database) : isInt32 db.version = true := by
  rw [version]
  cases h : ((db.metaTable.bind (·.version)).getD none).bind readVersion? with
  | none => rfl
  | some n =>
    obtain ⟨text, -, hread⟩ := Option.bind_eq_some_iff.mp h
    exact isInt32_of_readVersion? hread

/-- To write a version takes a meta table. -/
private theorem setVersionText_eq (db : Database) (v : Int) :
    db.setVersionText (some (toString v)) =
      if db.metaTable.isSome then .ok (db.atVersion v) else .error (.noSuchTable metaName) := by
  rw [setVersionText, atVersion]
  cases db.metaTable <;> rfl

/-- The work of a step takes the logs, on the way to the second version. -/
private theorem migrationWork_eq (db : Database) (next : Int) :
    db.migrationWork next =
      if next = 2 → db.logs.isSome then .ok (db.worked next)
      else .error (.noSuchTable (mainName logsName)) := by
  rw [migrationWork, worked]
  by_cases hnext : next = 2
  · rw [if_pos hnext, if_pos hnext, createIndex]
    cases db.logs with
    | none => exact (if_neg fun h => nomatch h hnext).symm
    | some logs => exact (if_pos fun _ => rfl).symm
  · rw [if_neg hnext, if_neg hnext, if_pos fun h => absurd h hnext]

/-- What a step does on its savepoint. If only the meta table is missing, the work is done when the
    version cannot be written. -/
theorem run_migrationBody (t : Transaction) (next : Int) :
    t.run (migrationBody next) =
      if next = 2 → t.current.logs.isSome then
        if t.current.metaTable.isSome then
          ({ t with current := (t.current.worked next).atVersion next }.release, none)
        else ({ t with current := t.current.worked next }, some (.noSuchTable metaName))
      else (t, some (.noSuchTable (mainName logsName))) := by
  rw [migrationBody, Transaction.run, Transaction.execute, migrationWork_eq]
  by_cases hlogs : next = 2 → t.current.logs.isSome = true
  · have hversion := setVersionText_eq (t.current.worked next) next
    rw [metaTable_worked] at hversion
    rw [if_pos hlogs, if_pos hlogs]
    simp only [bind, Except.bind, pure, Except.pure]
    rw [Transaction.run, Transaction.execute, hversion]
    cases t.current.metaTable <;> rfl
  · rw [if_neg hlogs, if_neg hlogs]
    rfl

/-- A step is made, or its database stays as it was. -/
theorem migrationStep_eq (db : Database) (next : Int) :
    db.migrationStep next =
      if next = 2 → db.logs.isSome then
        if db.metaTable.isSome then ((db.worked next).atVersion next, none)
        else (db, some (.noSuchTable metaName))
      else (db, some (.noSuchTable (mainName logsName))) := by
  have hcurrent : (Transaction.begin db).savepoint.current = db := rfl
  rw [migrationStep, run_migrationBody, hcurrent]
  by_cases hlogs : next = 2 → db.logs.isSome = true
  · rw [if_pos hlogs, if_pos hlogs]
    by_cases htable : db.metaTable.isSome = true
    · rw [if_pos htable, if_pos htable]
      rfl
    · -- The work was done already, and is lost with the savepoint.
      rw [if_neg htable, if_neg htable]
      rfl
  · rw [if_neg hlogs, if_neg hlogs]
    rfl

/-- A step succeeds if and only if the tables that it needs exist, and does its work and writes the
    version. -/
theorem migrationStep_eq_done_iff {db db' : Database} {next : Int} :
    db.migrationStep next = (db', none) ↔
      db.metaTable.isSome = true ∧ (next = 2 → db.logs.isSome = true) ∧
        db' = (db.worked next).atVersion next := by
  rw [migrationStep_eq]
  by_cases hlogs : next = 2 → db.logs.isSome = true
  · rw [if_pos hlogs, and_iff_right hlogs]
    by_cases htable : db.metaTable.isSome = true
    · rw [if_pos htable, and_iff_right htable, Prod.mk.injEq, and_iff_left rfl, eq_comm]
    · -- Without one of the tables, neither side holds.
      rw [if_neg htable]
      exact iff_of_false (fun h => nomatch (Prod.mk.inj h).2) fun h => htable h.1
  · rw [if_neg hlogs]
    exact iff_of_false (fun h => nomatch (Prod.mk.inj h).2) fun h => hlogs h.2.1

/-- A step that fails leaves the database as it was. -/
theorem eq_of_migrationStep {db db' : Database} {next : Int} {fault : DatabaseFault}
    (h : db.migrationStep next = (db', some fault)) : db' = db := by
  rw [migrationStep_eq] at h
  split at h
  · split at h
    · exact nomatch (Prod.mk.inj h).2
    · exact (Prod.mk.inj h).1.symm
  · exact (Prod.mk.inj h).1.symm

/-! ## Completed steps -/

/-- A run of completed steps: from a database at one version to a database at another one. -/
inductive StepsTo : Int → Database → Int → Database → Prop
  | done (v : Int) (db : Database) : StepsTo v db v db
  | step {v w : Int} {db db' ended : Database} (hv : v < schemaVersion)
      (hstep : db.migrationStep (v + 1) = (db', none)) (hrest : StepsTo (v + 1) db' w ended) :
      StepsTo v db w ended

namespace StepsTo

variable {v w : Int} {db ended : Database}

/-- Steps lead upwards, and to the current version at most. -/
theorem le (h : StepsTo v db w ended) : v ≤ w ∧ w ≤ max v schemaVersion := by
  induction h with
  | done v db => omega
  | step hv _ _ ih => omega

/-- All that completed steps leave is the version, and the work of the last of them. -/
theorem eq_worked (h : StepsTo v db w ended) :
    ended = if v = w then db else (db.worked w).atVersion w := by
  induction h with
  | done v db => rw [if_pos rfl]
  | @step v w db db' ended hv hstep hrest ih =>
    -- The first step wrote its version, which the later ones write over.
    obtain ⟨-, -, rfl⟩ := migrationStep_eq_done_iff.mp hstep
    have hle := hrest.le
    rw [if_neg (by omega), ih]
    split
    · rename_i hlast
      rw [hlast]
    · -- Before the last step there is no work to do.
      have hnext : db.worked (v + 1) = db := if_neg (by rw [schemaVersion] at hle; omega)
      rw [hnext, atVersion_worked_atVersion]

/-- Completed steps leave the commits. -/
theorem commits_eq (h : StepsTo v db w ended) : ended.commits = db.commits := by
  rw [h.eq_worked]
  split
  · rfl
  · exact commits_worked db w

/-- Completed steps leave the logs. -/
theorem logs_eq (h : StepsTo v db w ended) : ended.logs = db.logs := by
  rw [h.eq_worked]
  split
  · rfl
  · exact logs_worked db w

/-- Completed steps leave the other rows of the meta table. -/
theorem otherRows_eq (h : StepsTo v db w ended) :
    ended.metaTable.map MetaTable.otherRows = db.metaTable.map MetaTable.otherRows := by
  rw [h.eq_worked]
  split
  · rfl
  · rw [atVersion, metaTable_worked]
    cases db.metaTable with
    | none => rfl
    | some t => exact congrArg some (t.otherRows_withVersion _)

/-- Completed steps make no meta table and drop none. -/
theorem isSome_metaTable (h : StepsTo v db w ended) :
    ended.metaTable.isSome = db.metaTable.isSome := by
  rw [h.eq_worked]
  split
  · rfl
  · rw [atVersion, metaTable_worked, Option.isSome_map]

/-- The tables that completed steps need exist. -/
theorem isSome_of_lt (h : StepsTo v db w ended) (hlt : v < w) :
    db.metaTable.isSome = true ∧ (w = 2 → db.logs.isSome = true) := by
  induction h with
  | done v db => omega
  | @step v w db db' ended hv hstep hrest ih =>
    obtain ⟨htable, hlogs, rfl⟩ := migrationStep_eq_done_iff.mp hstep
    refine ⟨htable, fun hw => ?_⟩
    rcases Int.lt_or_eq_of_le hrest.le.1 with hmore | hlast
    · have hlogs' := (ih hmore).2 hw
      rwa [atVersion, logs_worked] at hlogs'
    · exact hlogs (hlast.trans hw)

/-- The version that is read afterwards is the one that the steps led to. -/
theorem version_eq (h : StepsTo db.version db w ended) : ended.version = w := by
  have hle := h.le
  rw [h.eq_worked]
  split
  · assumption
  · rename_i hne
    have hlt : db.version < w := by omega
    -- The version lies between one that fits and the current one.
    have hfits : isInt32 w = true := by
      have hlower := isInt32_version db
      simp only [isInt32, Bool.and_eq_true, decide_eq_true_eq] at hlower ⊢
      rw [schemaVersion] at hle
      omega
    apply version_atVersion hfits
    rw [metaTable_worked]
    exact (h.isSome_of_lt hlt).1

end StepsTo

/-! ## The whole migration -/

/-- Whether a migration ended as it has to, at a version: at the current one or above, or where the
    next step fails. -/
def EndsAt (w : Int) : Database × Option DatabaseFault → Prop
  | (_, none) => schemaVersion ≤ w
  | (ended, some fault) => w < schemaVersion ∧ ended.migrationStep (w + 1) = (ended, some fault)

/-- So many steps below the current version, a migration is a run of completed steps. -/
private theorem migrationSteps_stepsTo (n : Nat) (db : Database) :
    ∃ w, StepsTo (schemaVersion - n) db w (migrationSteps n db).1 ∧
      EndsAt w (migrationSteps n db) := by
  induction n generalizing db with
  | zero => exact ⟨schemaVersion, .done _ db, Int.le_refl _⟩
  | succ n ih =>
    have hnext : schemaVersion - (n + 1 : Nat) + 1 = schemaVersion - n := by omega
    have hv : schemaVersion - (n + 1 : Nat) < schemaVersion := by omega
    rw [migrationSteps]
    split
    · rename_i db' hstep
      obtain ⟨w, hsteps, hends⟩ := ih db'
      exact ⟨w, .step hv (by rwa [hnext]) (by rwa [hnext]), hends⟩
    · -- A step that fails leaves the database as it was, and ends the migration there.
      rename_i db' fault hstep
      obtain rfl := eq_of_migrationStep hstep
      exact ⟨_, .done _ db', hv, by rwa [hnext]⟩

/-- A migration is a run of completed steps, up to the current version or to the first step that
    fails. -/
theorem migrate_stepsTo (db : Database) :
    ∃ w, StepsTo db.version db w db.migrate.1 ∧ EndsAt w db.migrate := by
  rw [migrate]
  rcases Int.lt_or_le db.version schemaVersion with hold | hcurrent
  · have hversion : schemaVersion - ((schemaVersion - db.version).toNat : Int) = db.version := by
      omega
    obtain ⟨w, hsteps, hends⟩ := migrationSteps_stepsTo (schemaVersion - db.version).toNat db
    rw [hversion] at hsteps
    exact ⟨w, hsteps, hends⟩
  · rw [Int.toNat_of_nonpos (by omega)]
    exact ⟨db.version, .done _ db, hcurrent⟩

/-- A database at the current version is left as it is. -/
theorem migrate_eq_of_current {db : Database} (h : schemaVersion ≤ db.version) :
    db.migrate = (db, none) := by
  rw [migrate, Int.toNat_of_nonpos (by omega), migrationSteps]

/-- A migration succeeds if and only if there is nothing to do or its tables exist. -/
theorem migrate_snd_eq_none_iff (db : Database) :
    db.migrate.2 = none ↔
      (db.version < schemaVersion → db.metaTable.isSome = true ∧ db.logs.isSome = true) := by
  obtain ⟨w, hsteps, hends⟩ := migrate_stepsTo db
  have hle := hsteps.le
  constructor
  · intro hnone hold
    -- It ended at the current version, so the last step needed both tables.
    have hw : schemaVersion ≤ w := by
      rw [← Prod.eta db.migrate, hnone] at hends
      exact hends
    obtain ⟨htable, hlogs⟩ := hsteps.isSome_of_lt (by omega)
    exact ⟨htable, hlogs (by rw [schemaVersion] at hle hold hw; omega)⟩
  · intro htables
    cases hfault : db.migrate.2 with
    | none => rfl
    | some fault =>
      -- The step that failed would have had its tables.
      rw [← Prod.eta db.migrate, hfault] at hends
      obtain ⟨hlt, hfails⟩ := hends
      obtain ⟨htable, hlogs⟩ := htables (by omega)
      rw [← hsteps.isSome_metaTable] at htable
      rw [← hsteps.logs_eq] at hlogs
      rw [migrationStep_eq_done_iff.mpr ⟨htable, fun _ => hlogs, rfl⟩] at hfails
      exact nomatch (Prod.mk.inj hfails).2

/-- The database with the tables and the first indexes made, as far as they were missing. -/
def withTables (db : Database) : Database where
  metaTable := some (db.metaTable.getD .empty)
  commits := some (db.commits.getD [])
  logs := some (db.logs.getD [])
  indexes := (db.indexes.insert .byCommit).insert .byKind

/-- The statements of the schema make what is missing, and none of them fails. -/
theorem runStatements_schemaStatements (db : Database) :
    db.runStatements schemaStatements = (db.withTables, none) := rfl

/-- A store can always be initialised. Its rows stay, and missing tables are made without rows. -/
theorem initialise_eq (db : Database) :
    ∃ made, db.initialise = (made, none) ∧ made.commits = some (db.commits.getD []) ∧
      made.logs = some (db.logs.getD []) := by
  obtain ⟨w, hsteps, -⟩ := migrate_stepsTo db.withTables
  refine ⟨db.withTables.migrate.1, ?_, hsteps.commits_eq, hsteps.logs_eq⟩
  have hmigrate : db.withTables.migrate.2 = none :=
    (migrate_snd_eq_none_iff _).mpr fun _ => ⟨rfl, rfl⟩
  rw [initialise, runStatements_schemaStatements]
  exact Prod.ext rfl hmigrate

/-- A migration that succeeded: it made every step up to the current version, wrote that version,
    and made the index over file paths. A database of a later version is as it was. -/
structure Migrated (db ended : Database) : Prop where
  steps : StepsTo db.version db (max db.version schemaVersion) ended
  version_eq : ended.version = max db.version schemaVersion
  eq_of_current : schemaVersion ≤ db.version → ended = db
  eq_of_older : db.version < schemaVersion →
    ended = { db with indexes := db.indexes.insert .byFile }.atVersion schemaVersion
  otherRows_eq : ended.metaTable.map MetaTable.otherRows = db.metaTable.map MetaTable.otherRows
  again : ended.migrate = (ended, none)

/-- A migration that failed at the step after version `w`: the steps up to `w` are completed, and
    it can go on from there once the tables exist. -/
structure StoppedAt (db ended : Database) (w : Int) (fault : DatabaseFault) : Prop where
  lt : w < schemaVersion
  steps : StepsTo db.version db w ended
  next_fails : ended.migrationStep (w + 1) = (ended, some fault)
  version_eq : ended.version = w
  eq_atVersion : ended = if db.version = w then db else db.atVersion w
  otherRows_eq : ended.metaTable.map MetaTable.otherRows = db.metaTable.map MetaTable.otherRows
  resumes : ∀ ready : Database, ready.metaTable = some (ended.metaTable.getD .empty) →
    ready.logs.isSome → ready.version = w ∧ ready.migrate.2 = none

/-- Completed steps up to the current version are a migration that succeeded. -/
theorem StepsTo.migrated {db ended : Database} {w : Int} (h : StepsTo db.version db w ended)
    (hw : schemaVersion ≤ w) : Migrated db ended := by
  obtain ⟨hle, hmax⟩ := h.le
  obtain rfl : w = max db.version schemaVersion := by omega
  refine ⟨h, h.version_eq, ?_, ?_, h.otherRows_eq, migrate_eq_of_current (h.version_eq ▸ hw)⟩
  · intro hcurrent
    rw [h.eq_worked, if_pos (by omega)]
  · intro hold
    have hmax : max db.version schemaVersion = schemaVersion := by omega
    rw [h.eq_worked, if_neg (by omega), hmax]
    rfl

/-- Completed steps in front of one that fails are a migration that stopped there. -/
theorem StepsTo.stoppedAt {db ended : Database} {w : Int} {fault : DatabaseFault}
    (h : StepsTo db.version db w ended) (hw : w < schemaVersion)
    (hfails : ended.migrationStep (w + 1) = (ended, some fault)) : StoppedAt db ended w fault := by
  refine ⟨hw, h, hfails, h.version_eq, ?_, h.otherRows_eq, ?_⟩
  · -- Only the last step has work to do, and this one was before it.
    have hwork : db.worked w = db := if_neg (by rw [schemaVersion] at hw; omega)
    rw [h.eq_worked, hwork]
  · intro ready htable hlogs
    have hversion : ready.version = ended.version := by
      rw [version, version, htable]
      cases ended.metaTable <;> rfl
    refine ⟨hversion.trans h.version_eq, (migrate_snd_eq_none_iff ready).mpr fun _ => ?_⟩
    rw [htable]
    exact ⟨rfl, hlogs⟩

end Database

/-- Migration makes its steps one by one and can be resumed. From every database it comes to an end.
    If it succeeds, the version is the current one, or the later one that was there, and besides the
    version only the index over file paths is new; another migration changes nothing. If it fails,
    the database is as after the last completed step, at the version of that step, and a migration
    from there succeeds once the tables exist. It fails only if a table is missing. Initialising a
    store never fails, and keeps every row of its commits and logs. -/
theorem migration_resumes (db : Database) :
    (match db.migrate with
      | (ended, none) => Database.Migrated db ended
      | (ended, some fault) => ∃ w, Database.StoppedAt db ended w fault) ∧
    (db.migrate.2 = none ↔
      (db.version < Database.schemaVersion → db.metaTable.isSome ∧ db.logs.isSome)) ∧
    ∃ made, db.initialise = (made, none) ∧ made.commits = some (db.commits.getD []) ∧
      made.logs = some (db.logs.getD []) := by
  refine ⟨?_, db.migrate_snd_eq_none_iff, db.initialise_eq⟩
  obtain ⟨w, hsteps, hends⟩ := db.migrate_stepsTo
  split
  · rename_i ended hmigrate
    rw [hmigrate] at hsteps hends
    exact hsteps.migrated hends
  · rename_i ended fault hmigrate
    rw [hmigrate] at hsteps hends
    exact ⟨w, hsteps.stoppedAt hends.1 hends.2⟩

/-- A database of an early version that has lost its logs. -/
def Database.ofLostLogs : Database :=
  ⟨some ⟨[("owner", none), (MetaTable.versionKey, some "-1")]⟩, some [], none, []⟩

/-- Its migration stops at version one, and reaches the current version once there are logs
    again. -/
theorem migration_resumes_of_lostLogs :
    ∃ ended fault, Database.ofLostLogs.migrate = (ended, some fault) ∧
      ended = Database.ofLostLogs.atVersion 1 ∧ ended.version = 1 ∧
      ({ ended with logs := some [] } : Database).migrate.2 = none := by
  have hmigrate : Database.ofLostLogs.migrate =
      (Database.ofLostLogs.atVersion 1, some (.noSuchTable "main.logs")) := by decide +kernel
  obtain ⟨hended, -⟩ := migration_resumes Database.ofLostLogs
  rw [hmigrate] at hended
  obtain ⟨w, hstopped⟩ := hended
  have hw : w = 1 := by
    rw [← hstopped.version_eq]
    decide +kernel
  refine ⟨_, _, hmigrate, rfl, hstopped.version_eq.trans hw, ?_⟩
  exact (hstopped.resumes _ rfl rfl).2

end LogDrift
