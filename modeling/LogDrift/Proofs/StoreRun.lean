import Mathlib.Data.Finset.Card
import LogDrift.Proofs.Migration
import LogDrift.Store.Directory

/-!
# Runs of a store

A store is changed by four operations: it is initialised, a commit is recorded, records are
inserted, a commit is deleted (`StoreOperation`). A run applies operations one after the other, also
those that fail. What an operation does to the rows of a database whose tables exist (`Has`) is said
once for each of them.

The rows that an insertion adds are those whose fingerprint is new, each fingerprint once
(`newRows`).

## Key results

- `Has.initialise`, `Has.recordCommit`, `Has.deleteCommit`, `Has.insertRecords`,
  `Has.insertRecords_not_recorded`: the rows after each operation
- `Has.insertRecords_eq`: an insertion for a recorded commit succeeds, and how many rows it adds
- `Has.insertParts_eq`: in how many parts records are inserted does not matter
-/

namespace LogDrift

/-! ## The first element of each key -/

section

variable {α β κ μ : Type} [DecidableEq κ] [DecidableEq μ]

/-- Of all elements with one key the first, in order. -/
def firstOfEach (key : α → κ) : List α → List α
  | [] => []
  | a :: as => a :: (firstOfEach key as).filter fun b => key b ≠ key a

/-- The first elements are in the order of the list. -/
theorem firstOfEach_sublist (key : α → κ) (as : List α) : (firstOfEach key as).Sublist as := by
  induction as with
  | nil => exact List.nil_sublist _
  | cons a as ih => exact (List.filter_sublist.trans ih).cons_cons a

/-- No key is lost. -/
theorem mem_map_firstOfEach (key : α → κ) {as : List α} {k : κ} :
    k ∈ (firstOfEach key as).map key ↔ k ∈ as.map key := by
  induction as with
  | nil => exact Iff.rfl
  | cons a as ih =>
    simp only [firstOfEach, List.map_cons, List.mem_cons, ← ih]
    -- Only elements with the key of the first one are left out behind it.
    by_cases hk : k = key a
    · simp [hk]
    · simp only [hk, false_or, List.mem_map, List.mem_filter, decide_eq_true_eq]
      constructor
      · rintro ⟨b, ⟨hb, -⟩, rfl⟩
        exact ⟨b, hb, rfl⟩
      · rintro ⟨b, hb, rfl⟩
        exact ⟨b, ⟨hb, hk⟩, rfl⟩

/-- No key is kept twice. -/
theorem nodup_map_firstOfEach (key : α → κ) (as : List α) :
    ((firstOfEach key as).map key).Nodup := by
  induction as with
  | nil => exact List.nodup_nil
  | cons a as ih =>
    rw [firstOfEach, List.map_cons, List.nodup_cons]
    constructor
    · -- No other element with the key of the first one was kept.
      intro ha
      obtain ⟨b, hb, hkey⟩ := List.mem_map.mp ha
      exact of_decide_eq_true (List.mem_filter.mp hb).2 hkey
    · exact ih.sublist (List.filter_sublist.map key)

/-- Of what is appended, the first elements with new keys are kept. -/
theorem firstOfEach_append (key : α → κ) (as bs : List α) :
    firstOfEach key (as ++ bs) =
      firstOfEach key as ++ (firstOfEach key bs).filter fun b => key b ∉ as.map key := by
  induction as with
  | nil => simp [firstOfEach]
  | cons a as ih =>
    simp only [List.cons_append, firstOfEach, ih, List.filter_append, List.filter_filter,
      List.cons.injEq, List.append_cancel_left_eq, true_and]
    apply List.filter_congr
    intro b _
    simp [not_or]

/-- As many elements are kept as there are keys. -/
theorem length_firstOfEach (key : α → κ) (as : List α) :
    (firstOfEach key as).length = (as.map key).toFinset.card := by
  have hkeys : (as.map key).toFinset = ((firstOfEach key as).map key).toFinset := by
    ext k
    rw [List.mem_toFinset, List.mem_toFinset, mem_map_firstOfEach]
  rw [hkeys, List.toFinset_card_of_nodup (nodup_map_firstOfEach key as), List.length_map]

/-- The first elements with a property that the key tells are those of the elements that have
    it. -/
theorem filter_firstOfEach (key : α → κ) {p : α → Bool} (hp : ∀ a b, key a = key b → p a = p b)
    (as : List α) : (firstOfEach key as).filter p = firstOfEach key (as.filter p) := by
  induction as with
  | nil => rfl
  | cons a as ih =>
    rw [firstOfEach, List.filter_cons, List.filter_cons, List.filter_filter]
    cases ha : p a with
    | true =>
      rw [if_pos rfl, if_pos rfl, firstOfEach, ← ih, List.filter_filter]
      congr 2
      funext b
      exact Bool.and_comm _ _
    | false =>
      -- None of the elements with the property has the key of this one.
      rw [if_neg Bool.false_ne_true, if_neg Bool.false_ne_true, ← ih]
      apply List.filter_congr
      intro b _
      by_cases hkey : key b = key a
      · simp [hp b a hkey, ha]
      · simp [hkey]

/-- As many elements are kept with new keys as there are new keys. -/
theorem length_filter_firstOfEach (key : α → κ) (as : List α) (old : List κ) :
    ((firstOfEach key as).filter fun a => key a ∉ old).length =
      ((as.map key).toFinset \ old.toFinset).card := by
  rw [filter_firstOfEach key (fun a b hkey => by rw [hkey]), length_firstOfEach]
  congr 1
  ext k
  simp only [List.mem_toFinset, List.mem_map, List.mem_filter, Finset.mem_sdiff,
    decide_eq_true_eq]
  constructor
  · rintro ⟨a, ⟨ha, hnew⟩, rfl⟩
    exact ⟨⟨a, ha, rfl⟩, hnew⟩
  · rintro ⟨⟨a, ha, rfl⟩, hnew⟩
    exact ⟨a, ⟨ha, hnew⟩, rfl⟩

/-- What tells elements apart is all that matters of a key. -/
theorem firstOfEach_map (f : α → β) (key : α → κ) (key' : β → μ) {as : List α}
    (h : ∀ a ∈ as, ∀ b ∈ as, key' (f a) = key' (f b) ↔ key a = key b) :
    firstOfEach key' (as.map f) = (firstOfEach key as).map f := by
  induction as with
  | nil => rfl
  | cons a as ih =>
    have htail := ih fun b hb c hc => h b (List.mem_cons_of_mem a hb) c (List.mem_cons_of_mem a hc)
    rw [List.map_cons, firstOfEach, firstOfEach, List.map_cons, htail, List.filter_map]
    congr 2
    apply List.filter_congr
    intro b hb
    have hb' := List.mem_cons_of_mem a ((firstOfEach_sublist key as).mem hb)
    simp [h b hb' a List.mem_cons_self]

end

/-! ## Operations -/

namespace Session

private theorem run_get_bind {α : Type} (next : Database → Session α) (db : Database) :
    (get >>= next).run.run db = (next db).run.run db := rfl

/-- An operation that succeeds gives its database. -/
theorem run_change_of_ok {α : Type} {f : Database → Except DatabaseFault (α × Database)}
    {db db' : Database} {a : α} (h : f db = .ok (a, db')) :
    (change f).run.run db = (.ok a, db') := by
  rw [change, run_get_bind, h]
  rfl

/-- One that fails leaves the database as it was. -/
theorem run_change_of_error {α : Type} {f : Database → Except DatabaseFault (α × Database)}
    {db : Database} {fault : DatabaseFault} (h : f db = .error fault) :
    (change f).run.run db = (.error (.database fault), db) := by
  rw [change, run_get_bind, h]
  rfl

/-- An initialisation always succeeds. -/
theorem run_initialise (db : Database) :
    initialise.run.run db = (.ok (), db.initialise.1) := by
  obtain ⟨made, hmade, -⟩ := db.initialise_eq
  rw [initialise, run_get_bind, hmade]
  rfl

end Session

/-- An operation that changes a store. -/
inductive StoreOperation where
  | initialise
  | recordCommit (info : CommitInfo) (summary : Summary)
  | insertRecords (commitId : String) (records : List ChangeRecord)
  | deleteCommit (commitId : String)

namespace StoreOperation

/-- The action of an operation. It gives the number of records inserted, or of commits deleted. -/
def session : StoreOperation → Session Nat
  | initialise => (fun _ => 0) <$> Session.initialise
  | recordCommit info summary => (fun _ => 0) <$> Session.recordCommit info summary
  | insertRecords commitId records => Session.insertRecords commitId records
  | deleteCommit commitId => Session.change fun db => db.deleteCommit commitId

/-- The database after an operation, which may fail. -/
def apply (op : StoreOperation) (db : Database) : Database := (op.session.run.run db).2

/-- An action that is followed by a function on its result. -/
theorem run_map {α β : Type} (f : α → β) (action : Session α) (db : Database) :
    (f <$> action).run.run db = (Except.map f (action.run.run db).1, (action.run.run db).2) := by
  simp
  rfl

/-- What an action gives does not matter for the database. -/
private theorem run_map_snd {α β : Type} (f : α → β) (action : Session α) (db : Database) :
    ((f <$> action).run.run db).2 = (action.run.run db).2 := by
  rw [run_map]

theorem apply_initialise (db : Database) : initialise.apply db = db.initialise.1 := by
  rw [apply, session, run_map_snd, Session.run_initialise]

theorem apply_recordCommit_of_ok {db db' : Database} {info : CommitInfo} {summary : Summary}
    (h : db.recordCommit info summary = .ok db') : (recordCommit info summary).apply db = db' := by
  have hchange : (db.recordCommit info summary).map (fun db => ((), db)) = .ok ((), db') := by
    rw [h]
    rfl
  rw [apply, session, run_map_snd, Session.recordCommit, Session.run_change_of_ok hchange]

theorem apply_insertRecords_of_ok {db db' : Database} {commitId : String}
    {records : List ChangeRecord} {count : Nat}
    (h : db.insertRecords commitId records = .ok (count, db')) :
    (insertRecords commitId records).apply db = db' := by
  rw [apply, session, Session.insertRecords, Session.run_change_of_ok h]

/-- An insertion that fails leaves the database as it was. -/
theorem apply_insertRecords_of_error {db : Database} {commitId : String}
    {records : List ChangeRecord} {fault : DatabaseFault}
    (h : db.insertRecords commitId records = .error fault) :
    (insertRecords commitId records).apply db = db := by
  rw [apply, session, Session.insertRecords, Session.run_change_of_error h]

private theorem apply_deleteCommit_of_ok {db db' : Database} {commitId : String} {count : Nat}
    (h : db.deleteCommit commitId = .ok (count, db')) :
    (deleteCommit commitId).apply db = db' := by
  rw [apply, session, Session.run_change_of_ok h]

end StoreOperation

namespace Database

/-- The database after a run. -/
def after (db : Database) (ops : List StoreOperation) : Database :=
  ops.foldl (fun db op => op.apply db) db

/-- The database of a store that was just initialised. -/
def initialised : Database := empty.initialise.1

theorem after_append (db : Database) (ops more : List StoreOperation) :
    db.after (ops ++ more) = (db.after ops).after more := List.foldl_append

theorem after_concat (db : Database) (ops : List StoreOperation) (op : StoreOperation) :
    db.after (ops ++ [op]) = op.apply (db.after ops) := by
  rw [after_append]
  rfl

/-- The tables of commits and logs exist and have these rows. -/
structure Has (db : Database) (commits : List CommitRow) (logs : List LogRow) : Prop where
  commits_eq : db.commits = some commits
  logs_eq : db.logs = some logs

namespace Has

variable {db : Database} {commits : List CommitRow} {logs : List LogRow}
  (h : db.Has commits logs)

include h

/-- Initialising a store again keeps its rows. -/
theorem initialise : (StoreOperation.initialise.apply db).Has commits logs := by
  obtain ⟨made, hmade, hcommits, hlogs⟩ := db.initialise_eq
  rw [StoreOperation.apply_initialise, hmade]
  exact ⟨by rw [hcommits, h.commits_eq]; rfl, by rw [hlogs, h.logs_eq]; rfl⟩

/-! ## Commits -/

/-- Recording a commit succeeds, and puts its row in place. -/
theorem recordCommit_eq (info : CommitInfo) (summary : Summary) :
    db.recordCommit info summary =
      .ok { db with commits := some (putRow (CommitRow.ofSummary info summary) commits) } := by
  rw [Database.recordCommit, h.commits_eq]
  rfl

/-- A commit that is recorded has its row, and all else stays. -/
theorem recordCommit (info : CommitInfo) (summary : Summary) :
    ((StoreOperation.recordCommit info summary).apply db).Has
      (putRow (CommitRow.ofSummary info summary) commits) logs := by
  rw [StoreOperation.apply_recordCommit_of_ok (h.recordCommit_eq info summary)]
  exact ⟨rfl, h.logs_eq⟩

/-- A commit that is deleted takes its row and the rows of its logs along. -/
theorem deleteCommit (commitId : String) :
    ((StoreOperation.deleteCommit commitId).apply db).Has
      (commits.filter (·.commitId ≠ commitId)) (logs.filter (·.commitId ≠ commitId)) := by
  have hdelete : db.deleteCommit commitId =
      .ok (commits.length - (commits.filter (·.commitId ≠ commitId)).length,
        { db with
          commits := some (commits.filter (·.commitId ≠ commitId))
          logs := db.logs.map (·.filter (·.commitId ≠ commitId)) }) := by
    rw [Database.deleteCommit, h.commits_eq]
    rfl
  rw [StoreOperation.apply_deleteCommit_of_ok hdelete]
  exact ⟨rfl, by rw [h.logs_eq]; rfl⟩

end Has

/-- The row of a commit that is recorded takes the place of the one before, and of no other. -/
theorem find?_putRow (row : CommitRow) (rows : List CommitRow) (commitId : String) :
    (putRow row rows).find? (·.commitId = commitId) =
      if row.commitId = commitId then some row else rows.find? (·.commitId = commitId) := by
  -- On the rows up to the one that is replaced.
  induction rows with
  | nil =>
    rw [putRow, List.find?_singleton]
    simp only [decide_eq_true_eq, List.find?_nil]
  | cons r rows ih =>
    rw [putRow]
    split
    · rename_i hsame
      simp only [List.find?_cons, hsame]
      by_cases hrow : row.commitId = commitId <;> simp [hrow]
    · rename_i hother
      rw [List.find?_cons, ih, List.find?_cons]
      by_cases hr : r.commitId = commitId
      · have hrow : row.commitId ≠ commitId := fun h => hother (hr.trans h.symm)
        simp [hr, hrow]
      · simp [hr]

/-! ## Records -/

/-- The rows of records are rows of their commit. -/
theorem commitId_of_mem_logRows {commitId : String} {records : List ChangeRecord} {row : LogRow}
    (h : row ∈ records.map (logRow commitId)) : row.commitId = commitId := by
  obtain ⟨r, -, rfl⟩ := List.mem_map.mp h
  rfl

/-- The rows that an insertion adds: those whose fingerprint is not there yet, each fingerprint
    once. -/
def newRows (logs rows : List LogRow) : List LogRow :=
  (firstOfEach (·.fingerprint) rows).filter fun row =>
    !logs.any (·.fingerprint = row.fingerprint)

/-- A row whose fingerprint is there is not new. -/
private theorem newRows_cons_of_mem {logs : List LogRow} {row : LogRow}
    (h : logs.any (·.fingerprint = row.fingerprint) = true) (rows : List LogRow) :
    newRows logs (row :: rows) = newRows logs rows := by
  rw [newRows, firstOfEach, List.filter_cons_of_neg (by simp [h]), List.filter_filter]
  apply List.filter_congr
  intro other _
  -- A row with the fingerprint of the first one is not new either.
  by_cases hsame : other.fingerprint = row.fingerprint
  · simp [hsame, h]
  · simp [hsame]

/-- A row whose fingerprint is not there is new, and its fingerprint is there for those behind
    it. -/
private theorem newRows_cons_of_not_mem {logs : List LogRow} {row : LogRow}
    (h : logs.any (·.fingerprint = row.fingerprint) = false) (rows : List LogRow) :
    newRows logs (row :: rows) = row :: newRows (logs ++ [row]) rows := by
  rw [newRows, firstOfEach, List.filter_cons_of_pos (by simp [h]), List.filter_filter]
  congr 1
  apply List.filter_congr
  intro other _
  rw [List.any_append]
  simp [eq_comm]

section

variable {commits : List CommitRow} {logs : List LogRow} {row : LogRow}

/-- A row whose fingerprint is there is passed over. -/
theorem addRows_cons_of_mem (h : logs.any (·.fingerprint = row.fingerprint) = true)
    (rows : List LogRow) : addRows commits logs (row :: rows) = addRows commits logs rows := by
  rw [addRows, addRow, if_pos h]
  change (addRows commits logs rows >>= fun r => pure (r.1, r.2)) = _
  cases addRows commits logs rows <;> rfl

/-- A row whose fingerprint is not there is added to those of its commit. -/
private theorem addRows_cons_of_not_mem (h : logs.any (·.fingerprint = row.fingerprint) = false)
    (hrecorded : commits.any (·.commitId = row.commitId) = true) (rows : List LogRow) :
    addRows commits logs (row :: rows) =
      (addRows commits (logs ++ [row]) rows).map fun r => (r.1 + 1, r.2) := by
  rw [addRows, addRow, h, if_neg Bool.false_ne_true, if_pos hrecorded]
  change (addRows commits (logs ++ [row]) rows >>= fun r => pure (r.1 + 1, r.2)) = _
  cases addRows commits (logs ++ [row]) rows <;> rfl

/-- It is refused if its commit is not recorded, and all rows behind it with it. -/
theorem addRows_cons_of_not_recorded (h : logs.any (·.fingerprint = row.fingerprint) = false)
    (hrecorded : commits.any (·.commitId = row.commitId) = false) (rows : List LogRow) :
    addRows commits logs (row :: rows) = .error .foreignKey := by
  rw [addRows, addRow, h, if_neg Bool.false_ne_true, hrecorded, if_neg Bool.false_ne_true]
  rfl

end

/-- The rows of recorded commits are added, as far as they are new. -/
private theorem addRows_eq {commits : List CommitRow} {rows : List LogRow}
    (h : ∀ row ∈ rows, commits.any (·.commitId = row.commitId) = true) (logs : List LogRow) :
    addRows commits logs rows = .ok ((newRows logs rows).length, logs ++ newRows logs rows) := by
  -- Row by row: what was added is there for the rows behind it.
  induction rows generalizing logs with
  | nil =>
    rw [addRows, newRows, firstOfEach, List.filter_nil, List.append_nil]
    rfl
  | cons row rows ih =>
    have htail := ih fun other hother => h other (List.mem_cons_of_mem row hother)
    cases hpresent : logs.any (·.fingerprint = row.fingerprint) with
    | true => rw [newRows_cons_of_mem hpresent, addRows_cons_of_mem hpresent, htail]
    | false =>
      rw [newRows_cons_of_not_mem hpresent,
        addRows_cons_of_not_mem hpresent (h row List.mem_cons_self), htail, List.append_assoc]
      rfl

/-- Rows of a commit that is not recorded are never added. -/
private theorem eq_of_addRows {commits : List CommitRow} {rows : List LogRow}
    (h : ∀ row ∈ rows, commits.any (·.commitId = row.commitId) = false) {logs logs' : List LogRow}
    {count : Nat} (hadd : addRows commits logs rows = .ok (count, logs')) : logs' = logs := by
  induction rows with
  | nil =>
    obtain ⟨-, rfl⟩ := Prod.mk.inj (Except.ok.inj hadd)
    rfl
  | cons row rows ih =>
    -- The first row is passed over, or refused with all the others.
    cases hpresent : logs.any (·.fingerprint = row.fingerprint) with
    | true =>
      rw [addRows_cons_of_mem hpresent] at hadd
      exact ih (fun other hother => h other (List.mem_cons_of_mem row hother)) hadd
    | false =>
      rw [addRows_cons_of_not_recorded hpresent (h row List.mem_cons_self)] at hadd
      exact nomatch hadd

/-- Rows can be added in two parts. -/
private theorem addRows_append (commits : List CommitRow) (logs rows more : List LogRow) :
    addRows commits logs (rows ++ more) =
      (addRows commits logs rows).bind fun first =>
        (addRows commits first.2 more).map fun second => (first.1 + second.1, second.2) := by
  induction rows generalizing logs with
  -- What the first part adds, none here, is counted with what the second part adds.
  | nil =>
    rw [List.nil_append, addRows]
    change _ = (addRows commits logs more).map fun second => (0 + second.1, second.2)
    cases addRows commits logs more with
    | error fault => rfl
    | ok r => rw [Except.map, Nat.zero_add]
  | cons row rows ih =>
    rw [List.cons_append]
    cases hpresent : logs.any (·.fingerprint = row.fingerprint) with
    | true => rw [addRows_cons_of_mem hpresent, addRows_cons_of_mem hpresent, ih]
    | false =>
      cases hrecorded : commits.any (·.commitId = row.commitId) with
      | true =>
        rw [addRows_cons_of_not_mem hpresent hrecorded, addRows_cons_of_not_mem hpresent hrecorded,
          ih]
        cases addRows commits (logs ++ [row]) rows with
        | error fault => rfl
        | ok r =>
          change ((addRows commits r.2 more).map fun q => (r.1 + q.1, q.2)).map _ =
            (addRows commits r.2 more).map fun q => (r.1 + 1 + q.1, q.2)
          cases addRows commits r.2 more with
          | error fault => rfl
          | ok q => simp only [Except.map, Nat.add_right_comm]
      | false =>
        rw [addRows_cons_of_not_recorded hpresent hrecorded,
          addRows_cons_of_not_recorded hpresent hrecorded]
        rfl

namespace Has

variable {db : Database} {commits : List CommitRow} {logs : List LogRow}
  (h : db.Has commits logs)

include h

/-- An insertion adds the rows of its records one by one. -/
theorem insertRecords_eq_addRows (commitId : String) (records : List ChangeRecord) :
    db.insertRecords commitId records =
      (addRows commits logs (records.map (logRow commitId))).map fun r =>
        (r.1, { db with logs := some r.2 }) := by
  rw [Database.insertRecords]
  cases records with
  | nil =>
    have hdb : ({ db with logs := some logs } : Database) = db := by rw [← h.logs_eq]
    change Except.ok (0, db) = .ok (0, { db with logs := some logs })
    rw [hdb]
  | cons r records =>
    rw [h.logs_eq, h.commits_eq]
    change (addRows commits logs ((r :: records).map (logRow commitId)) >>= fun added =>
      pure (added.1, (⟨db.metaTable, some commits, some added.2, db.indexes⟩ : Database))) = _
    cases addRows commits logs ((r :: records).map (logRow commitId)) <;> rfl

/-- An insertion for a recorded commit succeeds, and adds the new rows. -/
theorem insertRecords_eq {commitId : String}
    (hrecorded : commits.any (·.commitId = commitId) = true) (records : List ChangeRecord) :
    db.insertRecords commitId records =
      .ok ((newRows logs (records.map (logRow commitId))).length,
        { db with logs := some (logs ++ newRows logs (records.map (logRow commitId))) }) := by
  have hall : ∀ row ∈ records.map (logRow commitId),
      commits.any (·.commitId = row.commitId) = true := by
    intro row hrow
    rwa [commitId_of_mem_logRows hrow]
  rw [h.insertRecords_eq_addRows, addRows_eq hall]
  rfl

/-- An insertion for a recorded commit leaves the new rows behind those that were there. -/
theorem insertRecords {commitId : String}
    (hrecorded : commits.any (·.commitId = commitId) = true) (records : List ChangeRecord) :
    ((StoreOperation.insertRecords commitId records).apply db).Has commits
      (logs ++ newRows logs (records.map (logRow commitId))) := by
  rw [StoreOperation.apply_insertRecords_of_ok (h.insertRecords_eq hrecorded records)]
  exact ⟨h.commits_eq, rfl⟩

/-- An insertion for a commit that is not recorded changes nothing. -/
theorem insertRecords_not_recorded {commitId : String}
    (hrecorded : commits.any (·.commitId = commitId) = false) (records : List ChangeRecord) :
    ((StoreOperation.insertRecords commitId records).apply db).Has commits logs := by
  have hall : ∀ row ∈ records.map (logRow commitId),
      commits.any (·.commitId = row.commitId) = false := by
    intro row hrow
    rwa [commitId_of_mem_logRows hrow]
  have hinsert := h.insertRecords_eq_addRows commitId records
  cases hadd : addRows commits logs (records.map (logRow commitId)) with
  | error fault =>
    rw [hadd] at hinsert
    rw [StoreOperation.apply_insertRecords_of_error hinsert]
    exact h
  | ok added =>
    rw [hadd] at hinsert
    rw [StoreOperation.apply_insertRecords_of_ok hinsert]
    exact ⟨h.commits_eq, congrArg some (eq_of_addRows hall hadd)⟩

/-- After an insertion that succeeds the tables exist as before. -/
theorem of_insertRecords {commitId : String} {records : List ChangeRecord}
    {inserted : Nat × Database} (hok : db.insertRecords commitId records = .ok inserted) :
    ∃ logs, inserted.2.Has commits logs := by
  rw [h.insertRecords_eq_addRows] at hok
  cases hadd : addRows commits logs (records.map (logRow commitId)) with
  | error fault =>
    rw [hadd] at hok
    exact nomatch hok
  | ok added =>
    rw [hadd] at hok
    obtain rfl := Except.ok.inj hok
    exact ⟨added.2, h.commits_eq, rfl⟩

/-- Records can be inserted in two parts. -/
private theorem insertRecords_append (commitId : String) (records more : List ChangeRecord) :
    db.insertRecords commitId (records ++ more) =
      (db.insertRecords commitId records).bind fun first =>
        (first.2.insertRecords commitId more).map fun second =>
          (first.1 + second.1, second.2) := by
  rw [h.insertRecords_eq_addRows, h.insertRecords_eq_addRows, List.map_append, addRows_append]
  cases addRows commits logs (records.map (logRow commitId)) with
  | error fault => rfl
  -- After the first part the tables exist, with what it has added.
  | ok first =>
    have hfirst : ({ db with logs := some first.2 } : Database).Has commits first.2 :=
      ⟨h.commits_eq, rfl⟩
    change ((addRows commits first.2 (more.map (logRow commitId))).map fun second =>
        (first.1 + second.1, second.2)).map _ =
      (({ db with logs := some first.2 } : Database).insertRecords commitId more).map fun second =>
        (first.1 + second.1, second.2)
    rw [hfirst.insertRecords_eq_addRows]
    cases addRows commits first.2 (more.map (logRow commitId)) <;> rfl

end Has

/-- Inserts the records of a commit in several parts; the number inserted in all. -/
def insertParts (db : Database) (commitId : String) :
    List (List ChangeRecord) → Except DatabaseFault (Nat × Database)
  | [] => .ok (0, db)
  | part :: parts => do
    let (count, db) ← db.insertRecords commitId part
    let (more, db) ← db.insertParts commitId parts
    return (count + more, db)

/-- In how many parts records are inserted does not matter. -/
theorem Has.insertParts_eq {db : Database} {commits : List CommitRow} {logs : List LogRow}
    (h : db.Has commits logs) (commitId : String) (parts : List (List ChangeRecord)) :
    db.insertParts commitId parts = db.insertRecords commitId parts.flatten := by
  -- Part by part: after the first one the tables exist as before, so the others go on from there.
  induction parts generalizing db logs with
  | nil => rfl
  | cons part parts ih =>
    rw [insertParts, List.flatten_cons, h.insertRecords_append]
    cases hfirst : db.insertRecords commitId part with
    | error fault => rfl
    | ok first =>
      obtain ⟨logs', h'⟩ := h.of_insertRecords hfirst
      change (first.2.insertParts commitId parts >>= fun second =>
        pure (first.1 + second.1, second.2)) = _
      rw [ih h']
      change _ = (first.2.insertRecords commitId parts.flatten).map _
      cases first.2.insertRecords commitId parts.flatten <;> rfl

theorem has_initialised : initialised.Has [] [] := ⟨rfl, rfl⟩

end Database

end LogDrift
