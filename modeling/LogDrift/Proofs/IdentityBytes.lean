import Mathlib.Data.Finset.Card
import LogDrift.Proofs.StoredTotals

/-!
# The bytes of an identity

The identity of a record is written part by part, each with a separator behind it, and the digest of
these bytes is what the store compares. A part may hold the separator itself, which is not written
in another way then. So two records can be written with the same bytes, but only if their parts hold
separators in different numbers: where each part of one record has as many as the same part of the
other, the bytes tell the identities apart. Then no record is passed over for another one.

## Key results

- `count_separator_toUTF8`: the separators in the bytes of a text are those of its characters
- `eq_of_flatMap_eq`: parts are told by their bytes, if their separators are as many
- `identityBytes_eq_iff`: so are identities
- `Separated.tellsApart`: so are the records of a run, if their digests do not collide
- `Database.Follows.mem_identities`: the identities that are read of a commit
-/

namespace LogDrift

/-! ## The bytes of a text -/

/-- The loop that lists the bytes adds those from its position on. -/
private theorem toList_loop (bytes : ByteArray) (n i : Nat) (read : List UInt8)
    (h : n + i = bytes.size) :
    ByteArray.toList.loop bytes i read = read.reverse ++ bytes.data.toList.drop i := by
  have hlength : bytes.data.toList.length = bytes.size := by simp
  -- Induction on the number of bytes that are left.
  induction n generalizing i read with
  | zero =>
    have hend : ¬ i < bytes.size := by omega
    rw [ByteArray.toList.loop, if_neg hend, List.drop_eq_nil_of_le (by omega), List.append_nil]
  | succ n ih =>
    have hlt : i < bytes.size := by omega
    have hbyte : bytes.get! i = bytes.data.toList[i] := by
      show bytes.data[i]! = _
      rw [getElem!_pos bytes.data i hlt, Array.getElem_toList]
    rw [ByteArray.toList.loop, if_pos hlt, ih (i + 1) _ (by omega),
      List.drop_eq_getElem_cons (i := i) (by omega)]
    simp [hbyte]

/-- The bytes of a text are those of its characters, one after the other. -/
theorem toList_toUTF8 (text : String) :
    text.toUTF8.toList = text.toList.flatMap String.utf8EncodeChar := by
  have hdata : text.toUTF8.toList = text.toUTF8.data.toList :=
    toList_loop text.toUTF8 text.toUTF8.size 0 [] rfl
  rw [hdata, String.toUTF8, ← String.utf8Encode_toList]
  exact List.toList_data_toByteArray

/-- Texts are told by their bytes. -/
private theorem toUTF8_toList_injective {text other : String}
    (h : text.toUTF8.toList = other.toUTF8.toList) : text = other := by
  have hbytes : text.toList.utf8Encode = other.toList.utf8Encode := by
    show (text.toList.flatMap _).toByteArray = (other.toList.flatMap _).toByteArray
    rw [← toList_toUTF8, h, toList_toUTF8]
  rwa [String.utf8Encode_toList, String.utf8Encode_toList, String.toByteArray_inj] at hbytes

/-- A character outside of ASCII has no byte of ASCII. -/
private theorem le_of_mem_utf8EncodeChar {c : Char} (hc : 128 ≤ c.val.toNat) {byte : UInt8}
    (h : byte ∈ String.utf8EncodeChar c) : 128 ≤ byte.toNat := by
  have hbyte : ∀ n, 128 ≤ n → n < 256 → 128 ≤ (UInt8.ofNat n).toNat := by
    intro n hlow hhigh
    rwa [UInt8.toNat_ofNat_of_lt' hhigh]
  unfold String.utf8EncodeChar at h
  simp only [show ¬ c.val.toNat ≤ 127 by omega, if_false] at h
  -- By the number of bytes. Each of them has its highest bit set.
  split at h
  · simp only [List.mem_cons, List.not_mem_nil, or_false] at h
    rcases h with rfl | rfl <;> exact hbyte _ (by omega) (by omega)
  · split at h
    · simp only [List.mem_cons, List.not_mem_nil, or_false] at h
      rcases h with rfl | rfl | rfl <;> exact hbyte _ (by omega) (by omega)
    · simp only [List.mem_cons, List.not_mem_nil, or_false] at h
      rcases h with rfl | rfl | rfl | rfl <;> exact hbyte _ (by omega) (by omega)

/-- Of all characters, only the separator is written with its byte. -/
private theorem count_separator_utf8EncodeChar (c : Char) :
    (String.utf8EncodeChar c).count identitySeparator = if c = '\x1f' then 1 else 0 := by
  have hseparator : c = '\x1f' ↔ c.val.toNat = 31 := by
    rw [Char.ext_iff, ← UInt32.toNat_inj]
    rfl
  by_cases hc : 128 ≤ c.val.toNat
  · -- A character outside of ASCII is not the separator, and has no byte of it.
    have hother : ¬ c = '\x1f' := by
      rw [hseparator]
      omega
    rw [if_neg hother, List.count_eq_zero]
    intro hmem
    exact absurd (le_of_mem_utf8EncodeChar hc hmem) (by decide)
  · have hone : String.utf8EncodeChar c = [UInt8.ofNat c.val.toNat] := by
      unfold String.utf8EncodeChar
      exact if_pos (by omega)
    have hbyte : UInt8.ofNat c.val.toNat = identitySeparator ↔ c.val.toNat = 31 := by
      rw [← UInt8.toNat_inj, UInt8.toNat_ofNat_of_lt' (by show _ < 256; omega)]
      rfl
    rw [hone, List.count_singleton]
    simp only [beq_iff_eq, hseparator, hbyte]

/-- The separators in the bytes of a text are those of its characters. -/
theorem count_separator_toUTF8 (text : String) :
    text.toUTF8.toList.count identitySeparator = text.toList.count '\x1f' := by
  rw [toList_toUTF8]
  induction text.toList with
  | nil => rfl
  | cons c cs ih =>
    rw [List.flatMap_cons, List.count_append, ih, count_separator_utf8EncodeChar, List.count_cons]
    simp only [beq_iff_eq]
    omega

/-! ## Parts with separators -/

/-- Two texts that are cut at the same one of their separators are cut alike. -/
theorem eq_of_append_cons_eq {α : Type} [DecidableEq α] {separator : α} {as bs more rest : List α}
    (hcount : as.count separator = bs.count separator)
    (h : as ++ separator :: more = bs ++ separator :: rest) : as = bs ∧ more = rest := by
  induction as generalizing bs with
  | nil =>
    cases bs with
    | nil => simpa using h
    | cons b bs =>
      -- The first element of the other text would be a separator, but it has none.
      obtain ⟨rfl, -⟩ := List.cons.inj h
      simp at hcount
  | cons a as ih =>
    cases bs with
    | nil =>
      obtain ⟨rfl, -⟩ := List.cons.inj h
      simp at hcount
    | cons b bs =>
      obtain ⟨rfl, htail⟩ := List.cons.inj h
      rw [List.count_cons, List.count_cons, Nat.add_right_cancel_iff] at hcount
      obtain ⟨rfl, hrest⟩ := ih hcount htail
      exact ⟨rfl, hrest⟩

/-- Parts are told by their bytes, if the same parts hold separators in the same numbers. -/
theorem eq_of_flatMap_eq {parts others : List String}
    (hcounts : (parts.map fun part => part.toList.count '\x1f') =
      others.map fun part => part.toList.count '\x1f')
    (h : (parts.flatMap fun part => part.toUTF8.toList ++ [identitySeparator]) =
      others.flatMap fun part => part.toUTF8.toList ++ [identitySeparator]) : parts = others := by
  induction parts generalizing others with
  | nil =>
    cases others with
    | nil => rfl
    | cons other others => simp at hcounts
  | cons part parts ih =>
    cases others with
    | nil => simp at hcounts
    | cons other others =>
      obtain ⟨hcount, hcounts⟩ := List.cons.inj hcounts
      simp only [List.flatMap_cons, List.append_assoc, List.singleton_append] at h
      have hbytes : part.toUTF8.toList.count identitySeparator =
          other.toUTF8.toList.count identitySeparator := by
        rw [count_separator_toUTF8, count_separator_toUTF8]
        exact hcount
      -- The first parts end at the same separator, and what follows is compared part by part.
      obtain ⟨hpart, hrest⟩ := eq_of_append_cons_eq hbytes h
      rw [toUTF8_toList_injective hpart, ih hcounts hrest]

/-! ## Identities -/

/-- How many separators the parts of an identity hold, part by part. -/
def separatorCounts (commitId : String) (r : ChangeRecord) : List Nat :=
  (identityParts commitId r).map fun part => part.toList.count '\x1f'

/-- A text that is there or not, as its kind asks for, is told by its part. -/
private theorem eq_of_getD_eq {text other : Option String} (hsome : text.isSome = other.isSome)
    (h : text.getD "" = other.getD "") : text = other := by
  cases text <;> cases other <;> simp_all

/-- The parts of a record with the sides of its kind tell its identity. -/
theorem identity_eq_of_identityParts {commitId commitId' : String} {r r' : ChangeRecord}
    (h : r.HasSides) (h' : r'.HasSides)
    (hparts : identityParts commitId r = identityParts commitId' r') :
    r.identity commitId = r'.identity commitId' := by
  simp only [identityParts, List.cons.injEq, and_true] at hparts
  obtain ⟨hcommit, hpath, hmethod, hlabel, hbefore, hafter⟩ := hparts
  have hkind : r.kind = r'.kind := ChangeKind.label_injective hlabel
  have hbefore : r.before = r'.before := eq_of_getD_eq (by rw [h.1, h'.1, hkind]) hbefore
  have hafter : r.after = r'.after := eq_of_getD_eq (by rw [h.2, h'.2, hkind]) hafter
  simp only [ChangeRecord.identity, hcommit, hpath, hmethod, hkind, hbefore, hafter]

/-- Where the parts hold separators in the same numbers, the bytes tell the identities apart. -/
theorem identityBytes_eq_iff {commitId commitId' : String} {r r' : ChangeRecord}
    (h : r.HasSides) (h' : r'.HasSides)
    (hcounts : separatorCounts commitId r = separatorCounts commitId' r') :
    identityBytes commitId r = identityBytes commitId' r' ↔
      r.identity commitId = r'.identity commitId' := by
  constructor
  · intro hbytes
    exact identity_eq_of_identityParts h h' (eq_of_flatMap_eq hcounts hbytes)
  · intro hidentity
    simp only [ChangeRecord.identity, RecordIdentity.mk.injEq] at hidentity
    obtain ⟨hcommit, hpath, hmethod, hkind, hbefore, hafter⟩ := hidentity
    simp only [identityBytes, identityParts, hcommit, hpath, hmethod, hkind, hbefore, hafter]

/-! ## Insertions -/

/-- No two records of a run that are written with different bytes have one digest. -/
def DigestsApart (ops : List StoreOperation) : Prop :=
  ∀ p ∈ insertions ops, ∀ q ∈ insertions ops,
    Sha256.hexDigest (identityBytes p.1 p.2) = Sha256.hexDigest (identityBytes q.1 q.2) →
      identityBytes p.1 p.2 = identityBytes q.1 q.2

instance (ops : List StoreOperation) : Decidable (DigestsApart ops) :=
  inferInstanceAs (Decidable (∀ p ∈ insertions ops, ∀ q ∈ insertions ops,
    Sha256.hexDigest (identityBytes p.1 p.2) = Sha256.hexDigest (identityBytes q.1 q.2) →
      identityBytes p.1 p.2 = identityBytes q.1 q.2))

/-- The records of a run have the sides of their kinds, and hold separators in the same parts. -/
structure Separated (ops : List StoreOperation) : Prop where
  hasSides : ∀ p ∈ insertions ops, p.2.HasSides
  counts_eq : ∀ p ∈ insertions ops, ∀ q ∈ insertions ops,
    separatorCounts p.1 p.2 = separatorCounts q.1 q.2

/-- The records of a run are told apart by what the store compares, if their digests do not
    collide. -/
theorem Separated.tellsApart {ops : List StoreOperation} (h : Separated ops)
    (hdigests : DigestsApart ops) : TellsApart ops := by
  intro p hp q hq hsame
  exact (identityBytes_eq_iff (h.hasSides p hp) (h.hasSides q hq) (h.counts_eq p hp q hq)).mp
    (hdigests p hp q hq hsame)

/-- The identities that are read of a commit are those of the records that were inserted. -/
theorem Database.Follows.mem_identities {db : Database} {ops : List StoreOperation}
    {commits : List CommitRow} {logs : List LogRow} (h : db.Follows ops commits logs)
    (hsides : ∀ p ∈ insertions ops, p.2.HasSides) (commitId : String) :
    ∃ stored, db.recordsOf commitId = .ok stored ∧
      (stored.map (·.identity commitId)).Nodup ∧
      ∀ i, i ∈ stored.map (·.identity commitId) ↔
        i ∈ (CommitHistory.of commitId ops).records.map (ChangeRecord.identity commitId) := by
  have hrecords : ∀ r ∈ (CommitHistory.of commitId ops).records, r.HasSides :=
    fun r hr => hsides _ (CommitHistory.mem_insertions hr)
  refine ⟨_, h.recordsOf_eq commitId, ?_, ?_⟩
  · rw [map_identity_ofRecord commitId hrecords]
    exact nodup_map_firstOfEach _ _
  · intro i
    rw [map_identity_ofRecord commitId hrecords, mem_map_firstOfEach]

/-- Two records of one commit. The path of the first one holds a separator, and so does the method of
    the second one. -/
def recordsWithSeparator : List ChangeRecord :=
  [⟨"a\x1fb", "run()", .addedInsideMethod, none, some "Log.d(x)", "d", none, none, none, none, none⟩,
    ⟨"a", "b\x1frun()", .addedInsideMethod, none, some "Log.d(x)", "d", none, none, none, none, none⟩]

/-- They are written with the same bytes, though their identities are not the same, and of the two
    the second one is not inserted. -/
theorem record_with_separator_is_passed_over :
    (∀ r ∈ recordsWithSeparator, r.HasSides) ∧
    (recordsWithSeparator.map (ChangeRecord.identity "c1")).Nodup ∧
    (∀ r ∈ recordsWithSeparator, ∀ r' ∈ recordsWithSeparator,
      identityBytes "c1" r = identityBytes "c1" r') ∧
    ((Database.initialised.after [.recordCommit ⟨"c1", none, false⟩ ⟨1, 2, 0, 0, 2⟩]).insertRecords
      "c1" recordsWithSeparator).map (·.1) = .ok 1 := by
  exact ⟨by decide, by decide, by decide +kernel, by decide +kernel⟩

/-- Identities are told apart by their bytes, if their parts hold separators in the same numbers, as
    they do if they hold none. If this is so for the records of a run, and the digest does not
    collide on what is written of them, then no record is passed over for another one: an insertion
    for a recorded commit adds as many records as it has identities that are not there, and then
    there are, each once, those that were there and those of all its records. -/
theorem identity_bytes_tell_apart :
    (∀ commitId commitId' r r', r.HasSides → r'.HasSides →
      separatorCounts commitId r = separatorCounts commitId' r' →
      (identityBytes commitId r = identityBytes commitId' r' ↔
        r.identity commitId = r'.identity commitId')) ∧
    ∀ ops commitId records, Separated (ops ++ [.insertRecords commitId records]) →
      DigestsApart (ops ++ [.insertRecords commitId records]) →
      ∀ row, (Database.initialised.after ops).commit? commitId = .ok (some row) →
      ∃ before count db stored,
        (Database.initialised.after ops).recordsOf commitId = .ok before ∧
        (Database.initialised.after ops).insertRecords commitId records = .ok (count, db) ∧
        db.recordsOf commitId = .ok stored ∧
        count = ((records.map (·.identity commitId)).toFinset \
          (before.map (·.identity commitId)).toFinset).card ∧
        (stored.map (·.identity commitId)).Nodup ∧
        ∀ i, i ∈ stored.map (·.identity commitId) ↔
          i ∈ before.map (·.identity commitId) ∨ i ∈ records.map (·.identity commitId) := by
  refine ⟨fun commitId commitId' r r' h h' hcounts => identityBytes_eq_iff h h' hcounts, ?_⟩
  intro ops commitId records hseparated hdigests row hcommit
  have happart : TellsApart (ops ++ [.insertRecords commitId records]) :=
    hseparated.tellsApart hdigests
  obtain ⟨_, _, hfollows⟩ := Database.follows_after ops happart.of_append
  obtain ⟨_, _, hafter⟩ := Database.follows_after _ happart
  rw [Database.after_concat] at hafter
  -- The commit has a row, so its records are taken.
  have hrow : (CommitHistory.of commitId ops).row = some row :=
    Except.ok.inj ((hfollows.commit?_eq commitId).symm.trans hcommit)
  have hrecorded : (CommitHistory.of commitId ops).recorded = true := by
    rw [CommitHistory.recorded, hrow, Option.isSome_some]
  have hhistory : (CommitHistory.of commitId (ops ++ [.insertRecords commitId records])).records =
      (CommitHistory.of commitId ops).records ++ records := by
    rw [CommitHistory.of_concat, CommitHistory.step, if_pos ⟨rfl, hrecorded⟩]
  obtain ⟨before, hbefore, -, hmem⟩ := hfollows.mem_identities
    (fun p hp => hseparated.hasSides p (mem_insertions_append hp)) commitId
  obtain ⟨stored, hstored, hnodup, hmem'⟩ := hafter.mem_identities hseparated.hasSides commitId
  refine ⟨before, _, _, stored, hbefore, hfollows.insertRecords_eq hrecorded happart, hstored, ?_,
    hnodup, ?_⟩
  · congr 2
    ext i
    rw [List.mem_toFinset, List.mem_toFinset, hmem]
  · intro i
    rw [hmem', hhistory, List.map_append, List.mem_append, hmem]

/-- A call that is new, then changed to nothing, then gone. The path of its file holds a separator. -/
def recordsInSeparatedPath : List ChangeRecord :=
  [⟨"a\x1fb", "run()", .addedInsideMethod, none, some "Log.d(x)", "d", none, none, none, none, none⟩,
    ⟨"a\x1fb", "run()", .updated, some "Log.d(x)", some "", "d", none, none, none, none, none⟩,
    ⟨"a\x1fb", "run()", .deletedInsideMethod, some "Log.d(x)", none, "d", none, none, none, none,
      none⟩]

/-- A commit with the first of these records. -/
def runInSeparatedPath : List StoreOperation :=
  [.recordCommit ⟨"c1", none, false⟩ ⟨1, 1, 0, 0, 1⟩,
    .insertRecords "c1" (recordsInSeparatedPath.take 1)]

/-- When all of them are inserted, the other two are added. -/
theorem identity_bytes_tell_apart_in_separated_path :
    (∀ r ∈ recordsInSeparatedPath, ∀ r' ∈ recordsInSeparatedPath,
      (identityBytes "c1" r = identityBytes "c1" r' ↔ r.identity "c1" = r'.identity "c1")) ∧
    ∃ db, (Database.initialised.after runInSeparatedPath).insertRecords "c1"
      recordsInSeparatedPath = .ok (2, db) := by
  have hsides : ∀ r ∈ recordsInSeparatedPath, r.HasSides := by decide
  have hcounts : ∀ r ∈ recordsInSeparatedPath, ∀ r' ∈ recordsInSeparatedPath,
      separatorCounts "c1" r = separatorCounts "c1" r' := by decide +kernel
  have hseparated : Separated (runInSeparatedPath ++
      [.insertRecords "c1" recordsInSeparatedPath]) := ⟨by decide, by decide +kernel⟩
  have hdigests : DigestsApart (runInSeparatedPath ++
      [.insertRecords "c1" recordsInSeparatedPath]) := by decide +kernel
  obtain ⟨hbytes, hinsert⟩ := identity_bytes_tell_apart
  refine ⟨fun r hr r' hr' => hbytes "c1" "c1" r r' (hsides r hr) (hsides r' hr')
    (hcounts r hr r' hr'), ?_⟩
  obtain ⟨before, count, db, -, hbefore, hadded, -, hcount, -⟩ :=
    hinsert runInSeparatedPath "c1" recordsInSeparatedPath hseparated hdigests _ rfl
  -- The first record is the only one that was read before.
  obtain rfl : [_] = before := Except.ok.inj (Eq.trans (by rfl) hbefore)
  exact ⟨db, by rw [hadded, hcount]; rfl⟩

end LogDrift
