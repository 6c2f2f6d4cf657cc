import Aptos.Rust.Core

/-!
# Aptos indexer — the processor-status table

Each transaction processor of the indexer records its progress in the table
`processor_statuses`, one row per key `(name, version)`. `process_transaction_with_status`
writes two rows for a transaction:
* `mark_version_started`: the transaction's row, not yet a success;
* after `process_transaction`, `update_status_ok` or `update_status_err`: the row of the
  result's `(name, version)`, a success or a failure.
Each write is an upsert: `on_conflict((name, version)).do_update().set(psm)`. The indexer
retries the versions `get_error_versions` returns and resumes after `get_max_version`.

Processors share the table and their tasks run concurrently, so a run of the indexer is any
sequence of such writes. The table is abstracted by `StatusTable.status`, the success flag of
the row of a key. One upsert sets the flag of its key and no other
(`status_applyProcessorStatus`), so after any run each key holds its last write
(`status_applyAll`), and the queries read that abstraction: `get_error_versions` returns the
versions whose flag is a failure, and `get_max_version` the largest written version, in the
order of the `i64` column.

The `version` column is an `i64`: the trait writes `version as i64` and reads `v as u64`.
The model keeps the 64 bits of the version; only `max` reads them signed (`u64AsI64`).

Left out: the connection pool (`get_conn` retries until it gets a connection) and the
database errors that the `.expect` calls turn into panics; the `details` and `last_updated`
columns, which no query reads; the metrics and the logs.
-/

namespace Aptos.Indexer

open Aptos.Rust

-- ---------------------------------------------------------------------------
-- Rows, results, processors
-- ---------------------------------------------------------------------------

/-- `ProcessorStatusModel`: a row of `processor_statuses`, with the columns the trait's queries
read. `version` holds the bits of the `i64` column. -/
structure ProcessorStatusModel where
  name : String
  version : UInt64
  success : Bool
  deriving DecidableEq, Repr

/-- The primary key of a row. -/
def ProcessorStatusModel.key (r : ProcessorStatusModel) : String × UInt64 := (r.name, r.version)

/-- `ProcessingResult`: the processor's name and the version it processed. -/
structure ProcessingResult where
  name : String
  version : UInt64
  deriving DecidableEq, Repr

/-- `TransactionProcessingError`, as `from_transaction_processing_err` reads it: the
processor's name and the version. The error's text, which no modelled function reads, is left
out. -/
structure TransactionProcessingError where
  name : String
  version : UInt64
  deriving DecidableEq, Repr

/-- `ProcessorStatusModel::for_mark_started(name, version as i64)`: started, not yet a
success. -/
def ProcessorStatusModel.forMarkStarted (name : String) (version : UInt64) :
    ProcessorStatusModel :=
  ⟨name, version, false⟩

/-- `ProcessorStatusModel::from_processing_result_ok`: a success at the result's key. -/
def ProcessorStatusModel.fromProcessingResultOk (r : ProcessingResult) : ProcessorStatusModel :=
  ⟨r.name, r.version, true⟩

/-- `ProcessorStatusModel::from_transaction_processing_err`: a failure at the error's key. -/
def ProcessorStatusModel.fromTransactionProcessingErr (e : TransactionProcessingError) :
    ProcessorStatusModel :=
  ⟨e.name, e.version, false⟩

/-- A `TransactionProcessor`: its `name()` and its `process_transaction`. -/
structure TransactionProcessor (Txn : Type) where
  name : String
  processTransaction : Txn → Except TransactionProcessingError ProcessingResult

-- ---------------------------------------------------------------------------
-- The table
-- ---------------------------------------------------------------------------

/-- The table `processor_statuses`: at most one row per key `(name, version)`. -/
structure StatusTable where
  rows : List ProcessorStatusModel
  keys_nodup : (rows.map ProcessorStatusModel.key).Nodup

/-- The table with no rows. -/
def StatusTable.empty : StatusTable := ⟨[], List.nodup_nil⟩

/-- `apply_processor_status(psm)`: `insert_into(processor_statuses).values(psm)
.on_conflict((name, version)).do_update().set(psm)`. The row with `psm`'s key becomes `psm`, or
`psm` is added. -/
def StatusTable.applyProcessorStatus (t : StatusTable) (psm : ProcessorStatusModel) :
    StatusTable where
  rows := psm :: t.rows.filter fun r => r.key ≠ psm.key
  keys_nodup := by
    rw [List.map_cons, List.nodup_cons]
    refine ⟨fun h => ?_, ((List.filter_sublist _).map _).nodup t.keys_nodup⟩
    obtain ⟨r, hr, heq⟩ := List.mem_map.mp h
    exact of_decide_eq_true (List.mem_filter.mp hr).2 heq

/-- `get_error_versions`: the versions of the processor's rows that are not a success. -/
def StatusTable.getErrorVersions (t : StatusTable) (name : String) : List UInt64 :=
  (t.rows.filter fun r => !r.success && r.name == name).map (·.version)

/-- `get_max_version`: `max(version)` over the processor's rows, the column read as `i64`;
`None` when the processor has no row. -/
def StatusTable.getMaxVersion (t : StatusTable) (name : String) : Option UInt64 :=
  (((t.rows.filter fun r => r.name == name).map fun r => u64AsI64 r.version).max?).map i64AsU64

/-- Writes one after another, as a run of the indexer does them. -/
def StatusTable.applyAll (t : StatusTable) (ws : List ProcessorStatusModel) : StatusTable :=
  ws.foldl StatusTable.applyProcessorStatus t

-- ---------------------------------------------------------------------------
-- The trait's methods
-- ---------------------------------------------------------------------------

section Trait

variable {Txn : Type} (p : TransactionProcessor Txn)

/-- `mark_version_started`. -/
def TransactionProcessor.markVersionStarted (t : StatusTable) (version : UInt64) : StatusTable :=
  t.applyProcessorStatus (.forMarkStarted p.name version)

/-- `update_status_ok`. -/
def updateStatusOk (t : StatusTable) (r : ProcessingResult) : StatusTable :=
  t.applyProcessorStatus (.fromProcessingResultOk r)

/-- `update_status_err`. -/
def updateStatusErr (t : StatusTable) (e : TransactionProcessingError) : StatusTable :=
  t.applyProcessorStatus (.fromTransactionProcessingErr e)

/-- `process_transaction_with_status`, over `version`, `Transaction::version()`. `none` is the
panic of `transaction.version().unwrap()` on a transaction without a version. -/
def TransactionProcessor.processTransactionWithStatus (version : Txn → Option UInt64)
    (t : StatusTable) (txn : Txn) :
    Option (StatusTable × Except TransactionProcessingError ProcessingResult) := do
  let t := p.markVersionStarted t (← version txn)
  let res := p.processTransaction txn
  match res with
  | .ok r => pure (updateStatusOk t r, res)
  | .error e => pure (updateStatusErr t e, res)

/-- The row the outcome of `process_transaction` is written as. -/
def outcomeRow : Except TransactionProcessingError ProcessingResult → ProcessorStatusModel
  | .ok r => .fromProcessingResultOk r
  | .error e => .fromTransactionProcessingErr e

/-- **A task is two writes**: the started row of its version, then the row of its outcome. -/
theorem processTransactionWithStatus_eq (version : Txn → Option UInt64) (t : StatusTable)
    (txn : Txn) :
    p.processTransactionWithStatus version t txn =
      (version txn).map fun v =>
        (t.applyAll [.forMarkStarted p.name v, outcomeRow (p.processTransaction txn)],
          p.processTransaction txn) := by
  unfold TransactionProcessor.processTransactionWithStatus
  cases version txn with
  | none => rfl
  | some v => cases p.processTransaction txn <;> rfl

end Trait

-- ---------------------------------------------------------------------------
-- What the table records
-- ---------------------------------------------------------------------------

namespace StatusTable

variable (t : StatusTable)

/-- The abstraction of the table: the success flag of the row of `(name, version)`, `none`
when there is no such row. -/
def status (name : String) (version : UInt64) : Option Bool :=
  (t.rows.find? fun r => r.key = (name, version)).map (·.success)

/-- Two rows with one key are one row. -/
theorem eq_of_key_eq {r r' : ProcessorStatusModel} (hr : r ∈ t.rows) (hr' : r' ∈ t.rows)
    (h : r.key = r'.key) : r = r' :=
  List.inj_on_of_nodup_map t.keys_nodup hr hr' h

/-- The row `status` finds for a key is a row of the table with that key. -/
theorem mem_of_find?_key {k : String × UInt64} {r : ProcessorStatusModel}
    (hr : t.rows.find? (fun r => r.key = k) = some r) : r ∈ t.rows ∧ r.key = k := by
  have hkey := List.find?_some hr
  exact ⟨List.mem_of_find?_eq_some hr, of_decide_eq_true hkey⟩

/-- The flag of a key is the flag of the table's row with that key. -/
theorem status_eq_some_iff (name : String) (version : UInt64) (b : Bool) :
    t.status name version = some b ↔ ⟨name, version, b⟩ ∈ t.rows := by
  unfold status
  constructor
  · intro h
    obtain ⟨⟨n, v, b⟩, hr, rfl⟩ := Option.map_eq_some'.mp h
    obtain ⟨hmem, hkey⟩ := t.mem_of_find?_key hr
    cases hkey
    exact hmem
  · intro h
    have hsome : (t.rows.find? fun r => r.key = (name, version)).isSome :=
      List.find?_isSome.mpr ⟨_, h, by simp [ProcessorStatusModel.key]⟩
    obtain ⟨r, hr⟩ := Option.isSome_iff_exists.mp hsome
    obtain ⟨hmem, hkey⟩ := t.mem_of_find?_key hr
    rw [hr, t.eq_of_key_eq hmem h hkey]
    rfl

theorem status_ne_none_iff (name : String) (version : UInt64) :
    t.status name version ≠ none ↔ ∃ b, ⟨name, version, b⟩ ∈ t.rows := by
  rw [Option.ne_none_iff_exists']
  exact exists_congr fun b => t.status_eq_some_iff name version b

/-- **One write is one update of the abstraction**: an upsert sets the flag of its key and
leaves every other key's. -/
theorem status_applyProcessorStatus (psm : ProcessorStatusModel) (name : String)
    (version : UInt64) :
    (t.applyProcessorStatus psm).status name version =
      if psm.key = (name, version) then some psm.success else t.status name version := by
  show Option.map _ (List.find? _ (psm :: t.rows.filter _)) = _
  rw [List.find?_cons, List.find?_filter]
  by_cases h : psm.key = (name, version)
  · simp only [h, decide_True, if_true, Option.map_some']
  · simp only [h, decide_False, Bool.false_eq_true, if_false]
    congr 2
    funext r
    by_cases hr : r.key = (name, version)
    · rw [hr]
      simp [Ne.symm h]
    · simp [hr]

end StatusTable

/-- The last write of the run `ws` to the key `(name, version)`. -/
def lastWrite (ws : List ProcessorStatusModel) (name : String) (version : UInt64) :
    Option ProcessorStatusModel :=
  (ws.filter fun w => w.key = (name, version)).getLast?

/-- **After a run, each key holds its last write**, or what it held before when the run never
wrote it. -/
theorem status_applyAll (t : StatusTable) (ws : List ProcessorStatusModel) (name : String)
    (version : UInt64) :
    (t.applyAll ws).status name version =
      ((lastWrite ws name version).map (·.success)).or (t.status name version) := by
  induction ws using List.reverseRecOn with
  | nil => rfl
  | append_singleton ws w ih =>
    have hlast : lastWrite (ws ++ [w]) name version =
        if w.key = (name, version) then some w else lastWrite ws name version := by
      by_cases h : w.key = (name, version) <;> simp [lastWrite, List.filter_append, h]
    rw [StatusTable.applyAll, List.foldl_append, List.foldl_cons, List.foldl_nil,
      ← StatusTable.applyAll, StatusTable.status_applyProcessorStatus, hlast, ih]
    by_cases h : w.key = (name, version) <;> simp [h]

-- ---------------------------------------------------------------------------
-- The queries, read off the abstraction
-- ---------------------------------------------------------------------------

namespace StatusTable

variable (t : StatusTable)

/-- `get_error_versions` returns the versions whose row is a failure. -/
theorem mem_getErrorVersions (name : String) (version : UInt64) :
    version ∈ t.getErrorVersions name ↔ t.status name version = some false := by
  rw [status_eq_some_iff, getErrorVersions, List.mem_map]
  constructor
  · rintro ⟨⟨n, v, b⟩, hr, rfl⟩
    simp only [List.mem_filter, Bool.and_eq_true, Bool.not_eq_true', beq_iff_eq] at hr
    obtain ⟨hr, rfl, rfl⟩ := hr
    exact hr
  · intro h
    exact ⟨_, List.mem_filter.mpr ⟨h, by simp⟩, rfl⟩

/-- `get_error_versions` names each version once. -/
theorem getErrorVersions_nodup (name : String) : (t.getErrorVersions name).Nodup := by
  refine List.Nodup.map_on (fun r hr r' hr' h => ?_) (t.keys_nodup.of_map _ |>.filter _)
  simp only [List.mem_filter, Bool.and_eq_true, beq_iff_eq] at hr hr'
  exact t.eq_of_key_eq hr.1 hr'.1 (by simp only [ProcessorStatusModel.key, hr.2, hr'.2, h])

/-- `max?` of integers is the member that bounds the others. -/
theorem int_max?_eq_some_iff {xs : List Int} {a : Int} :
    xs.max? = some a ↔ a ∈ xs ∧ ∀ b ∈ xs, b ≤ a :=
  @List.max?_eq_some_iff _ a _ _ ⟨Int.le_antisymm⟩ Int.le_refl max_choice
    (fun _ _ _ => max_le_iff) xs

/-- The `i64` readings `max` runs over: those of the versions the processor has a row for. -/
theorem mem_versionsI64 (name : String) (i : Int) :
    i ∈ (t.rows.filter fun r => r.name == name).map (fun r => u64AsI64 r.version) ↔
      ∃ v, t.status name v ≠ none ∧ u64AsI64 v = i := by
  simp only [List.mem_map, List.mem_filter, beq_iff_eq, status_ne_none_iff]
  constructor
  · rintro ⟨⟨n, v, b⟩, ⟨hr, rfl⟩, rfl⟩
    exact ⟨v, ⟨b, hr⟩, rfl⟩
  · rintro ⟨v, ⟨b, hr⟩, rfl⟩
    exact ⟨_, ⟨hr, rfl⟩, rfl⟩

/-- `get_max_version` returns a version the processor has a row for, whose `i64` reading bounds
the readings of all the others. -/
theorem getMaxVersion_eq_some_iff (name : String) (m : UInt64) :
    t.getMaxVersion name = some m ↔
      t.status name m ≠ none ∧ ∀ v, t.status name v ≠ none → u64AsI64 v ≤ u64AsI64 m := by
  rw [getMaxVersion, Option.map_eq_some']
  constructor
  · rintro ⟨i, hi, rfl⟩
    obtain ⟨hmem, hle⟩ := int_max?_eq_some_iff.mp hi
    obtain ⟨v, hv, rfl⟩ := (t.mem_versionsI64 name _).mp hmem
    rw [i64AsU64_u64AsI64]
    exact ⟨hv, fun w hw => hle _ ((t.mem_versionsI64 name _).mpr ⟨w, hw, rfl⟩)⟩
  · rintro ⟨hm, hle⟩
    refine ⟨u64AsI64 m, int_max?_eq_some_iff.mpr ⟨(t.mem_versionsI64 name _).mpr ⟨m, hm, rfl⟩,
      fun i hi => ?_⟩, i64AsU64_u64AsI64 m⟩
    obtain ⟨v, hv, rfl⟩ := (t.mem_versionsI64 name i).mp hi
    exact hle v hv

/-- `get_max_version` is `None` exactly when the processor has no row. -/
theorem getMaxVersion_eq_none_iff (name : String) :
    t.getMaxVersion name = none ↔ ∀ v, t.status name v = none := by
  rw [getMaxVersion, Option.map_eq_none', List.max?_eq_none_iff, List.eq_nil_iff_forall_not_mem]
  constructor
  · intro h v
    by_contra hv
    exact h _ ((t.mem_versionsI64 name _).mpr ⟨v, hv, rfl⟩)
  · intro h i hi
    obtain ⟨v, hv, -⟩ := (t.mem_versionsI64 name i).mp hi
    exact hv (h v)

/-- Tables with the same flags answer `get_max_version` alike. -/
theorem getMaxVersion_congr {t' : StatusTable} {name : String}
    (h : t.status name = t'.status name) : t.getMaxVersion name = t'.getMaxVersion name :=
  Option.ext fun m => by
    rw [Option.mem_def, Option.mem_def, getMaxVersion_eq_some_iff, getMaxVersion_eq_some_iff, h]

end StatusTable

-- ---------------------------------------------------------------------------
-- Runs of the indexer
-- ---------------------------------------------------------------------------

/-- **The retry set after any run**: a version is an error version of a processor exactly when
the run's last write to it is a failure, or, when the run never wrote it, when it was one
before. -/
theorem getErrorVersions_applyAll (t : StatusTable) (ws : List ProcessorStatusModel)
    (name : String) (version : UInt64) :
    version ∈ (t.applyAll ws).getErrorVersions name ↔
      match lastWrite ws name version with
      | some w => w.success = false
      | none => version ∈ t.getErrorVersions name := by
  rw [StatusTable.mem_getErrorVersions, status_applyAll, StatusTable.mem_getErrorVersions]
  cases lastWrite ws name version <;> simp

/-- **Interleavings do not matter**: two runs that write each key the same rows in the same
order, such as two interleavings of concurrent tasks, leave the same retry set, up to order,
and the same resume point. -/
theorem applyAll_interleavings (t : StatusTable) (ws ws' : List ProcessorStatusModel)
    (h : ∀ key, ws.filter (fun w => w.key = key) = ws'.filter (fun w => w.key = key))
    (name : String) :
    ((t.applyAll ws).getErrorVersions name).Perm ((t.applyAll ws').getErrorVersions name) ∧
      (t.applyAll ws).getMaxVersion name = (t.applyAll ws').getMaxVersion name := by
  have hs : (t.applyAll ws).status name = (t.applyAll ws').status name := by
    funext v
    rw [status_applyAll, status_applyAll, lastWrite, lastWrite, h]
  refine ⟨(List.perm_ext_iff_of_nodup (StatusTable.getErrorVersions_nodup _ _)
    (StatusTable.getErrorVersions_nodup _ _)).mpr fun v => ?_,
    StatusTable.getMaxVersion_congr _ hs⟩
  rw [StatusTable.mem_getErrorVersions, StatusTable.mem_getErrorVersions, hs]

/-- The order of the `i64` readings: below `2 ^ 63` it is the order of the versions, a
version from `2 ^ 63` on reads below every version under `2 ^ 63`, and from `2 ^ 63` on it is
again the order of the versions. -/
theorem u64AsI64_le_iff (v m : UInt64) :
    u64AsI64 v ≤ u64AsI64 m ↔
      (v.toNat < 2 ^ 63 → m.toNat < 2 ^ 63 ∧ v ≤ m) ∧ (2 ^ 63 ≤ m.toNat → v ≤ m) := by
  have hv : v.toNat < 2 ^ 64 := v.toNat_lt_size
  have hm : m.toNat < 2 ^ 64 := m.toNat_lt_size
  rw [u64_le_iff]
  unfold u64AsI64
  split_ifs <;> omega

/-- **The resume point.** A processor with a row gets a version back from `get_max_version`,
one it has a row for. Read as an `i64`, a version from `2 ^ 63` on is negative: the version
returned is the largest below `2 ^ 63` when there is one, and ranks above every version from
`2 ^ 63` on; when every version is below `2 ^ 63`, it is the largest. -/
theorem getMaxVersion_eq_max (t : StatusTable) (name : String) (v₀ : UInt64)
    (h₀ : t.status name v₀ ≠ none) :
    ∃ m, t.getMaxVersion name = some m ∧ t.status name m ≠ none ∧
      ∀ v, t.status name v ≠ none →
        (v.toNat < 2 ^ 63 → m.toNat < 2 ^ 63 ∧ v ≤ m) ∧ (2 ^ 63 ≤ m.toNat → v ≤ m) := by
  obtain ⟨m, hm⟩ := Option.ne_none_iff_exists'.mp fun h =>
    h₀ ((t.getMaxVersion_eq_none_iff name).mp h v₀)
  obtain ⟨hrow, hle⟩ := (t.getMaxVersion_eq_some_iff name m).mp hm
  exact ⟨m, hm, hrow, fun v hv => (u64AsI64_le_iff v m).mp (hle v hv)⟩

section Examples

/-- The rows of two tasks of the processor `"p"`, on versions `1` and `2`: started, then a
success for `1` and a failure for `2`. -/
def twoTasks : List (List ProcessorStatusModel) :=
  [[⟨"p", 1, false⟩, ⟨"p", 1, true⟩], [⟨"p", 2, false⟩, ⟨"p", 2, false⟩]]

end Examples

/-- The two tasks run one after the other, or interleaved, leave the same retry set and resume
point. -/
theorem applyAll_interleavings_twoTasks :
    (∀ key, (twoTasks.flatten.filter fun w => w.key = key) =
      ([⟨"p", 1, false⟩, ⟨"p", 2, false⟩, ⟨"p", 1, true⟩, ⟨"p", 2, false⟩] :
        List ProcessorStatusModel).filter fun w => w.key = key) ∧
      ((StatusTable.empty.applyAll twoTasks.flatten).getErrorVersions "p").Perm
          ((StatusTable.empty.applyAll [⟨"p", 1, false⟩, ⟨"p", 2, false⟩, ⟨"p", 1, true⟩,
            ⟨"p", 2, false⟩]).getErrorVersions "p") ∧
        (StatusTable.empty.applyAll twoTasks.flatten).getMaxVersion "p" =
          (StatusTable.empty.applyAll [⟨"p", 1, false⟩, ⟨"p", 2, false⟩, ⟨"p", 1, true⟩,
            ⟨"p", 2, false⟩]).getMaxVersion "p" := by
  have h : ∀ key, (twoTasks.flatten.filter fun w => w.key = key) =
      ([⟨"p", 1, false⟩, ⟨"p", 2, false⟩, ⟨"p", 1, true⟩, ⟨"p", 2, false⟩] :
        List ProcessorStatusModel).filter fun w => w.key = key := by
    intro key
    by_cases h1 : ("p", (1 : UInt64)) = key
    · subst h1
      simp [twoTasks, ProcessorStatusModel.key, List.filter]
    · by_cases h2 : ("p", (2 : UInt64)) = key
      · subst h2
        simp [twoTasks, ProcessorStatusModel.key, List.filter]
      · simp [twoTasks, ProcessorStatusModel.key, List.filter, h1, h2]
  exact ⟨h, applyAll_interleavings _ _ _ h "p"⟩

/-- After the two tasks, which wrote versions `1` and `2`, a resume point is returned. -/
theorem getMaxVersion_eq_max_twoTasks :
    (StatusTable.empty.applyAll twoTasks.flatten).status "p" 1 ≠ none ∧
      ∃ m, (StatusTable.empty.applyAll twoTasks.flatten).getMaxVersion "p" = some m ∧
        (StatusTable.empty.applyAll twoTasks.flatten).status "p" m ≠ none ∧
        ∀ v, (StatusTable.empty.applyAll twoTasks.flatten).status "p" v ≠ none →
          (v.toNat < 2 ^ 63 → m.toNat < 2 ^ 63 ∧ v ≤ m) ∧ (2 ^ 63 ≤ m.toNat → v ≤ m) :=
  ⟨by decide, getMaxVersion_eq_max _ "p" 1 (by decide)⟩

-- ---------------------------------------------------------------------------
-- One task
-- ---------------------------------------------------------------------------

section Task

variable {Txn : Type} (p : TransactionProcessor Txn) (version : Txn → Option UInt64)

/-- A processor reports each outcome under its own name and the version of the transaction it
was given. -/
def TransactionProcessor.ReportsOwnKey : Prop :=
  ∀ txn v, version txn = some v → (outcomeRow (p.processTransaction txn)).key = (p.name, v)

/-- The flags after a task: its outcome's key, then its started key, then the table's. -/
theorem status_processTransactionWithStatus {t t' : StatusTable} {txn : Txn} {v : UInt64}
    {res : Except TransactionProcessingError ProcessingResult}
    (h : p.processTransactionWithStatus version t txn = some (t', res))
    (hv : version txn = some v) (name : String) (w : UInt64) :
    res = p.processTransaction txn ∧
      t'.status name w =
        if (outcomeRow res).key = (name, w) then some (outcomeRow res).success
        else if (p.name, v) = (name, w) then some false else t.status name w := by
  rw [processTransactionWithStatus_eq, hv, Option.map_some', Option.some.injEq,
    Prod.mk.injEq] at h
  obtain ⟨rfl, rfl⟩ := h
  exact ⟨rfl, by rw [StatusTable.applyAll, List.foldl_cons, List.foldl_cons, List.foldl_nil,
    StatusTable.status_applyProcessorStatus, StatusTable.status_applyProcessorStatus]; rfl⟩

/-- **A task records its outcome at its own key**: after `process_transaction_with_status` of
a processor that reports under its own key, the transaction's version is an error version
exactly when processing failed, and every other key keeps its flag. -/
theorem processTransactionWithStatus_records_outcome (hp : p.ReportsOwnKey version)
    (t t' : StatusTable) (txn : Txn) (res : Except TransactionProcessingError ProcessingResult)
    (h : p.processTransactionWithStatus version t txn = some (t', res)) :
    ∃ v, version txn = some v ∧
      (v ∈ t'.getErrorVersions p.name ↔ ∃ e, res = .error e) ∧
      ∀ name w, (name, w) ≠ (p.name, v) → t'.status name w = t.status name w := by
  cases hv : version txn with
  | none => rw [processTransactionWithStatus_eq, hv] at h; cases h
  | some v =>
  have hst := status_processTransactionWithStatus p version h hv
  have hkey : (outcomeRow res).key = (p.name, v) := (hst p.name v).1 ▸ hp txn v hv
  refine ⟨v, rfl, ?_, fun name w hw => ?_⟩
  · rw [StatusTable.mem_getErrorVersions, (hst p.name v).2, if_pos hkey]
    cases res <;> simp [outcomeRow, ProcessorStatusModel.fromProcessingResultOk,
      ProcessorStatusModel.fromTransactionProcessingErr]
  · rw [(hst name w).2, if_neg (hkey ▸ Ne.symm hw), if_neg (Ne.symm hw)]

section Examples

/-- A processor that reports each transaction's own version: `version` reads the transaction. -/
def echoProcessor : TransactionProcessor UInt64 := ⟨"p", fun v => .ok ⟨"p", v⟩⟩

/-- A processor that reports the version after the transaction's. -/
def nextProcessor : TransactionProcessor UInt64 := ⟨"p", fun v => .ok ⟨"p", v + 1⟩⟩

end Examples

/-- The echoing processor records version `7` as processed. -/
theorem processTransactionWithStatus_records_outcome_seven :
    echoProcessor.ReportsOwnKey some ∧
      echoProcessor.processTransactionWithStatus some .empty 7 =
        some (StatusTable.empty.applyAll [⟨"p", 7, false⟩, ⟨"p", 7, true⟩], .ok ⟨"p", 7⟩) ∧
      ∃ v, some 7 = some v ∧
        (v ∈ (StatusTable.empty.applyAll [⟨"p", 7, false⟩, ⟨"p", 7, true⟩]).getErrorVersions
            echoProcessor.name ↔
          ∃ e, (.ok ⟨"p", 7⟩ : Except TransactionProcessingError ProcessingResult) = .error e) ∧
        ∀ name w, (name, w) ≠ (echoProcessor.name, v) →
          (StatusTable.empty.applyAll [⟨"p", 7, false⟩, ⟨"p", 7, true⟩]).status name w =
            StatusTable.empty.status name w := by
  have hp : echoProcessor.ReportsOwnKey some := fun _ _ h => by cases h; rfl
  exact ⟨hp, rfl, processTransactionWithStatus_records_outcome _ _ hp _ _ 7 _ rfl⟩

/-- **A success reported under another key leaves the version for retry**: when
`process_transaction` succeeds but reports another key than the processor's name and the
transaction's version, the started row stays a failure. -/
theorem processTransactionWithStatus_foreign_ok (t t' : StatusTable) (txn : Txn)
    (r : ProcessingResult) (v : UInt64)
    (h : p.processTransactionWithStatus version t txn = some (t', .ok r))
    (hv : version txn = some v) (hkey : (r.name, r.version) ≠ (p.name, v)) :
    v ∈ t'.getErrorVersions p.name := by
  rw [StatusTable.mem_getErrorVersions, (status_processTransactionWithStatus p version h hv _ _).2,
    if_neg (show (outcomeRow (.ok r)).key ≠ (p.name, v) from hkey), if_pos rfl]

end Task

/-- The processor that reports version `8` for transaction `7` leaves `7` for retry. -/
theorem processTransactionWithStatus_foreign_ok_seven :
    nextProcessor.processTransactionWithStatus some .empty 7 =
        some (StatusTable.empty.applyAll [⟨"p", 7, false⟩, ⟨"p", 8, true⟩], .ok ⟨"p", 8⟩) ∧
      ("p", (8 : UInt64)) ≠ (nextProcessor.name, 7) ∧
      7 ∈ (StatusTable.empty.applyAll [⟨"p", 7, false⟩, ⟨"p", 8, true⟩]).getErrorVersions
        nextProcessor.name :=
  ⟨rfl, by decide, processTransactionWithStatus_foreign_ok nextProcessor some .empty _ 7 ⟨"p", 8⟩ 7
    rfl rfl (by decide)⟩

end Aptos.Indexer
