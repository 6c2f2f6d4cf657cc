import Aptos.Rust.Core

/-!
# Aptos API — `GET /transactions`

`Transactions::list` answers a page of the ledger. It reads the ledger version, the page's
start (by default relative to it) and limit, and rejects a start past the ledger version with
a 404. It asks the database for the transactions with their infos and events, and checks that
the three lists have one entry per transaction. The `i`-th transaction is then numbered
`first_transaction_version + i`, and each of its events is tagged with that number and
viewed by the annotator. The first failure ends the listing.

The database, the annotator and the page's parsing (`page.rs`) are outside this file: they are
the parameters `Context` and `Page`. A failure of `list` is either a panic of the handler
(the checked `+` of the version, or `infos[i]` and `events[i]` past the end) or an API error
(`Error`, the HTTP reply).

`list_sound`: a listing that succeeds numbers the transactions consecutively from the
database's first version, keeps the database's order, and tags every event with its
transaction's version. `list_never_panics`: the size check keeps `infos[i]` and `events[i]` in
bounds, so the handler panics only when the versions overflow `u64`.

Left out: the JSON rendering of the response (`Response::new`), and the rest of the ledger
info.
-/

namespace Aptos.Api

open Aptos.Rust

-- ---------------------------------------------------------------------------
-- Errors and data
-- ---------------------------------------------------------------------------

/-- `diem_api_types::Error`: the HTTP status code, the message, and the fields of `data`. -/
structure Error where
  code : Nat
  message : String
  data : List (String × String)
  deriving DecidableEq, Repr

/-- `Error::not_found(message, data)`. -/
def Error.notFound (message : String) (data : List (String × String)) : Error :=
  ⟨404, message, data⟩

/-- `Error::from(anyhow::Error)`: an internal error with the error's text. -/
def Error.internal (message : String) : Error := ⟨500, message, []⟩

/-- How `list` ends without a response: a panic of the handler, or an API error. -/
inductive Failure
  | panic (p : Panic)
  | error (e : Error)
  deriving DecidableEq, Repr

/-- `LedgerInfo`, of which `list` reads the version. -/
structure LedgerInfo where
  version : UInt64
  deriving DecidableEq, Repr

/-- `TransactionListWithProof`, as `list` reads it: the transactions, their events if fetched,
the version of the first, and the proof's transaction infos. -/
structure TransactionListWithProof (Txn Info Ev : Type) where
  transactions : List Txn
  events : Option (List (List Ev))
  firstTransactionVersion : Option UInt64
  transactionInfos : List Info

/-- An `Event` of the response: the version of its transaction, the contract event, and the
data the annotator viewed. -/
structure Event (Ev Data : Type) where
  transactionVersion : UInt64
  event : Ev
  data : Data
  deriving DecidableEq, Repr

/-- A `Transaction` of the response: its version, the transaction, its info and its events. -/
structure Transaction (Txn Info Ev Data : Type) where
  version : UInt64
  txn : Txn
  info : Info
  events : List (Event Ev Data)
  deriving DecidableEq, Repr

/-- The response: the ledger info it was read at, and the transactions. -/
structure Response (Txn Info Ev Data : Type) where
  ledgerInfo : LedgerInfo
  transactions : List (Transaction Txn Info Ev Data)
  deriving DecidableEq, Repr

/-- What `list` calls outside this file. -/
structure Context (Txn Info Ev Data : Type) where
  /-- `Context::get_transactions(start_version, limit, ledger_version)`, failing with an
  `anyhow` text. -/
  getTransactions : UInt64 → UInt16 → UInt64 → Except String (TransactionListWithProof Txn Info Ev)
  /-- `MoveValueAnnotator::view_value(event.type_tag(), event.event_data())`. -/
  viewValue : Ev → Except String Data

/-- `Page`: its start, given the ledger version, and its limit, each parsed from the query. -/
structure Page where
  start : UInt64 → Except Error UInt64
  limit : Except Error UInt16

-- ---------------------------------------------------------------------------
-- `Transactions::list`
-- ---------------------------------------------------------------------------

section List

variable {Txn Info Ev Data : Type} (ctx : Context Txn Info Ev Data)

/-- `transaction_not_found(version, ledger_version)`. -/
def transactionNotFound (version ledgerVersion : UInt64) : Error :=
  .notFound ("could not find transaction by version: " ++ toString version)
    [("ledger_version", toString ledgerVersion)]

/-- `Transactions::events`: each event tagged with the transaction's version and viewed by the
annotator. -/
def events (txnVersion : UInt64) : List Ev → Except String (List (Event Ev Data))
  | [] => .ok []
  | event :: rest => do
    let data ← ctx.viewValue event
    let rest ← events txnVersion rest
    pure (⟨txnVersion, event, data⟩ :: rest)

/-- The `enumerate().map(..).map(..).collect::<Result<_>>()` over the transactions from index
`i` on: number the transaction, take its info and events, view the events. -/
def collectTransactions (txnStartVersion : UInt64) (infos : List Info) (evs : List (List Ev)) :
    Nat → List Txn → Except Failure (List (Transaction Txn Info Ev Data))
  | _, [] => .ok []
  | i, txn :: rest => do
    let version ← (u64Add txnStartVersion (UInt64.ofNat i)).mapError .panic
    let info ← (index infos i).mapError .panic
    let txnEvents ← (index evs i).mapError .panic
    let txnEvents ← (events ctx version txnEvents).mapError (.error ∘ .internal)
    let rest ← collectTransactions txnStartVersion infos evs (i + 1) rest
    pure (⟨version, txn, info, txnEvents⟩ :: rest)

/-- `if start_version > ledger_version { return Err(transaction_not_found(..)) }`. -/
def checkStart (startVersion ledgerVersion : UInt64) : Except Failure Unit :=
  if startVersion > ledgerVersion then .error (.error (transactionNotFound startVersion ledgerVersion))
  else .ok ()

/-- The check that the database returned one info and one event list per transaction. -/
def checkSizes (submitted infos events : Nat) : Except Failure Unit :=
  if submitted ≠ infos ∨ submitted ≠ events then
    .error (.error (.internal ("invalid data size from database: " ++ toString submitted ++ ", " ++
      toString infos ++ ", " ++ toString events)))
  else .ok ()

/-- `Transactions::list`. -/
def list (ledgerInfo : LedgerInfo) (page : Page) :
    Except Failure (Response Txn Info Ev Data) := do
  let ledgerVersion := ledgerInfo.version
  let startVersion ← (page.start ledgerVersion).mapError .error
  checkStart startVersion ledgerVersion
  let limit ← page.limit.mapError .error
  let data ← (ctx.getTransactions startVersion limit ledgerVersion).mapError (.error ∘ .internal)
  let txnStartVersion := data.firstTransactionVersion.getD 0
  let submitted := data.transactions
  let infos := data.transactionInfos
  let events := data.events.getD []
  checkSizes submitted.length infos.length events.length
  let txns ← collectTransactions ctx txnStartVersion infos events 0 submitted
  pure ⟨ledgerInfo, txns⟩

end List

-- ---------------------------------------------------------------------------
-- A listing that succeeds
-- ---------------------------------------------------------------------------

@[simp] theorem mapError_ok {ε ε' α : Type} (a : α) (f : ε → ε') :
    (Except.ok a : Except ε α).mapError f = .ok a := rfl

@[simp] theorem mapError_eq_ok {ε ε' α : Type} {x : Except ε α} {f : ε → ε'} {a : α} :
    x.mapError f = .ok a ↔ x = .ok a := by
  cases x <;> simp [Except.mapError]

section Sound

variable {Txn Info Ev Data : Type} (ctx : Context Txn Info Ev Data)

/-- Viewed events keep the contract events, in order, each tagged with the version. -/
theorem events_eq_ok {v : UInt64} :
    ∀ {evs : List Ev} {out : List (Event Ev Data)}, events ctx v evs = .ok out →
      out.map (·.event) = evs ∧ ∀ e ∈ out, e.transactionVersion = v
  | [], out, h => by cases h; simp
  | ev :: evs, out, h => by
    simp only [events, bind_eq_ok, pure, Except.pure, Except.ok.injEq] at h
    obtain ⟨d, -, rest, hrest, rfl⟩ := h
    obtain ⟨hmap, htag⟩ := events_eq_ok hrest
    exact ⟨by simp [hmap], by simpa using htag⟩

/-- The `j`-th transaction of a listing from index `i`: numbered `first + (i + j)`, the
database's transaction with its info, and its events tagged with its version. -/
def ListedFrom (first : UInt64) (i : Nat) (txns : List Txn) (infos : List Info)
    (evs : List (List Ev)) (out : List (Transaction Txn Info Ev Data)) : Prop :=
  out.length = txns.length ∧ ∀ j t, out[j]? = some t →
    t.version = first + UInt64.ofNat (i + j) ∧ txns[j]? = some t.txn ∧
      infos[i + j]? = some t.info ∧ evs[i + j]? = some (t.events.map (·.event)) ∧
      ∀ e ∈ t.events, e.transactionVersion = t.version

/-- **The loop numbers the transactions consecutively**, pairing each with its info and its
viewed events. -/
theorem collectTransactions_listed (first : UInt64) (infos : List Info) (evs : List (List Ev)) :
    ∀ (i : Nat) (txns : List Txn) (out : List (Transaction Txn Info Ev Data)),
      collectTransactions ctx first infos evs i txns = .ok out →
        ListedFrom first i txns infos evs out
  | _, [], out, h => by cases h; exact ⟨rfl, fun _ _ h => by simp at h⟩
  | i, txn :: txns, out, h => by
    simp only [collectTransactions, bind_eq_ok, mapError_eq_ok, pure, Except.pure,
      Except.ok.injEq] at h
    obtain ⟨version, hv, info, hinfo, tevs, htevs, es, hes, rest, hrest, rfl⟩ := h
    obtain ⟨hlen, hrest⟩ := collectTransactions_listed first infos evs (i + 1) txns rest hrest
    obtain ⟨hmap, htag⟩ := events_eq_ok ctx hes
    refine ⟨by simp [hlen], fun j t hj => ?_⟩
    cases j with
    | zero =>
      simp only [List.getElem?_cons_zero, Option.some.injEq] at hj
      subst hj
      obtain ⟨-, rfl⟩ := u64Add_eq_ok.mp hv
      exact ⟨rfl, List.getElem?_cons_zero, index_eq_ok.mp hinfo,
        by rw [hmap]; exact index_eq_ok.mp htevs, htag⟩
    | succ j =>
      simp only [List.getElem?_cons_succ] at hj ⊢
      obtain ⟨h1, h2, h3, h4, h5⟩ := hrest j t hj
      have hij : i + (j + 1) = i + 1 + j := by omega
      exact ⟨by rw [h1, hij], h2, hij ▸ h3, hij ▸ h4, h5⟩

theorem checkStart_eq_ok {start ledgerVersion : UInt64} {u : Unit} :
    checkStart start ledgerVersion = .ok u ↔ start ≤ ledgerVersion := by
  unfold checkStart
  split <;> simp_all [not_lt]

theorem checkSizes_eq_ok {submitted infos evs : Nat} {u : Unit} :
    checkSizes submitted infos evs = .ok u ↔ submitted = infos ∧ submitted = evs := by
  unfold checkSizes
  split <;> simp_all [or_iff_not_imp_left]

/-- **A listing that succeeds** is read at the given ledger info, from a start within the
ledger, and holds the database's transactions in order, numbered consecutively from its first
version, each with its info and its events, every event tagged with its transaction's
version. -/
theorem list_sound (li : LedgerInfo) (page : Page) (resp : Response Txn Info Ev Data)
    (h : list ctx li page = .ok resp) :
    resp.ledgerInfo = li ∧
      ∃ start limit data, page.start li.version = .ok start ∧ start ≤ li.version ∧
        page.limit = .ok limit ∧ ctx.getTransactions start limit li.version = .ok data ∧
        ListedFrom (data.firstTransactionVersion.getD 0) 0 data.transactions
          data.transactionInfos (data.events.getD []) resp.transactions := by
  simp only [list, bind_eq_ok, mapError_eq_ok, pure, Except.pure, Except.ok.injEq] at h
  obtain ⟨start, hstart, u, hcs, limit, hlimit, data, hdata, -, -, txns, htxns, rfl⟩ := h
  exact ⟨rfl, start, limit, data, hstart, checkStart_eq_ok.mp hcs, hlimit, hdata,
    collectTransactions_listed ctx _ _ _ 0 _ _ htxns⟩

end Sound

section Examples

/-- A database holding transactions `10` and `11` from version `5`, with infos `20` and `21`,
the first with the one event `1`, and an annotator that views an event as itself. -/
def exampleContext : Context Nat Nat Nat Nat :=
  ⟨fun _ _ _ => .ok ⟨[10, 11], some [[1], []], some 5, [20, 21]⟩, .ok⟩

/-- The page of 25 transactions from version `5`. -/
def examplePage : Page := ⟨fun _ => .ok 5, .ok 25⟩

/-- The listing of the example at ledger version `9`. -/
def exampleResponse : Response Nat Nat Nat Nat :=
  ⟨⟨9⟩, [⟨5, 10, 20, [⟨5, 1, 1⟩]⟩, ⟨6, 11, 21, []⟩]⟩

end Examples

/-- The example lists versions `5` and `6`, the first with its event tagged `5`. -/
theorem list_sound_example :
    list exampleContext ⟨9⟩ examplePage = .ok exampleResponse ∧
      (exampleResponse.ledgerInfo = ⟨9⟩ ∧
        ∃ start limit data, examplePage.start 9 = .ok start ∧ start ≤ 9 ∧
          examplePage.limit = .ok limit ∧ exampleContext.getTransactions start limit 9 = .ok data ∧
          ListedFrom (data.firstTransactionVersion.getD 0) 0 data.transactions
            data.transactionInfos (data.events.getD []) exampleResponse.transactions) :=
  ⟨rfl, list_sound exampleContext ⟨9⟩ examplePage _ rfl⟩

-- ---------------------------------------------------------------------------
-- Panics and error replies
-- ---------------------------------------------------------------------------

/-- A computation of the handler that does not panic. -/
def NoPanic {α : Type} (x : Except Failure α) : Prop := ∀ p, x ≠ .error (.panic p)

theorem noPanic_bind {α β : Type} {x : Except Failure α} {f : α → Except Failure β}
    (hx : NoPanic x) (hf : ∀ a, x = .ok a → NoPanic (f a)) : NoPanic (x >>= f) := by
  cases x with
  | error e => rw [error_bind]; exact fun p h => hx p (by cases h; rfl)
  | ok a => exact hf a rfl

theorem noPanic_ok {α : Type} (a : α) : NoPanic (.ok a : Except Failure α) :=
  fun _ h => nomatch h

theorem noPanic_mapError {ε α : Type} (x : Except ε α) (f : ε → Error) :
    NoPanic (x.mapError (.error ∘ f)) := by
  cases x <;> intro p h <;> cases h

theorem checkStart_noPanic (start ledgerVersion : UInt64) :
    NoPanic (checkStart start ledgerVersion) := by
  unfold checkStart
  split <;> intro p h <;> cases h

theorem checkSizes_noPanic (submitted infos evs : Nat) :
    NoPanic (checkSizes submitted infos evs) := by
  unfold checkSizes
  split <;> intro p h <;> cases h

section Panics

variable {Txn Info Ev Data : Type} (ctx : Context Txn Info Ev Data)

/-- The loop does not panic when the infos and event lists cover the transactions and the
versions fit in `u64`. -/
theorem collectTransactions_noPanic (first : UInt64) (infos : List Info) (evs : List (List Ev)) :
    ∀ (i : Nat) (txns : List Txn), i + txns.length = infos.length →
      i + txns.length = evs.length → first.toNat + (i + txns.length) ≤ UInt64.size →
      NoPanic (collectTransactions ctx first infos evs i txns)
  | _, [], _, _, _ => noPanic_ok _
  | i, txn :: txns, hinfos, hevs, hfit => by
    simp only [List.length_cons] at hinfos hevs hfit
    have hi : (UInt64.ofNat i).toNat = i := UInt64.toNat_ofNat_of_lt (by omega)
    rw [collectTransactions, u64Add_of_lt (by omega), index_of_lt (by omega : i < infos.length),
      index_of_lt (by omega : i < evs.length)]
    simp only [mapError_ok, ok_bind]
    exact noPanic_bind (noPanic_mapError _ _) fun _ _ =>
      noPanic_bind (collectTransactions_noPanic first infos evs (i + 1) txns (by omega)
        (by omega) (by omega)) fun _ _ => noPanic_ok _

/-- **The handler panics only on a version overflow**: the size check keeps `infos[i]` and
`events[i]` in bounds, so when the database's versions fit in `u64`, `list` returns a response
or an API error, and never panics. -/
theorem list_never_panics (li : LedgerInfo) (page : Page)
    (hfit : ∀ start limit data, ctx.getTransactions start limit li.version = .ok data →
      (data.firstTransactionVersion.getD 0).toNat + data.transactions.length ≤ UInt64.size) :
    ∀ p, list ctx li page ≠ .error (.panic p) := by
  refine noPanic_bind (noPanic_mapError _ _) fun start _ =>
    noPanic_bind (checkStart_noPanic _ _) fun _ _ =>
    noPanic_bind (noPanic_mapError _ _) fun limit _ =>
    noPanic_bind (noPanic_mapError _ _) fun data hdata =>
    noPanic_bind (checkSizes_noPanic _ _ _) fun _ hsizes =>
    noPanic_bind ?_ fun _ _ => noPanic_ok _
  obtain ⟨hinfos, hevs⟩ := checkSizes_eq_ok.mp hsizes
  exact collectTransactions_noPanic ctx _ _ _ 0 _ (by omega) (by omega)
    (by have := hfit start limit data (mapError_eq_ok.mp hdata); omega)

/-- The example database's versions fit, so its listing never panics. -/
theorem list_never_panics_example :
    (∀ start limit data, exampleContext.getTransactions start limit 9 = .ok data →
      (data.firstTransactionVersion.getD 0).toNat + data.transactions.length ≤ UInt64.size) ∧
      ∀ p, list exampleContext ⟨9⟩ examplePage ≠ .error (.panic p) := by
  have hfit : ∀ start limit data, exampleContext.getTransactions start limit 9 = .ok data →
      (data.firstTransactionVersion.getD 0).toNat + data.transactions.length ≤ UInt64.size :=
    fun _ _ _ h => by cases h; decide
  exact ⟨hfit, list_never_panics exampleContext ⟨9⟩ examplePage hfit⟩

/-- The replies of `list`'s own checks: a start past the ledger version is a 404 naming the
start and the ledger version, and a database answer whose lists differ in length is a 500
naming the three lengths. -/
theorem list_eq_error_of_checks (li : LedgerInfo) (page : Page) (start : UInt64)
    (hstart : page.start li.version = .ok start) :
    (li.version < start →
      list ctx li page = .error (.error ⟨404,
        "could not find transaction by version: " ++ toString start,
        [("ledger_version", toString li.version)]⟩)) ∧
    ∀ limit data, start ≤ li.version → page.limit = .ok limit →
      ctx.getTransactions start limit li.version = .ok data →
      (data.transactions.length ≠ data.transactionInfos.length ∨
        data.transactions.length ≠ (data.events.getD []).length) →
      list ctx li page = .error (.error ⟨500,
        "invalid data size from database: " ++ toString data.transactions.length ++ ", " ++
          toString data.transactionInfos.length ++ ", " ++
          toString (data.events.getD []).length, []⟩) := by
  constructor
  · intro hlt
    simp [list, hstart, Except.mapError, checkStart, hlt, transactionNotFound, Error.notFound]
  · intro limit data hle hlimit hdata hsizes
    have hnlt : ¬ li.version < start := by
      rw [u64_lt_iff]
      rw [u64_le_iff] at hle
      omega
    simp [list, hstart, Except.mapError, checkStart, hnlt, hlimit, hdata, checkSizes, hsizes,
      Error.internal]

end Panics

end Aptos.Api
