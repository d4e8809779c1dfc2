import TakaFlow.Lib.Sql
import TakaFlow.Splits

/-!
# The two views of a split

`GET /splits/:id` reads the legs one by one, `GET /splits` has the server add them up.
-/

namespace TakaFlow

open Txn

/-- `WHERE r.split_id = $1`. -/
def Database.legsOf (d : Database) (splitId : Uuid) : List MoneyRequest :=
  d.moneyRequests.rows.filter fun r => r.splitId = some splitId

/-! ### One split -/

/-- A leg with its payer, and the transfer that settled it. -/
abbrev LegRow := (MoneyRequest × User) × Option Transfer

/-- `ORDER BY u.name, r.id`, by the collation of the server. -/
def LegRow.before (collate : String → String → Bool) (a b : LegRow) : Bool :=
  if a.1.2.name = b.1.2.name then a.1.1.id ≤ b.1.1.id else collate a.1.2.name b.1.2.name

def LegRow.leg (row : LegRow) : SplitLeg :=
  { requestId := row.1.1.id
    payerUserId := row.1.1.payerUserId
    payer := ⟨row.1.2.name, row.1.2.phone⟩
    amountMinor := row.1.1.amountMinor
    status := row.1.1.status
    settledReference := row.2.map Transfer.reference }

/-- The rows of `listLegs`. -/
def Database.legRows (d : Database) (splitId : Uuid) : List LegRow :=
  Sql.leftJoin (fun (q : MoneyRequest × User) t => q.1.settledTransferId = some t.id)
    (Sql.join (fun r u => u.id = r.payerUserId) (d.legsOf splitId) d.users.rows) d.transfers.rows

def listLegs (collate : String → String → Bool) (splitId : Uuid) (d : Database) : List SplitLeg :=
  ((d.legRows splitId).insertionSort fun a b => LegRow.before collate a b).map LegRow.leg

/-- `getSplit`. Each of its two statements sees a state of its own: the split is read from the
first one, its legs from the second. -/
def getSplit (collate : String → String → Bool) (viewerUserId splitId : Uuid) (x y : Database) :
    Except DomainError Json :=
  match x.billSplits.get? splitId with
  | none => .error (errors.notFound "Split")
  | some split =>
    let legs := listLegs collate splitId y
    let involved := split.creatorUserId = viewerUserId ∨
      legs.any fun leg => leg.payerUserId = viewerUserId
    if involved then .ok (splitDTO split legs) else .error (errors.notFound "Split")

/-! ### A list of splits -/

structure SplitSummary where
  split : BillSplit
  requestedMinor : ℤ
  collectedMinor : ℤ
  outstandingMinor : ℤ
  settledCount : ℕ
  legCount : ℕ

/-- The aggregates of a split over its joined rows. -/
def splitSummary (split : BillSplit) (rows : List (BillSplit × Option MoneyRequest)) :
    SplitSummary :=
  let accepted := rows.filter fun q => q.2.any fun r => r.status = .accepted
  let requested := Sql.coalesce (Sql.sum (rows.map fun q => q.2.map MoneyRequest.amountMinor)) 0
  let collected :=
    Sql.coalesce (Sql.sum (accepted.map fun q => q.2.map MoneyRequest.amountMinor)) 0
  { split
    requestedMinor := requested
    collectedMinor := collected
    outstandingMinor := requested - collected
    settledCount := Sql.count (accepted.map fun q => q.2.map MoneyRequest.id)
    legCount := Sql.count (rows.map fun q => q.2.map MoneyRequest.id) }

/-- `repo.listSplits`. A group of `s.id` is a group of its row. -/
def Database.splitSummaries (d : Database) (creatorUserId : Uuid) (limit : ℕ) :
    List SplitSummary :=
  let rows := Sql.leftJoin (fun (s : BillSplit) r => r.splitId = some s.id)
    (d.billSplits.rows.filter fun s => s.creatorUserId = creatorUserId) d.moneyRequests.rows
  (((Sql.groupBy Prod.fst rows).map fun g => splitSummary g.1 g.2).insertionSort
    fun a b => b.split.createdAt ≤ a.split.createdAt).take limit

def summaryDTO (row : SplitSummary) : Json :=
  .obj [("id", .uuid row.split.id), ("description", .str row.split.description),
    ("total", money row.split.totalAmountMinor), ("collected", money row.collectedMinor),
    ("outstanding", money row.outstandingMinor), ("settledCount", .nat row.settledCount),
    ("legCount", .nat row.legCount), ("createdAt", .date row.split.createdAt)]

def listSplits (creatorUserId : Uuid) (limit : ℕ) (d : Database) : Json :=
  .obj [("items", .arr ((d.splitSummaries creatorUserId limit).map summaryDTO))]

end TakaFlow
