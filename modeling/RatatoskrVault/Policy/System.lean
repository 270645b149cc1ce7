import RatatoskrVault.Policy.Handler

/-! The policy lane: any number of command handlers and reconciliation cycles as concurrent
sessions over one database. -/
namespace RatatoskrVault.Policy

open Lib

inductive Proc
  | command (command : CommandEnvelope)
  | cycle (deliveries : List IncomingDelivery)
  deriving DecidableEq

inductive Loc
  | idle
  | aborted
  | command (at_ : CommandLoc)
  | cycle (at_ : CycleLoc)
  deriving DecidableEq

/-- The session has nothing left to do. -/
def Loc.isIdle : Loc → Bool
  | .idle => true
  | .aborted => true
  | .command (.finished _) => true
  | .cycle (.finished _) => true
  | _ => false

def start : Proc → Loc
  | .command command => .command (.checkRecorded command)
  | .cycle deliveries => .cycle (.ingest deliveries [])

def act (contracts : Contracts) (loc : Loc) (m : Moment) (db : Db) :
    Option (Action Unit Lock Write Loc) :=
  match loc with
  | .idle => none
  | .aborted => none
  | .command at_ => (handleCommand contracts m db at_).map (Action.map .command)
  | .cycle at_ => (runCycle m db at_).map (Action.map .cycle)

abbrev machine (contracts : Contracts) : Machine Db Unit Lock Write Loc Unit Proc Empty :=
  { apply := Db.apply
    act := fun loc m db _ _ => act contracts loc m db
    start
    isIdle := Loc.isIdle
    aborted := .aborted
    op := fun o => nomatch o }

abbrev State := Lib.State Db Unit Lock Write Loc
abbrev Label := Lib.Label Unit Proc Empty

/-- All sessions idle, with no lock held. -/
def initial (db : Db) (clock fresh : ℕ) : State :=
  { db, world := (), clock, fresh, held := []
    session := fun _ => { loc := .idle, log := [], began := none } }

end RatatoskrVault.Policy
