import Decillion.BuddyProofs
import Decillion.Programs

/-!
The database of the proof service, which its workers share. The first insertion of a connection
opens a transaction, one connection writes at a time, and the others see what has been committed.
Every statement may fail; what a transaction has written is committed as a whole or not at all.
-/
namespace Decillion.BuddyDatabase

open BuddyProofs ByteText JsonStrings JsonText JsonValues Primitives Programs PyCollections PyErrors
  PyValues

inductive SqlError where
  | integrityError
  | operationalError

inductive SubmitError where
  | buddy (e : BuddyError)
  | sqlite (e : SqlError)

/-- The worker that has opened the connection, and when. -/
abbrev Connection (ι : Type) := ι × ℕ

inductive SqlOp (ι : Type) where
  | connect
  | insertIssued (db : Connection ι) (row : IssuedRow)
  | selectDigest (db : Connection ι)
  | insertEvent (db : Connection ι) (row : EventRow)
  | commit (db : Connection ι)
  | rollback (db : Connection ι)
  | close (db : Connection ι)

variable {ι F α : Type}

def Resp : SqlOp ι → Type
  | .connect => Except SqlError (Connection ι)
  | .insertIssued _ _ => Except SqlError Unit
  | .selectDigest _ => Except SqlError (Option String)
  | .insertEvent _ _ => Except SqlError Unit
  | .commit _ => Except SqlError Unit
  | .rollback _ => Except SqlError Unit
  | .close _ => Unit

/-- What is committed, and the transaction in progress with what it has written so far. -/
structure DbHost (ι : Type) where
  committed : Database
  writer : Option (Connection ι × Database)
  tick : ℕ

def DbHost.next (s : DbHost ι) : DbHost ι := { s with tick := s.tick + 1 }

section Handler

variable [DecidableEq ι]

/-- The database that a connection reads. -/
def DbHost.seen (s : DbHost ι) (db : Connection ι) : Database :=
  match s.writer with
  | some (holder, view) => if holder = db then view else s.committed
  | none => s.committed

/-- The database that a connection writes to, unless another one is writing. -/
def DbHost.writable (s : DbHost ι) (db : Connection ι) : Option Database :=
  match s.writer with
  | some (holder, view) => if holder = db then some view else none
  | none => some s.committed

def DbHost.write (s : DbHost ι) (db : Connection ι) (view : Database) : DbHost ι :=
  { s with writer := some (db, view), tick := s.tick + 1 }

/-- The transaction of a connection is over, and nothing of it stays. -/
def DbHost.release (s : DbHost ι) (db : Connection ι) : DbHost ι :=
  match s.writer with
  | some (holder, _) =>
      if holder = db then { s with writer := none, tick := s.tick + 1 } else s.next
  | none => s.next

def DbHost.commit (s : DbHost ι) (db : Connection ι) : DbHost ι :=
  match s.writer with
  | some (holder, view) =>
      if holder = db then ⟨view, none, s.tick + 1⟩ else s.next
  | none => s.next

def handle (me : ι) (fault : ℕ → Bool) : Handler (SqlOp ι) Resp (DbHost ι)
  | s, .connect => (if fault s.tick then .error .operationalError else .ok (me, s.tick), s.next)
  | s, .insertIssued db row =>
      if fault s.tick then (.error .operationalError, s.next)
      else match s.writable db with
        | none => (.error .operationalError, s.next)
        | some view =>
          match insertIssued view row with
          | none => (.error .integrityError, s.write db view)
          | some inserted => (.ok (), s.write db inserted)
  | s, .selectDigest db =>
      (if fault s.tick then .error .operationalError
        else .ok ((s.seen db).events.getLast?.map EventRow.digest), s.next)
  | s, .insertEvent db row =>
      if fault s.tick then (.error .operationalError, s.next)
      else match s.writable db with
        | none => (.error .operationalError, s.next)
        | some view => (.ok (), s.write db { view with events := view.events ++ [row] })
  | s, .commit db =>
      if fault s.tick then (.error .operationalError, s.next) else (.ok (), s.commit db)
  | s, .rollback db =>
      if fault s.tick then (.error .operationalError, s.next) else (.ok (), s.release db)
  | s, .close db => ((), s.release db)

end Handler

section Program

abbrev Submit (ι α : Type) := Action (SqlOp ι) Resp SubmitError α

/-- The answer of a statement that may raise an exception. -/
def raising (x : Submit ι (Except SqlError α)) : Submit ι α := do
  match ← x with
  | .ok a => return a
  | .error e => throw (.sqlite e)

def raiseBuddy (result : Except BuddyError α) : Submit ι α :=
  fromExcept (result.mapError SubmitError.buddy)

def raisePython (result : Except PyError α) : Submit ι α := raiseBuddy (python result)

/-- The end of `state`: a connection, on which the tables are there. -/
def connect : Submit ι (Connection ι) := do
  match ← perform SqlOp.connect with
  | .ok db => return db
  | .error _ => throw (.buddy (.http 503 "invalid signer or database"))

def insertRow (db : Connection ι) (row : IssuedRow) : Submit ι Unit :=
  raising (perform (SqlOp.insertIssued db row))

def selectDigest (db : Connection ι) : Submit ι (Option String) :=
  raising (perform (SqlOp.selectDigest db))

def insertEvent (db : Connection ι) (row : EventRow) : Submit ι Unit :=
  raising (perform (SqlOp.insertEvent db row))

def rollback (db : Connection ι) : Submit ι Unit := raising (perform (SqlOp.rollback db))

/-- A commit that fails is followed by a rollback. -/
def commit (db : Connection ι) : Submit ι Unit := do
  match ← perform (SqlOp.commit db) with
  | .ok () => return
  | .error e =>
      let _ ← perform (SqlOp.rollback db)
      throw (.sqlite e)

def close (db : Connection ι) : Submit ι Unit := perform (SqlOp.close db)

/-- `with db:` -/
def withDatabase (db : Connection ι) (body : Submit ι Unit) : Submit ι Unit :=
  Prog.bind body (fun
    | .ok () => commit db
    | .error e => (do
        rollback db
        throw e : Submit ι Unit))

/-- `except sqlite3.IntegrityError` -/
def issuedAlready : SubmitError → SubmitError
  | .sqlite .integrityError => .buddy (.http 409 "certificate already issued")
  | e => e

variable [FloatText F] [FloatNumber F]

/-- `event` -/
def event (sha : Sha256) (db : Connection ι) (kind : String) (payload : Json F) :
    Submit ι String := do
  let head ← selectDigest db
  let row ← raisePython (eventRow sha kind payload (head.getD "genesis"))
  insertEvent db row
  return row.digest

/-- The statements of the transaction of `submit`. -/
def record (service : Service F) (db : Connection ι) (data : Submission F) (cert : Members F) :
    Submit ι Unit := do
  let row ← raisePython (issuedRow service data cert)
  insertRow db row
  let _ ← event service.sha db "issued" (issuedPayload cert)

/-- The part of `submit` that has a connection. -/
def certify (service : Service F) (secret : Bytes) (db : Connection ι) (data : Submission F) :
    Submit ι (Bundle F) := do
  let cert ← raisePython (certificate service secret data)
  mapError issuedAlready (withDatabase db (record service db data cert))
  return ⟨data.contract, data.attempt, cert⟩

/-- `submit`, statement by statement. -/
def submitSteps (service : Service F) (data : Submission F) : Submit ι (Bundle F) := do
  raiseBuddy (gates service.ed service.keysJson data)
  match service.signer with
  | none => throw (.buddy (.http 503 "durable signer and database required"))
  | some secret => do
      let db ← connect
      tryFinally (certify service secret db data) (close db)

end Program

end Decillion.BuddyDatabase
