import Decillion.Programs
import Decillion.PyErrors
import Mathlib.Tactic.Common

/-!
The operations of the host that the programs call: files, random octets, the clock, the
environment and a table of text rows with a primary key. The answers are drawn from an
environment which is arbitrary: every operation on a file or a table may fail, and a
write that fails may leave a part of its data.
-/
namespace Decillion.HostSystem

open ByteText Primitives Programs PyErrors

inductive SysOp where
  | pathExists (path : Path)
  | osPathExists (path : Path)
  | readBytes (path : Path)
  | mkstemp (dir : Path) (start : String)
  | write (path : Path) (value : Bytes)
  | chmod (path : Path)
  | replace (source target : Path)
  | unlink (path : Path)
  | urandom (count : ℕ)
  | uuid4
  | time
  | utcNow
  | getenv (name : String)
  | readBlock (block : Bytes)
  | insertRow (row : List String)

/-- `os.path.exists` swallows errors; the clock and the environment raise none. -/
def Resp (F : Type) : SysOp → Type
  | .pathExists _ => Except PyError Bool
  | .osPathExists _ => Bool
  | .readBytes _ => Except PyError Bytes
  | .mkstemp _ _ => Except PyError Path
  | .write _ _ => Except PyError Unit
  | .chmod _ => Except PyError Unit
  | .replace _ _ => Except PyError Unit
  | .unlink _ => Except PyError Unit
  | .urandom _ => Except PyError Bytes
  | .uuid4 => String
  | .time => F
  | .utcNow => String
  | .getenv _ => Option String
  | .readBlock _ => Except PyError Bytes
  | .insertRow _ => Except PyError Unit

structure Host where
  files : Path → Option Bytes
  rows : List (List String)
  tick : ℕ

/-- What happens at every tick of the host, chosen in advance and arbitrarily. -/
structure Env (F : Type) where
  fault : ℕ → Bool
  written : ℕ → ℕ
  random : ℕ → ℕ → Bytes
  random_length : ∀ tick count, (random tick count).length = count
  uuid : ℕ → String
  clock : ℕ → F
  isoClock : ℕ → String
  tempName : ℕ → String
  environ : String → Option String

variable {F ε : Type}

def Host.next (s : Host) : Host := { s with tick := s.tick + 1 }

def Host.put (s : Host) (path : Path) (value : Option Bytes) : Host :=
  { s with files := Function.update s.files path value, tick := s.tick + 1 }

/-- The operations; the key of a row is its first column. -/
def handle (env : Env F) : Handler SysOp (Resp F) Host
  | s, .pathExists path =>
      (if env.fault s.tick then .error .osError else .ok (s.files path).isSome, s.next)
  | s, .osPathExists path => (if env.fault s.tick then false else (s.files path).isSome, s.next)
  | s, .readBytes path =>
      (if env.fault s.tick then .error .osError
        else match s.files path with
          | none => .error .fileNotFound
          | some value => .ok value, s.next)
  | s, .mkstemp dir start =>
      let path := dir ++ [start ++ env.tempName s.tick]
      if env.fault s.tick then (.error .osError, s.next)
      else if (s.files path).isSome then (.error (.fileExists ""), s.next)
      else (.ok path, s.put path (some []))
  | s, .write path value =>
      if env.fault s.tick then
        (.error .osError, s.put path (some (value.take (env.written s.tick))))
      else (.ok (), s.put path (some value))
  | s, .chmod _ => (if env.fault s.tick then .error .osError else .ok (), s.next)
  | s, .replace source target =>
      if env.fault s.tick then (.error .osError, s.next)
      else match s.files source with
        | none => (.error .fileNotFound, s.next)
        | some value =>
            (.ok (), { s with
              files := Function.update (Function.update s.files source none) target (some value)
              tick := s.tick + 1 })
  | s, .unlink path =>
      if env.fault s.tick then (.error .osError, s.next)
      else match s.files path with
        | none => (.error .fileNotFound, s.next)
        | some _ => (.ok (), s.put path none)
  | s, .urandom count =>
      (if env.fault s.tick then .error .osError else .ok (env.random s.tick count), s.next)
  | s, .uuid4 => (env.uuid s.tick, s.next)
  | s, .time => (env.clock s.tick, s.next)
  | s, .utcNow => (env.isoClock s.tick, s.next)
  | s, .getenv name => (env.environ name, s.next)
  | s, .readBlock block => (if env.fault s.tick then .error .osError else .ok block, s.next)
  | s, .insertRow row =>
      if env.fault s.tick then (.error .osError, s.next)
      else if s.rows.any (fun other => other.head? = row.head?) then
        (.error .integrityError, s.next)
      else (.ok (), { s with rows := s.rows ++ [row], tick := s.tick + 1 })

/-- An environment that can be evaluated: every answer follows the tick. -/
def Env.sample (fault : ℕ → Bool) (clock : ℕ → F) (environ : String → Option String) : Env F where
  fault := fault
  written := fun _ => 0
  random := fun tick count => octets count tick
  random_length := fun tick count => octets_length count tick
  uuid := fun tick => hex (octets 16 tick)
  clock := clock
  isoClock := fun _ => "2025-01-01T00:00:00+00:00"
  tempName := fun tick => hex (octets 8 tick)
  environ := environ

def Host.empty : Host := { files := fun _ => none, rows := [], tick := 0 }

abbrev Act (F ε α : Type) := Action SysOp (Resp F) ε α

variable [PythonErrors ε]

def pathExists (path : Path) : Act F ε Bool := orRaise (perform (SysOp.pathExists path))
def osPathExists (path : Path) : Act F ε Bool := perform (SysOp.osPathExists path)
def readBytes (path : Path) : Act F ε Bytes := orRaise (perform (SysOp.readBytes path))
def mkstemp (dir : Path) (start : String) : Act F ε Path :=
  orRaise (perform (SysOp.mkstemp dir start))
def writeTemp (path : Path) (value : Bytes) : Act F ε Unit :=
  orRaise (perform (SysOp.write path value))
def chmod (path : Path) : Act F ε Unit := orRaise (perform (SysOp.chmod path))
def replace (source target : Path) : Act F ε Unit := orRaise (perform (SysOp.replace source target))
def unlink (path : Path) : Act F ε Unit := orRaise (perform (SysOp.unlink path))
def urandom (count : ℕ) : Act F ε Bytes := orRaise (perform (SysOp.urandom count))
def uuid4 : Act F ε String := perform SysOp.uuid4
def time : Act F ε F := perform SysOp.time
def utcNow : Act F ε String := perform SysOp.utcNow
def getenv (name : String) : Act F ε (Option String) := perform (SysOp.getenv name)
/-- The next block of an open file that nobody changes. -/
def readBlock (block : Bytes) : Act F ε Bytes := orRaise (perform (SysOp.readBlock block))
def insertRow (row : List String) : Act F ε Unit := orRaise (perform (SysOp.insertRow row))

def removeTemporary (temporary : Path) : Act F ε Unit := do
  if ← osPathExists temporary then unlink temporary

/-- A file is written next to its target, synchronised and moved over it. -/
def replaceFile (start : String) (target : Path) (value : Bytes) : Act F ε Unit := do
  let temporary ← mkstemp target.dropLast start
  tryFinally
    (do
      writeTemp temporary value
      chmod temporary
      replace temporary target)
    (removeTemporary temporary)

end Decillion.HostSystem
