import Decillion.Trees
import Decillion.Programs
import Decillion.PyErrors

/-!
The operations on the directory of a weight vault, which processes share. Every operation
may fail, and a write that fails may leave a part of its data. A scan lists all that is below its
directory or fails: every subdirectory is taken to be one that may be read. The state also says
which processes have made a lock file that they have not removed again; no operation reads it.
-/
namespace Decillion.TreeSystem

open ByteText Programs PyErrors Trees

inductive TreeOp where
  | pathExists (path : Path)
  | osPathExists (path : Path)
  | isFile (path : Path)
  | isDir (path : Path)
  | isSymlink (path : Path)
  | readFile (path : Path)
  | fileSize (path : Path)
  | scan (dir : Path)
  | diskFree
  | utcNow
  | chmod (path : Path)
  | mkdir (path : Path)
  | createExclusive (path : Path)
  | mkdtemp (dir : Path) (start : String)
  | mkstemp (dir : Path) (start : String)
  | write (path : Path) (value : Bytes)
  | replace (source target : Path)
  | unlink (path : Path)
  | remove (path : Path)
  | edit (path : Path) (value : Option Node)

/-- `os.path.exists` swallows errors and the clock raises none. -/
def Resp : TreeOp → Type
  | .pathExists _ => Except PyError Bool
  | .osPathExists _ => Bool
  | .isFile _ => Except PyError Bool
  | .isDir _ => Except PyError Bool
  | .isSymlink _ => Except PyError Bool
  | .readFile _ => Except PyError Bytes
  | .fileSize _ => Except PyError ℕ
  | .scan _ => Except PyError (List Path)
  | .diskFree => Except PyError ℕ
  | .utcNow => String
  | .chmod _ => Except PyError Unit
  | .mkdir _ => Except PyError Unit
  | .createExclusive _ => Except PyError Unit
  | .mkdtemp _ _ => Except PyError Path
  | .mkstemp _ _ => Except PyError Path
  | .write _ _ => Except PyError Unit
  | .replace _ _ => Except PyError Unit
  | .unlink _ => Except PyError Unit
  | .remove _ => Except PyError Unit
  | .edit _ _ => Except PyError Unit

variable {ι α : Type}

structure TreeHost (ι : Type) where
  tree : Tree
  inside : Path → List ι
  tick : ℕ

/-- What happens at every tick, chosen in advance and arbitrarily. -/
structure TreeEnv where
  fault : ℕ → Bool
  written : ℕ → ℕ
  tempName : ℕ → String
  isoClock : ℕ → String
  free : ℕ → ℕ

def TreeHost.next (s : TreeHost ι) : TreeHost ι := { s with tick := s.tick + 1 }

def TreeHost.become (s : TreeHost ι) (tree : Tree) : TreeHost ι :=
  { s with tree := tree, tick := s.tick + 1 }

/-- What `Path.exists` finds. -/
def nodeExists (t : Tree) (path : Path) : Bool :=
  match t.node path with
  | none => false
  | some (.link .missing) => false
  | some _ => true

def nodeIsDir (t : Tree) (path : Path) : Bool :=
  match t.node path with
  | some .dir => true
  | some (.link .directory) => true
  | _ => false

def nodeContent (t : Tree) (path : Path) : Option Bytes := (t.node path).bind Node.content?

def isLink (t : Tree) (path : Path) : Bool :=
  match t.node path with
  | some (.link _) => true
  | _ => false

/-- What reading a file answers. -/
def fileContent (t : Tree) (path : Path) : Except PyError Bytes :=
  match nodeContent t path with
  | none => .error .fileNotFound
  | some content => .ok content

theorem fileContent_eq_ok (t : Tree) (path : Path) (content : Bytes) :
    fileContent t path = .ok content ↔ nodeContent t path = some content := by
  unfold fileContent
  split <;> simp_all

/-- A change that fails when the tree does not allow it. -/
def changed (s : TreeHost ι) (tree : Option Tree) : Except PyError Unit × TreeHost ι :=
  match tree with
  | none => (.error .osError, s.next)
  | some t => (.ok (), s.become t)

/-- The file or directory that `tempfile` makes. -/
def made (env : TreeEnv) (s : TreeHost ι) (dir : Path) (start : String) (value : Node) :
    Except PyError Path × TreeHost ι :=
  let path := dir ++ [start ++ env.tempName s.tick]
  if env.fault s.tick then (.error .osError, s.next)
  else if s.tree.node path ≠ none then (.error (.fileExists ""), s.next)
  else match s.tree.put path value with
    | none => (.error .osError, s.next)
    | some t => (.ok path, s.become t)

variable [DecidableEq ι]

def handle (me : ι) (env : TreeEnv) : Handler TreeOp Resp (TreeHost ι)
  | s, .pathExists path =>
      (if env.fault s.tick then .error .osError else .ok (nodeExists s.tree path), s.next)
  | s, .osPathExists path => (if env.fault s.tick then false else nodeExists s.tree path, s.next)
  | s, .isFile path =>
      (if env.fault s.tick then .error .osError else .ok (nodeContent s.tree path).isSome, s.next)
  | s, .isDir path =>
      (if env.fault s.tick then .error .osError else .ok (nodeIsDir s.tree path), s.next)
  | s, .isSymlink path =>
      (if env.fault s.tick then .error .osError else .ok (isLink s.tree path), s.next)
  | s, .readFile path =>
      (if env.fault s.tick then .error .osError else fileContent s.tree path, s.next)
  | s, .fileSize path =>
      (if env.fault s.tick then .error .osError
        else (fileContent s.tree path).map List.length, s.next)
  | s, .scan dir => (if env.fault s.tick then .error .osError else .ok (s.tree.below dir), s.next)
  | s, .diskFree => (if env.fault s.tick then .error .osError else .ok (env.free s.tick), s.next)
  | s, .utcNow => (env.isoClock s.tick, s.next)
  | s, .chmod _ => (if env.fault s.tick then .error .osError else .ok (), s.next)
  | s, .mkdir path =>
      if env.fault s.tick then (.error .osError, s.next)
      else if s.tree.node path ≠ none then (.error (.fileExists ""), s.next)
      else if s.tree.node path.dropLast = none then (.error .fileNotFound, s.next)
      else changed s (s.tree.put path .dir)
  | s, .createExclusive path =>
      if env.fault s.tick then (.error .osError, s.next)
      else if s.tree.node path ≠ none then (.error (.fileExists ""), s.next)
      else match s.tree.put path (.file []) with
        | none => (.error .osError, s.next)
        | some t => (.ok (), { s with
            tree := t
            inside := Function.update s.inside path (me :: s.inside path)
            tick := s.tick + 1 })
  | s, .mkdtemp dir start => made env s dir start .dir
  | s, .mkstemp dir start => made env s dir start (.file [])
  | s, .write path value =>
      if env.fault s.tick then
        match s.tree.put path (.file (value.take (env.written s.tick))) with
        | none => (.error .osError, s.next)
        | some t => (.error .osError, s.become t)
      else changed s (s.tree.put path (.file value))
  | s, .replace source target =>
      if env.fault s.tick then (.error .osError, s.next)
      else changed s (s.tree.move source target)
  | s, .unlink path =>
      if env.fault s.tick then (.error .osError, s.next)
      else match s.tree.node path with
        | none => (.error .fileNotFound, s.next)
        | some .dir => (.error .osError, s.next)
        | some _ =>
          match s.tree.erase path with
          | none => (.error .osError, s.next)
          | some t => (.ok (), { s with
              tree := t
              inside := Function.update s.inside path ((s.inside path).erase me)
              tick := s.tick + 1 })
  | s, .remove path =>
      if env.fault s.tick then (.error .osError, s.next)
      else changed s (s.tree.erase path)
  | s, .edit path value =>
      if env.fault s.tick then (.error .osError, s.next)
      else match value with
        | none => changed s (s.tree.erase path)
        | some node => changed s (s.tree.put path node)

section Actions

variable {ε : Type} [PythonErrors ε]

abbrev Act (ε α : Type) := Action TreeOp Resp ε α

def pathExists (path : Path) : Act ε Bool := orRaise (perform (TreeOp.pathExists path))
def osPathExists (path : Path) : Act ε Bool := perform (TreeOp.osPathExists path)
def isFile (path : Path) : Act ε Bool := orRaise (perform (TreeOp.isFile path))
def isSymlink (path : Path) : Act ε Bool := orRaise (perform (TreeOp.isSymlink path))
def readFile (path : Path) : Act ε Bytes := orRaise (perform (TreeOp.readFile path))
def fileSize (path : Path) : Act ε ℕ := orRaise (perform (TreeOp.fileSize path))
def scan (dir : Path) : Act ε (List Path) := orRaise (perform (TreeOp.scan dir))
def diskFree : Act ε ℕ := orRaise (perform TreeOp.diskFree)
def utcNow : Act ε String := perform TreeOp.utcNow
def chmod (path : Path) : Act ε Unit := orRaise (perform (TreeOp.chmod path))
def mkdtemp (dir : Path) (start : String) : Act ε Path :=
  orRaise (perform (TreeOp.mkdtemp dir start))
def mkstemp (dir : Path) (start : String) : Act ε Path :=
  orRaise (perform (TreeOp.mkstemp dir start))
def write (path : Path) (value : Bytes) : Act ε Unit := orRaise (perform (TreeOp.write path value))
def replace (source target : Path) : Act ε Unit :=
  orRaise (perform (TreeOp.replace source target))
def unlink (path : Path) : Act ε Unit := orRaise (perform (TreeOp.unlink path))

/-- `path.unlink(missing_ok=True)` -/
def unlinkMissing (path : Path) : Act ε Unit := do
  match ← perform (TreeOp.unlink path) with
  | .ok () => return
  | .error .fileNotFound => return
  | .error e => throw (PythonErrors.python e)

/-- An error of `mkdir` is no error when the directory is there. -/
def existing (path : Path) (e : PyError) : Act ε Unit := do
  match ← perform (TreeOp.isDir path) with
  | .ok true => return
  | .ok false => throw (PythonErrors.python e)
  | .error e' => throw (PythonErrors.python e')

/-- `mkdir(exist_ok=True)` -/
def makeDir (path : Path) : Act ε Unit := do
  match ← perform (TreeOp.mkdir path) with
  | .ok () => return
  | .error .fileNotFound => throw (PythonErrors.python .fileNotFound)
  | .error e => existing path e

/-- `mkdir(parents=True, exist_ok=True)` of a path that is given backwards. -/
def makeDirsUp : Path → Act ε Unit
  | [] => return
  | name :: up => do
      match ← perform (TreeOp.mkdir (name :: up).reverse) with
      | .ok () => return
      | .error .fileNotFound =>
          makeDirsUp up
          makeDir (name :: up).reverse
      | .error e => existing (name :: up).reverse e

def makeDirs (path : Path) : Act ε Unit := makeDirsUp path.reverse

/-- `shutil.rmtree(dir, ignore_errors=True)` -/
def removeTree (dir : Path) : Act ε Unit := do
  match ← perform (TreeOp.scan dir) with
  | .error _ => return
  | .ok names =>
      removeAll ((sortPaths names).reverse ++ [[]])
where
  removeAll : List Path → Act ε Unit
    | [] => return
    | rest :: more => do
        let _ ← perform (TreeOp.remove (dir ++ rest))
        removeAll more

end Actions

end Decillion.TreeSystem
