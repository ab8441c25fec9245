import WitnessLang.Build.Directory
import WitnessLang.Files.Tree

set_option autoImplicit false

namespace WitnessLang.Command

/-- A question about files. Paths are as the user wrote them. -/
inductive Query where
  /-- Whether a path leads to a directory. -/
  | stat (path : String)
  | read (path : String)
  /-- The source files below a directory, sorted. -/
  | sources (dir : String)
  | makeDirectories (path : String)
  | write (path : String) (content : Bytes)
  /-- The directory the command runs in. -/
  | workingDirectory
  | loadCache
  | saveCache (cache : Build.Cache)

def Query.Reply : Query → Type
  | .stat _ => Except FileError Bool
  | .read _ => Except FileError Bytes
  | .sources _ => Except FileError (List String)
  | .makeDirectories _ => Except FileError Unit
  | .write _ _ => Except FileError Unit
  | .workingDirectory => String
  | .loadCache => Build.Cache
  | .saveCache _ => Unit

inductive Work (α : Type) where
  | done (result : α)
  | ask (query : Query) (next : query.Reply → Work α)

namespace Work

variable {α β : Type}

def bind : Work α → (α → Work β) → Work β
  | .done a, f => f a
  | .ask q next, f => .ask q fun r => (next r).bind f

instance : Monad Work where
  pure := .done
  bind := bind

def query (q : Query) : Work q.Reply := .ask q .done

def readAll : List String → Work (List Build.Found)
  | [] => return []
  | path :: rest => do
    let content := match ← query (.read path) with
      | .ok b => Except.ok b
      | .error e => .error e.message
    return ⟨path, content⟩ :: (← readAll rest)

end Work

/-- Files in memory, with what is kept between commands. -/
structure World where
  tree : FileTree
  /-- The directory that relative paths start from. -/
  cwd : String
  cache : Build.Cache := []

namespace World

def find (w : World) (path : String) : Except FileFault FileNode := w.tree.find w.cwd path

def named {α : Type} (action path : String) (r : Except FileFault α) : Except FileError α :=
  match r with
  | .ok a => .ok a
  | .error fault => .error ⟨action, path, fault⟩

/-- The source files below a directory, sorted, each as the user would have named it. -/
def sources (w : World) (dir : String) : Except FileFault (List String) := do
  let top := Path.ofNames true (← w.tree.locate w.cwd dir)
  let files := (w.tree.filesUnder top).filter (·.endsWith Build.sourceSuffix)
  let named := files.map fun p => ((Path.relative? top p).map (Path.join dir)).getD p
  return named.mergeSort fun a b => decide (a ≤ b)

def answer (w : World) : (q : Query) → q.Reply × World
  | .stat path => (named "stat" path (do return (← w.find path) == .directory), w)
  | .read path =>
    (match named "open" path (w.find path) with
      | .error e => .error e
      | .ok (.file content) => .ok content
      | .ok .sink => .ok []
      | .ok _ => .error ⟨"read", path, .isDirectory⟩, w)
  | .sources dir => (named "lstat" dir (w.sources dir), w)
  | .makeDirectories path =>
    let (r, tree) := w.tree.ensureDirectories w.cwd path
    (r, { w with tree })
  | .write path content =>
    match named "open" path (w.tree.write w.cwd path content) with
    | .ok tree => (.ok (), { w with tree })
    | .error e => (.error e, w)
  | .workingDirectory => (w.cwd, w)
  | .loadCache => (w.cache, w)
  | .saveCache cache => ((), { w with cache })

def run {α : Type} (w : World) : Work α → α × World
  | .done a => (a, w)
  | .ask q next => (w.answer q).2.run (next (w.answer q).1)

end World

end WitnessLang.Command
