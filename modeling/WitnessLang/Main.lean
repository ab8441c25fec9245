import WitnessLang.Build.Store
import WitnessLang.Command.Dispatch

set_option autoImplicit false

namespace WitnessLang.Command.Machine

def faultOf : IO.Error → FileFault
  | .noFileOrDirectory _ _ _ => .missing
  | .alreadyExists _ _ _ => .alreadyThere
  | .invalidArgument _ _ _ => .invalid
  | .inappropriateType _ _ reason => .refused reason
  | .permissionDenied _ _ _ => .refused "permission denied"
  | e => .refused (toString e)

/-- Does something with a path; an error tells what was tried. -/
def attempt {α : Type} (action path : String) (work : IO α) : IO (Except FileError α) :=
  try return .ok (← work) catch e => return .error ⟨action, path, faultOf e⟩

def isDirectory (path : String) : IO Bool := do
  let real ← IO.FS.realPath path
  if ← real.pathExists then real.isDir
  else throw (.noFileOrDirectory path 2 "no such file or directory")

/-- The source files below a directory. -/
partial def sourcesBelow (dir : String) : IO (List String) := do
  let entries ← (← IO.FS.realPath dir).readDir
  let found ← entries.toList.mapM fun e => do
    let path := Path.join dir e.fileName
    if ← e.path.isDir then sourcesBelow path
    else return if path.endsWith Build.sourceSuffix then [path] else []
  return found.flatten

def cacheFile : IO (Option String) := do
  match ← IO.getEnv "XDG_CACHE_HOME", ← IO.getEnv "HOME" with
  | some base, _ => return some (Path.join base "keel/units")
  | none, some home => return some (Path.join home ".cache/keel/units")
  | none, none => return none

def loadCache : IO Build.Cache := do
  match ← cacheFile with
  | none => return []
  | some path =>
    try return Build.Store.decode (← IO.FS.readBinFile path).toList catch _ => return []

def saveCache (c : Build.Cache) : IO Unit := do
  if let some path ← cacheFile then
    IO.FS.createDirAll (Path.parent path)
    IO.FS.writeBinFile path ⟨(Build.Store.encode c).toArray⟩

def answer : (q : Query) → IO q.Reply
  | .stat path => attempt "stat" path (isDirectory path)
  | .read path => attempt "open" path (do return (← IO.FS.readBinFile path).toList)
  | .sources dir => attempt "lstat" dir do
      return (← sourcesBelow dir).mergeSort fun a b => decide (a ≤ b)
  | .makeDirectories path => attempt "mkdir" path (IO.FS.createDirAll path)
  | .write path content => attempt "open" path (IO.FS.writeBinFile path ⟨content.toArray⟩)
  | .workingDirectory => return (← IO.currentDir).toString
  | .loadCache => loadCache
  | .saveCache cache => saveCache cache

def run {α : Type} : Work α → IO α
  | .done a => return a
  | .ask q next => do run (next (← answer q))

end WitnessLang.Command.Machine

open WitnessLang in
/-- Runs a command line, prints what it says and gives its exit code. -/
def main (args : List String) : IO UInt32 := do
  let a ← Command.Machine.run (Command.run args)
  (← IO.getStdout).write ⟨a.output.toArray⟩
  (← IO.getStderr).write ⟨a.errors.toArray⟩
  return a.exit.toUInt32
