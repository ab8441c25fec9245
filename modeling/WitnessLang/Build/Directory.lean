import WitnessLang.Build.Summary

set_option autoImplicit false

namespace WitnessLang.Build

def sourceSuffix : String := ".kl"

/-- A source file as it was found: its raw bytes, or why it could not be read. -/
structure Found where
  path : String
  content : Except String Bytes

structure Built where
  path : String
  /-- The trees and findings, unless the answer came from the cache. -/
  outcome : Option Outcome
  summary : Summary
  events : List Event

def Built.isCached (b : Built) : Bool := b.outcome.isNone

def unreadable (o : Options) (path reason : String) : Outcome where
  path := path
  files := {}
  file := ⟨0, path, [], {}⟩
  bag := (Bag.ofLimit o.maxDiagnostics).add
    (Diagnostic.error .loadFailed {} ("failed to load file: " ++ reason))
  events := [⟨path, none, .failed, some reason⟩]

def loadFile (path : String) (raw : Bytes) : FileSet × SourceFile :=
  let (content, origin) := loaded raw
  (FileSet.add {} path content origin, ⟨0, Path.clean path, content, origin⟩)

/-- Builds a file without a cache, inside a piece of work. -/
def buildAfreshIn (o : Options) (around : Nat) (f : Found) : Traced Outcome :=
  match f.content with
  | .error reason => return unreadable o f.path reason
  | .ok raw => let (files, file) := loadFile f.path raw; compileFileIn o around files file

def buildAfresh (o : Options) (f : Found) : Except Crash Outcome := (buildAfreshIn o 0 f).quietly

def Built.ofOutcome (path : String) (r : Outcome) : Built :=
  ⟨path, some r, r.summary, ⟨path, none, .queued, none⟩ :: r.events⟩

def Built.ofSummary (path : String) (s : Summary) : Built :=
  ⟨path, none, s, [⟨path, none, .queued, none⟩, ⟨path, s.reached, .cached, none⟩]⟩

/-- Builds a file, with the cache if there is one. Files that cannot be read are not kept. -/
def buildFileIn (o : Options) (around : Nat) (cache : Option Cache) (f : Found) :
    Traced (Built × Option Cache) :=
  match cache, f.content with
  | some c, .ok raw =>
    let key := CacheKey.of o (loaded raw).1
    match c.get? key with
    | some s => do
      Trace.point .stage "cache-hit" f.path
      return (Built.ofSummary f.path s, cache)
    | none => do
      let r ← buildAfreshIn o around f
      return (Built.ofOutcome f.path r, some (c.put key r.summary))
  | _, _ => do
    let r ← buildAfreshIn o around f
    return (Built.ofOutcome f.path r, cache)

def buildFile (o : Options) (cache : Option Cache) (f : Found) : Except Crash (Built × Option Cache) :=
  (buildFileIn o 0 cache f).quietly

def buildFilesIn (o : Options) (around : Nat) : Option Cache → List Found → Traced (List Built × Option Cache)
  | cache, [] => return ([], cache)
  | cache, f :: rest => do
    let (b, cache) ← buildFileIn o around cache f
    let (bs, cache) ← buildFilesIn o around cache rest
    return (b :: bs, cache)

def buildFiles (o : Options) (cache : Option Cache) (fs : List Found) : Except Crash (List Built × Option Cache) :=
  (buildFilesIn o 0 cache fs).quietly

def buildDirectory (o : Options) (dir : String) (cache : Option Cache) (fs : List Found) :
    Traced (List Built × Option Cache) := do
  let (inner, span) ← Trace.start 0 .whole ("build:" ++ dir)
  let built ← buildFilesIn o inner cache fs
  Trace.finish span ""
  return built

end WitnessLang.Build
