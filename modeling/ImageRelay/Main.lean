import ImageRelay.CommandLine.Run

/-!
# The program

The outer layer of the command line: it reads the environment and the files that may matter, runs
the command line on them, writes what was told and what became of the files. It starts no programs,
so engines are only there for dry runs.
-/

set_option autoImplicit false

namespace ImageRelay.CommandLine

/-- The variables that the program looks at. -/
def variableNames : List String :=
  ["HOME", "XDG_CONFIG_HOME", "KUBECONFIG", "DOCKER_CONFIG", "REGISTRY_PASSWORD", "RUST_LOG",
    "HTTP_PROXY", "http_proxy", "HTTPS_PROXY", "https_proxy"]

/-- The environment of the process; programs are looked for nowhere. -/
def readEnvironment : IO Environment := do
  let mut values : List (String × String) := [("PATH", "")]
  for name in variableNames do
    if let some value ← IO.getEnv name then
      values := values ++ [(name, value)]
  return { values }

/-- The paths that a text may name: the text, what follows a sign of equality in it, and the items
of a list. -/
def namedPaths (text : String) : List String :=
  let value := match Text.splitOnce '=' text.toList with
    | some (_, v) => v
    | none => text.toList
  (text :: (Text.splitAll ':' value).map String.ofList).filter (!·.isEmpty)

/-- The paths that may matter to a command line. -/
def pathsOf (e : Environment) (args : List String) : List String :=
  Settings.localPath :: (Settings.userPath? e).toList ++ (Cluster.defaultPath? e).toList ++
    args.flatMap namedPaths ++ (e.values.map (·.2)).flatMap namedPaths

/-- A path and the directories on the way to it, the outermost first. The number bounds them. -/
def ancestry : Nat → String → List String
  | 0, path => [path]
  | n + 1, path =>
    match (Path.parent? path).filter (!·.isEmpty) with
    | some parent => ancestry n parent ++ [path]
    | none => [path]

/-- Adds what is at a path to a tree. -/
def loadPath (t : Files.Tree) (path : String) : IO Files.Tree := do
  let place := (if Path.isAbsolute path then [] else t.workdir) ++ Path.parts path
  try
    -- Only a directory can be opened by this name.
    let _ ← IO.FS.Handle.mk (path ++ "/.") .read
    return t.put place .directory
  catch _ =>
    try
      let content ← IO.FS.readBinFile path
      return t.put place (.file content.data.toList false)
    catch _ => return t

/-- The files that may matter to a command line. -/
def readTree (e : Environment) (args : List String) : IO Files.Tree := do
  let workdir := Path.parts (← IO.currentDir).toString
  let start : Files.Tree := { entries := [], workdir }
  let ways := (List.range (workdir.length + 1)).map workdir.take
  let mut t := ways.foldl (fun t place => t.put place .directory) start
  for path in pathsOf e args do
    for step in ancestry path.length path do
      t ← loadPath t step
  return t

/-- Writes what has changed between two trees. -/
def writeTree (before after : Files.Tree) : IO Unit := do
  for (place, entry) in after.entries.mergeSort fun a b => a.1.length ≤ b.1.length do
    if before.entry? place != some entry then
      let path := "/" ++ "/".intercalate place
      match entry with
      | .directory => IO.FS.createDirAll path
      | .file content _ => IO.FS.writeBinFile path content.toByteArray
      | .device _ => pure ()

end ImageRelay.CommandLine

open ImageRelay.CommandLine in
/-- Runs the command line. -/
def main (args : List String) : IO UInt32 := do
  let environment ← readEnvironment
  let files ← readTree environment args
  let outcome := run { machine := { environment, files } } args
  writeTree files outcome.session.files
  IO.print outcome.output
  IO.eprint outcome.errors
  return outcome.code
