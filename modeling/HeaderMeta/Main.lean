import HeaderMeta.CommandLine.Run

/-!
# The command

Takes the part of the machine's files that a run can touch into a `Disk`, runs the command on it, and
carries out what the run changed.
-/

namespace HeaderMeta.Machine

open Files CommandLine

/-- What a file holds. -/
def content (path : String) : IO Content := do
  try return .bytes (← IO.FS.readBinFile path).toList
  catch _ => return .unreadable

/-- Whether a directory or a file is under a path. -/
def kind? (path : String) : IO (Option IO.FS.FileType) := do
  try return some (← (← IO.FS.realPath path).metadata).type
  catch _ => return none

/-- What is below a directory. A link counts as the file that it leads to, if it leads to one. -/
partial def below (path : String) : IO Tree := do
  let mut entries := []
  for e in ← (← IO.FS.realPath path).readDir do
    let path := e.path.toString
    let tree ← match (← e.path.symlinkMetadata).type with
      | .dir => below path
      | .file => pure (Tree.file (← content path))
      | _ =>
        if (← kind? path) == some .file then pure (Tree.file (← content path))
        else pure (Tree.link "")
    entries := (e.fileName, tree) :: entries
  return .dir entries

/-- Takes in what is on the way to the file that is to be generated. -/
def withOutput (d : Disk) (output : String) : IO Disk := do
  let mut d := d
  for path in (Path.lineage output).reverse do
    let loc := Path.place d.cwd path
    if (d.root.find? loc).isNone then
      match ← kind? path with
      | some .dir => d := d.put loc .empty
      | some .file => d := d.put loc (.file (← content path))
      | _ => pure ()
  return d

/-- Takes in the project directory. -/
def withRoot (d : Disk) (root : String) : IO Disk := do
  let loc := Path.place d.cwd root
  match ← kind? root with
  | some .dir => return d.put loc (← below root)
  | some .file => return d.put loc (.file (.bytes []))
  | _ => return d

/-- Writes the files that a run changed. -/
def carryOut (before after : Tree) : IO Unit := do
  for (path, c) in Tree.changes before after do
    if let .bytes data := c then
      let path := "/" ++ path
      IO.FS.createDirAll ((Path.parent? path).getD "/")
      IO.FS.writeBinFile path (ByteArray.mk data.toArray)

/-- Runs the command on the machine. -/
def runCommand (args : List String) : IO UInt32 := do
  let names := Setting.all.map Setting.variableName ++ [colorVariable, noColorVariable]
  let env ← names.filterMapM fun n => do return (← IO.getEnv n).map fun v => (n, v)
  let cwd := Path.place [] (← IO.currentDir).toString
  let mut d : Disk := ⟨Tree.empty.put cwd .empty, cwd⟩
  if let some (.generate root output _ _ _) :=
      Invocation.empty.parse (Values.ofEnvironment env) args then
    d ← withOutput d output
    d ← withRoot d root
  let o := run d env args
  carryOut d.root o.disk.root
  IO.print o.stdout
  IO.eprint o.stderr
  return o.exit.toUInt32

end HeaderMeta.Machine

/-- The command. -/
def main (args : List String) : IO UInt32 :=
  HeaderMeta.Machine.runCommand args
