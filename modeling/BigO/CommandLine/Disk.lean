-- The files that a run can see, held in memory, and the paths to them. A path
-- is walked part by part from the root or from the folder that the run works
-- in: an empty part and a dot stay, two dots go up, and any other part but the
-- last must be the name of a folder. So several paths may lead to one file. Of
-- all that was written to a file, the latest counts.

namespace BigO.CommandLine

/-! ## Places -/

/-- A place on the disk: the names from it up to the root, its own name first. -/
abbrev DiskPlace := List (List Char)

/-- The folder that a run works in, two below the root. Its own name is empty,
which no part of a path spells, so it is not to be found by name. -/
def workingFolder : DiskPlace := [[], ['t', 'm', 'p']]

/-- The null device, which is always empty. -/
def nullDevice : DiskPlace := [['n', 'u', 'l', 'l'], ['d', 'e', 'v']]

/-- The folders that stand at the root of every disk. -/
def rootFolders : List String :=
  ["boot", "dev", "etc", "home", "media", "mnt", "opt", "proc", "root", "run", "srv", "sys", "tmp",
    "usr", "var"]

/-- One of the folders at the root. -/
def isRootFolder (p : DiskPlace) : Bool :=
  rootFolders.any fun n => p == [n.toList]

/-! ## Paths -/

/-- The parts of a path between its slashes. -/
def splitPath : List Char → List (List Char)
  | [] => [[]]
  | c :: cs =>
    if c = '/' then [] :: splitPath cs
    else
      match splitPath cs with
      | [] => [[c]]
      | p :: ps => (c :: p) :: ps

/-- A part of a path that stays where it is. -/
def staysPut (part : List Char) : Bool :=
  part == [] || part == ['.']

/-- A part of a path that goes up to the folder around. -/
def goesUp (part : List Char) : Bool :=
  part == ['.', '.']

/-- The place that the parts of a path lead to from a folder. The last part has
to name a file; above the root is the root. -/
def walk? (isFolder : DiskPlace → Bool) (p : DiskPlace) : List (List Char) → Option DiskPlace
  | [] => none
  | [name] => if staysPut name || goesUp name then none else some (name :: p)
  | part :: rest =>
    if staysPut part then walk? isFolder p rest
    else if goesUp part then walk? isFolder p.tail rest
    else if isFolder (part :: p) then walk? isFolder (part :: p) rest
    else none

/-- The folder that a path starts from. -/
def startOf : List Char → DiskPlace
  | '/' :: _ => []
  | _ => workingFolder

/-- A path of this many bytes, or of more, leads nowhere. -/
def pathLimit : Nat := 4096

/-- The place of the file that a path leads to. -/
def placeOf? (isFolder : DiskPlace → Bool) (path : String) : Option DiskPlace :=
  if path.utf8ByteSize < pathLimit then
    walk? isFolder (startOf path.toList) (splitPath path.toList)
  else none

/-! ## Files -/

/-- What was written to each place, the earliest first. -/
structure Disk where
  written : List (DiskPlace × List UInt8) := []

/-- A folder: at the root, or one that a file was written into. -/
def Disk.isFolder (d : Disk) (p : DiskPlace) : Bool :=
  isRootFolder p || d.written.any fun w => p.isSuffixOf w.1.tail

/-- The disk after a file was written, whether or not it was there before. The
folders on the way are made; a path that leads to no file changes nothing. -/
def Disk.write (d : Disk) (path : String) (bytes : List UInt8) : Disk :=
  match placeOf? (fun _ => true) path with
  | some p => ⟨d.written ++ [(p, bytes)]⟩
  | none => d

/-- What was last written to a place. -/
def Disk.lastWritten? (d : Disk) (p : DiskPlace) : Option (List UInt8) :=
  (d.written.filter (·.1 == p)).getLast?.map (·.2)

/-- The bytes of the file at a place. -/
def Disk.bytesAt? (d : Disk) (p : DiskPlace) : Option (List UInt8) :=
  if p = nullDevice then some [] else d.lastWritten? p

/-- The bytes of the file that a path leads to. -/
def Disk.file? (d : Disk) (path : String) : Option (List UInt8) :=
  (placeOf? d.isFolder path).bind d.bytesAt?

/-! ## Laws -/

theorem Disk.lastWritten?_write (d : Disk) (path : String) (bytes : List UInt8) (p : DiskPlace) :
    (d.write path bytes).lastWritten? p =
      if placeOf? (fun _ => true) path = some p then some bytes else d.lastWritten? p := by
  unfold write
  split
  · rename_i q hq
    rw [hq]
    unfold lastWritten?
    rw [List.filter_append]
    by_cases h : q = p <;> simp [h]
  · rename_i hq
    rw [hq]
    simp

/-- A file holds what was written to it, by whichever path it is read. -/
theorem Disk.file?_write {d : Disk} {path other : String} {bytes : List UInt8} {p : DiskPlace}
    (hp : placeOf? (fun _ => true) path = some p)
    (ho : placeOf? (d.write path bytes).isFolder other = some p) (hn : p ≠ nullDevice) :
    (d.write path bytes).file? other = some bytes := by
  unfold file? bytesAt?
  rw [ho, Option.bind_some, if_neg hn, lastWritten?_write, if_pos hp]

end BigO.CommandLine
