import SectionLedger.Directory.Path
import SectionLedger.Fault
import SectionLedger.Text.Utf8

/-!
# Directories

A directory holds files and directories, each at a place below it.  Paths may also lead out of it,
so it is seen together with what stands around it: the directories that lead to it, what every
system has, and what has been put there.  Entries are kept in the order of their places, names
compared by code point: so a directory comes before what is in it, and what is in a directory is in
the order of the names.
-/

namespace SectionLedger

/-- What stands at a place. -/
inductive Entry where
  | file (content : ByteArray)
  | folder
  /-- A device that is empty to read, and that drops what is written to it. -/
  | sink

/-- The entries with the entry at a place put in, or replaced. -/
def setEntry (place : Place) (entry : Entry) : List (Place × Entry) → List (Place × Entry)
  | [] => [(place, entry)]
  | row :: rows =>
    if place < row.1 then (place, entry) :: row :: rows
    else if place = row.1 then (place, entry) :: rows
    else row :: setEntry place entry rows

theorem mem_setEntry {place : Place} {entry : Entry} {rows : List (Place × Entry)}
    {row : Place × Entry} (h : row ∈ setEntry place entry rows) :
    row = (place, entry) ∨ row ∈ rows := by
  induction rows with
  | nil => simpa [setEntry] using h
  | cons r rows ih =>
    unfold setEntry at h
    split at h
    · simpa using h
    · split at h
      · rcases List.mem_cons.1 h with h | h
        · exact .inl h
        · exact .inr (List.mem_cons_of_mem _ h)
      · rcases List.mem_cons.1 h with rfl | h
        · exact .inr (by simp)
        · exact (ih h).imp id (List.mem_cons_of_mem _)

theorem place_lt_of_not_lt {a b : Place} (h : ¬a < b) (hne : a ≠ b) : b < a :=
  List.not_le.1 fun hle => hne (List.le_antisymm hle (List.not_lt.1 h))

theorem setEntry_pairwise {place : Place} {entry : Entry} {rows : List (Place × Entry)}
    (h : rows.Pairwise fun a b => a.1 < b.1) :
    (setEntry place entry rows).Pairwise fun a b => a.1 < b.1 := by
  induction rows with
  | nil => simp [setEntry]
  | cons r rows ih =>
    obtain ⟨hr, htail⟩ := List.pairwise_cons.1 h
    unfold setEntry
    split
    · next hlt =>
      refine List.pairwise_cons.2 ⟨fun row hrow => ?_, h⟩
      rcases List.mem_cons.1 hrow with rfl | hrow
      · exact hlt
      · exact List.lt_trans hlt (hr row hrow)
    · next hlt =>
      split
      · next heq =>
        refine List.pairwise_cons.2 ⟨fun row hrow => ?_, htail⟩
        rw [heq]
        exact hr row hrow
      · next hne =>
        refine List.pairwise_cons.2 ⟨fun row hrow => ?_, ih htail⟩
        rcases mem_setEntry hrow with rfl | hrow
        · exact place_lt_of_not_lt hlt hne
        · exact hr row hrow

/-- The names of the directories that a system has at its root. -/
def rootNames : List String :=
  ["bin", "boot", "dev", "etc", "home", "lib", "media", "mnt", "opt", "proc", "root", "run", "sbin",
   "srv", "sys", "tmp", "usr", "var"]

/-- What stands at a place in every system. -/
def standard? : Place → Option Entry
  | [name] => if rootNames.contains name then some .folder else none
  | ["dev", "null"] => some .sink
  | _ => none

/-- Files and directories, each at a place of its own, as seen from one directory. -/
structure Directory where
  /-- The place of the directory itself. -/
  home : Place
  rows : List (Place × Entry)
  ascending : rows.Pairwise fun a b => a.1 < b.1

namespace Directory

/-- The directory at a place, with nothing in it. -/
def empty (home : Place) : Directory := ⟨home, [], .nil⟩

/-- The path of a file that is named within the directory. -/
def pathOf (d : Directory) (name : String) : String := Path.join (Path.ofPlace d.home) name

/-- What stands at a place.  The directory itself can be reached from the root. -/
def get? (d : Directory) (place : Place) : Option Entry :=
  if place.isPrefixOf d.home then some .folder
  else (d.rows.lookup place).or (standard? place)

/-- The directory with an entry put in at a place, or replaced. -/
def set (d : Directory) (place : Place) (entry : Entry) : Directory :=
  ⟨d.home, setEntry place entry d.rows, setEntry_pairwise d.ascending⟩

@[simp]
theorem home_set (d : Directory) (place : Place) (entry : Entry) :
    (d.set place entry).home = d.home := rfl

/-- Every place on the way to the directory is a directory. -/
theorem get?_of_isPrefixOf {d : Directory} {place : Place} (h : place.isPrefixOf d.home = true) :
    d.get? place = some .folder := by
  simp [get?, h]

/-- The place that names lead to from a place; the last name need not exist. -/
def follow (d : Directory) (place : Place) : List String → Except FileFault Place
  | [] => .ok place
  | name :: names =>
    match d.get? place with
    | none => .error .missing
    | some .folder =>
      if name = "." then d.follow place names
      else if name = ".." then d.follow place.dropLast names
      else if Path.nameLimit < name.utf8ByteSize then .error .tooLong
      else d.follow (place ++ [name]) names
    | some _ => .error .notDirectory

/-- The place that a path starts from, if it can be a path. -/
def start (d : Directory) (path : String) : Except FileFault Place :=
  if path.toList.contains '\x00' then .error .badName
  else if path = "" then .error .missing
  else if Path.limit < path.utf8ByteSize then .error .tooLong
  else .ok (if Path.isAbsolute path then [] else d.home)

/-- The place that a path leads to. -/
def locate (d : Directory) (path : String) : Except FileFault Place := do
  d.follow (← d.start path) (Path.names path)

/-- What a path leads to. -/
def find (d : Directory) (path : String) : Except FileFault Entry := do
  let place ← d.locate path
  match d.get? place with
  | none => .error .missing
  | some .folder => .ok .folder
  | some entry => if Path.endsInSlash path then .error .notDirectory else .ok entry

/-- Whether a path leads to something. -/
def has (d : Directory) (path : String) : Bool := (d.find path).isOk

/-- The bytes of a file. -/
def read (d : Directory) (path : String) : Except FileFault ByteArray := do
  match ← d.find path with
  | .file content => .ok content
  | .folder => .error .isDirectory
  | .sink => .ok .empty

/-- The text of a file. -/
def readText (d : Directory) (path : String) : Except FileFault String := do
  match Text.readUtf8? (← d.read path) with
  | some text => .ok text
  | none => .error .notText

/-- The place that a file is written to: no file can be written to a path that ends in a slash, once
it is known that there is a directory for the last name. -/
def locateFile (d : Directory) (path : String) : Except FileFault Place := do
  let place ← d.start path
  let names := Path.names path
  if Path.endsInSlash path then
    let _ ← d.follow place (names.dropLast ++ ["."])
    throw .isDirectory
  d.follow place names

/-- The directory with a file written; the directory that the file is in has to exist. -/
def write (d : Directory) (path : String) (content : ByteArray) : Except FileFault Directory := do
  let place ← d.locateFile path
  match d.get? place with
  | some .folder => .error .isDirectory
  | some .sink => .ok d
  | _ => .ok (d.set place (.file content))

/-- The directory with a text written to a file. -/
def writeText (d : Directory) (path text : String) : Except FileFault Directory :=
  d.write path text.toUTF8

/-- The directory with an entry put in at a place below it, and every directory on the way there. -/
def put (d : Directory) (place : Place) (entry : Entry) : Directory :=
  let folders := (List.range place.length).filter (0 < ·) |>.map place.take
  (folders.foldl (fun d folder => d.set (d.home ++ folder) .folder) d).set (d.home ++ place) entry

/-- The rows below a place, each with the place that leads to it from there. -/
def below (d : Directory) (place : Place) : List (Place × Entry) :=
  (d.rows.filter fun row => place.isPrefixOf row.1).map fun row => (row.1.drop place.length, row.2)

end Directory

end SectionLedger
