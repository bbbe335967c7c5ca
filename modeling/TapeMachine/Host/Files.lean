/-!
# Paths and files

The files that a run can see. A path hangs on an anchor, which is always a directory: the root of
all files, or a directory whose own place is not known.
-/

namespace TapeMachine

structure Path where
  anchor : String
  parts : List String
deriving DecidableEq

namespace Path

def text (p : Path) : String :=
  if p.parts.isEmpty && p.anchor.isEmpty then "/"
  else String.join (p.anchor :: p.parts.map ("/" ++ ·))

def child (p : Path) (name : String) : Path := { p with parts := p.parts ++ [name] }

/-- The directory above. There is none above the root, and what is above any other anchor is an
anchor too. -/
def parent (p : Path) : Path :=
  if !p.parts.isEmpty then { p with parts := p.parts.dropLast }
  else if p.anchor.isEmpty then p
  else { p with anchor := p.anchor ++ "/.." }

/-- Go to what one component names: nothing and a dot stay, two dots go up. -/
def enter (p : Path) (component : String) : Path :=
  if component = "" ∨ component = "." then p
  else if component = ".." then p.parent
  else p.child component

/-- What stands between the slashes. -/
def pieces : List Char → List (List Char)
  | [] => [[]]
  | c :: rest =>
    if c = '/' then [] :: pieces rest
    else
      match pieces rest with
      | [] => [[c]]
      | piece :: more => (c :: piece) :: more

theorem pieces_of_slash_notMem {l : List Char} (h : '/' ∉ l) : pieces l = [l] := by
  induction l with
  | nil => rfl
  | cons c rest ih =>
    obtain ⟨hc, hrest⟩ := List.ne_and_not_mem_of_not_mem_cons h
    simp [pieces, hc.symm, ih hrest]

def components (written : String) : List String := (pieces written.toList).map String.ofList

def ofDirectory (written : String) : Path :=
  if written.startsWith "/" then (components written).foldl enter ⟨"", []⟩ else ⟨written, []⟩

def origin (workingDirectory written : String) : Path :=
  if written.startsWith "/" then ⟨"", []⟩ else ofDirectory workingDirectory

/-- No path holds the null character. -/
def isPossible (written : String) : Bool := !written.toList.contains '\x00'

/-- The absolute path for a written one, found without a look at the files. -/
def resolve (workingDirectory written : String) : Path :=
  (components written).foldl enter (origin workingDirectory written)

end Path

inductive Entry where
  | directory
  | file (data : List UInt8)
deriving DecidableEq

inductive FileError where
  | missing
  | notDirectory
  | isDirectory
  | nameTooLong
deriving DecidableEq

namespace FileError

def number : FileError → Nat
  | .missing => 2
  | .notDirectory => 20
  | .isDirectory => 21
  | .nameTooLong => 36

def message : FileError → String
  | .missing => "No such file or directory"
  | .notDirectory => "Not a directory"
  | .isDirectory => "Is a directory"
  | .nameTooLong => "File name too long"

end FileError

/-- The files and directories below the anchors, each path at most once. -/
abbrev Files := List (Path × Entry)

namespace Files

def find? (files : Files) (p : Path) : Option Entry :=
  if p.parts.isEmpty then some .directory else files.lookup p

def erase (files : Files) (p : Path) : Files := List.filter (fun entry => entry.1 ≠ p) files

def insert (files : Files) (p : Path) (entry : Entry) : Files := files.erase p ++ [(p, entry)]

theorem lookup_filter_ne (files : List (Path × Entry)) {p q : Path} (h : q ≠ p) :
    (files.filter fun entry => entry.1 ≠ p).lookup q = files.lookup q := by
  induction files with
  | nil => rfl
  | cons entry rest ih =>
    obtain ⟨r, e⟩ := entry
    by_cases hr : r = p
    · subst hr
      have hq : (q == r) = false := by simpa using h
      simpa [List.lookup_cons, hq] using ih
    · by_cases hq : q = r
      · simp [hr, hq]
      · have hq' : (q == r) = false := by simpa using hq
        simpa [List.lookup_cons, hr, hq'] using ih

theorem lookup_filter_self (files : List (Path × Entry)) (p : Path) :
    (files.filter fun entry => entry.1 ≠ p).lookup p = none := by
  induction files with
  | nil => rfl
  | cons entry rest ih =>
    obtain ⟨r, e⟩ := entry
    by_cases hr : r = p
    · simpa [hr] using ih
    · have hq : (p == r) = false := by simpa using Ne.symm hr
      simpa [List.lookup_cons, hr, hq] using ih

theorem find?_erase_ne (files : Files) {p q : Path} (h : q ≠ p) :
    (files.erase p).find? q = files.find? q := by
  unfold find? erase
  rw [lookup_filter_ne files h]

theorem find?_insert_ne (files : Files) {p q : Path} (entry : Entry) (h : q ≠ p) :
    (files.insert p entry).find? q = files.find? q := by
  have hq : (q == p) = false := by simpa using h
  have hsingle : List.lookup q [(p, entry)] = none := by simp [List.lookup_cons, hq]
  unfold find? insert
  rw [List.lookup_append, hsingle]
  unfold erase
  rw [lookup_filter_ne files h]
  simp

theorem find?_erase_self (files : Files) {p : Path} (h : p.parts ≠ []) :
    (files.erase p).find? p = none := by
  unfold find? erase
  rw [lookup_filter_self]
  simp [h]

theorem find?_insert_self (files : Files) {p : Path} (entry : Entry) (h : p.parts ≠ []) :
    (files.insert p entry).find? p = some entry := by
  unfold find? insert erase
  rw [List.lookup_append, lookup_filter_self]
  simp [h]

def checkDirectory (files : Files) (p : Path) : Except FileError Unit :=
  match files.find? p with
  | some .directory => .ok ()
  | some (.file _) => .error .notDirectory
  | none => .error .missing

/-- The longest name of a file, in bytes. -/
def maxNameSize : Nat := 255

/-- The longest path that one can ask for, in bytes. -/
def maxPathSize : Nat := 4095

/-- Follow components one after the other; each but the last has to lead to a directory, and none
may be too long to be looked up there. -/
def walk (files : Files) : Path → List String → Except FileError Path
  | p, [] => .ok p
  | p, name :: rest =>
    match files.checkDirectory p with
    | .error e => .error e
    | .ok () =>
      if maxNameSize < name.utf8ByteSize then .error .nameTooLong
      else files.walk (p.enter name) rest

def reach (files : Files) (p : Path) : Except FileError Path :=
  if maxPathSize < p.text.utf8ByteSize then .error .nameTooLong
  else files.walk ⟨p.anchor, []⟩ p.parts

/-- Whether a path leads to a directory. One that is too long does not even lead nowhere. -/
def isDirectory (files : Files) (p : Path) : Except FileError Bool :=
  match files.reach p with
  | .error .nameTooLong => .error .nameTooLong
  | .error _ => .ok false
  | .ok p => .ok (files.find? p = some .directory)

/-- What a written path leads to. The empty text leads nowhere. -/
def locate (files : Files) (workingDirectory written : String) : Except FileError Entry :=
  if written.isEmpty then .error .missing
  else if maxPathSize < written.utf8ByteSize then .error .nameTooLong
  else
    match files.walk (Path.origin workingDirectory written) (Path.components written) with
    | .error e => .error e
    | .ok p =>
      match files.find? p with
      | some entry => .ok entry
      | none => .error .missing

def write (files : Files) (p : Path) (data : List UInt8) : Except FileError Files :=
  match files.reach p with
  | .error e => .error e
  | .ok _ =>
    match files.find? p with
    | some .directory => .error .isDirectory
    | _ => .ok (files.insert p (.file data))

/-- Delete a file if it is there. -/
def remove (files : Files) (p : Path) : Except FileError Files :=
  match files.reach p with
  | .error .missing => .ok files
  | .error e => .error e
  | .ok _ =>
    match files.find? p with
    | some .directory => .error .isDirectory
    | some (.file _) => .ok (files.erase p)
    | none => .ok files

end Files

end TapeMachine
