import RenderBroker.Fault
import RenderBroker.Path

/-!
# File trees

The files below the root directory, as far as a server meets them: directories, plain files,
symbolic links, and sockets with their owner and mode. Looking up a path follows links in front of
its last name, and behind it too if asked to.
-/

namespace RenderBroker

abbrev FileName := List UInt8

/-- Where a file lies: the names that lead to it from the root directory. -/
abbrev Location := List FileName

inductive FileNode where
  | directory
  | file (content : List UInt8)
  /-- A socket that the listener with a number is bound to. -/
  | socket (owner : Nat) (mode : Nat)
  | link (target : Path)
  deriving DecidableEq, Repr

/-- All files, by location; the root directory is always there. -/
structure FileTree where
  nodes : List (Location × FileNode) := []

namespace FileTree

def node? (t : FileTree) (l : Location) : Option FileNode :=
  if l = [] then some .directory else t.nodes.lookup l

def put (t : FileTree) (l : Location) (n : FileNode) : FileTree :=
  ⟨(l, n) :: t.nodes.filter fun e => e.1 != l⟩

def take (t : FileTree) (l : Location) : FileTree :=
  ⟨t.nodes.filter fun e => e.1 != l⟩

theorem node?_root (t : FileTree) : t.node? [] = some .directory :=
  if_pos rfl

theorem node?_take_other (t : FileTree) {l m : Location} (other : m ≠ l) :
    (t.take l).node? m = t.node? m := by
  simp only [node?, take]
  split
  · rfl
  · induction t.nodes with
    | nil => rfl
    | cons e es ih =>
      by_cases gone : e.1 = l
      · rw [List.filter_cons_of_neg (by simpa using gone), ih, List.lookup_cons,
          beq_false_of_ne (gone ▸ other)]
      · rw [List.filter_cons_of_pos (by simpa using gone), List.lookup_cons, List.lookup_cons, ih]

theorem node?_take_same (t : FileTree) {l : Location} (inner : l ≠ []) :
    (t.take l).node? l = none := by
  rw [node?, if_neg inner, take, List.lookup_eq_none_iff]
  intro e he
  have other : e.1 ≠ l := by simpa using (List.mem_filter.mp he).2
  simpa using other.symm

theorem node?_put_other (t : FileTree) {l m : Location} (n : FileNode) (other : m ≠ l) :
    (t.put l n).node? m = t.node? m := by
  rw [← t.node?_take_other other]
  simp only [node?, put, take, List.lookup_cons, beq_false_of_ne other]

theorem node?_put_same (t : FileTree) {l : Location} (inner : l ≠ []) (n : FileNode) :
    (t.put l n).node? l = some n := by
  simp [node?, put, inner]

inductive Target where
  | found (l : Location) (n : FileNode)
  /-- Nothing lies there, but the directory it would lie in does. -/
  | vacant (l : Location)
  deriving DecidableEq, Repr

def maxLinks : Nat :=
  40

def maxName : Nat :=
  255

/-- Goes along the names of a path from a directory. Behind a link it goes on as `jump` says, which is
told the target of the link, the directory it lies in, and the names behind it. -/
def walkWith (t : FileTree) (follow : Bool)
    (jump : Path → Location → List FileName → Except Fault Target) (here : Location) :
    List FileName → Except Fault Target
  | [] => .ok (.found here .directory)
  | name :: names =>
    if Path.isIdle name then walkWith t follow jump here names
    else if name = Path.dotDot then walkWith t follow jump here.dropLast names
    else
      match t.node? (here ++ [name]) with
      | none =>
        if maxName < name.length then .error .nameTooLong
        else if names.all (· == []) then .ok (.vacant (here ++ [name]))
        else .error .notFound
      | some .directory => walkWith t follow jump (here ++ [name]) names
      | some (.link target) =>
        if names = [] ∧ !follow then .ok (.found (here ++ [name]) (.link target))
        else jump target here names
      | some n =>
        if names = [] then .ok (.found (here ++ [name]) n) else .error .notADirectory

/-- Goes along the names of a path from a directory, behind at most the given number of links. -/
def walk (t : FileTree) (follow : Bool) : Nat → Location → List FileName → Except Fault Target
  | 0 => t.walkWith follow fun _ _ _ => .error .linkLoop
  | links + 1 =>
    t.walkWith follow fun target here names =>
      if target.bytes = [] then .error .notFound
      else walk t follow links (if target.isAbsolute then [] else here) (target.segments ++ names)

def maxPath : Nat :=
  4095

/-- Why a path leads nowhere, whatever files there are: a null byte, no byte, or too many. -/
def faultOf? (p : Path) : Option Fault :=
  if p.hasNull then some .invalidInput
  else if p.bytes = [] then some .notFound
  else if maxPath < p.size then some .nameTooLong
  else none

/-- What a path leads to; a relative path starts at the root directory. -/
def find (t : FileTree) (follow : Bool) (p : Path) : Except Fault Target :=
  match faultOf? p with
  | some f => .error f
  | none => t.walk follow maxLinks [] p.segments

/-- What the last name of a path names, which may be a link; slashes behind it do not count. -/
def named (t : FileTree) (p : Path) : Except Fault Target :=
  match faultOf? p with
  | some f => .error f
  | none => t.walk false maxLinks [] p.closed.segments

/-- What lies at the end of a path, behind all links. -/
def follow? (t : FileTree) (p : Path) : Option FileNode :=
  match t.find true p with
  | .ok (.found _ n) => some n
  | _ => none

def look? (t : FileTree) (p : Path) : Option FileNode :=
  match t.find false p with
  | .ok (.found _ n) => some n
  | _ => none

/-- Looks whether something lies at the end of a path. -/
def stat (t : FileTree) (p : Path) : Except Fault Unit :=
  match t.find true p with
  | .error f => .error f
  | .ok (.vacant _) => .error .notFound
  | .ok (.found _ _) => .ok ()

def holds (t : FileTree) (p : Path) : Bool :=
  (t.follow? p).isSome

def holdsDirectory (t : FileTree) (p : Path) : Bool :=
  t.follow? p == some .directory

def makeDirectory (t : FileTree) (p : Path) : Except Fault FileTree :=
  match t.named p with
  | .error f => .error f
  | .ok (.found _ _) => .error .alreadyExists
  | .ok (.vacant l) => .ok (t.put l .directory)

/-- The outcome of a change that leaves the tree as it was when it fails. -/
def orKeep (t : FileTree) : Except Fault FileTree → Except Fault Unit × FileTree
  | .ok changed => (.ok (), changed)
  | .error f => (.error f, t)

def ensureDirectory (t : FileTree) (p : Path) : Except Fault Unit × FileTree :=
  match t.makeDirectory p with
  | .ok t => (.ok (), t)
  | .error f => (if t.holdsDirectory p then .ok () else .error f, t)

/-- Creates the first directory of a list, and before it, as long as one above is missing, those
that follow in the list. -/
def ensureAlong (t : FileTree) : List Path → Except Fault Unit × FileTree
  | [] => (.ok (), t)
  | p :: above =>
    if p.bytes = [] then (.ok (), t)
    else
      match t.makeDirectory p with
      | .error .notFound =>
        match t.ensureAlong above with
        | (.ok (), t) => t.ensureDirectory p
        | failed => failed
      | _ => t.ensureDirectory p

/-- Creates a directory and all that are missing above it. -/
def ensureDirectories (t : FileTree) (p : Path) : Except Fault Unit × FileTree :=
  t.ensureAlong p.upward

/-- Removes what a path names, unless it is a directory, or a slash says that it should be one. -/
def remove (t : FileTree) (p : Path) : Except Fault FileTree :=
  match t.named p with
  | .error f => .error f
  | .ok (.vacant _) => .error .notFound
  | .ok (.found _ .directory) => .error .isADirectory
  | .ok (.found l _) => if p.endsOpen then .error .notADirectory else .ok (t.take l)

/-- Puts something that is no directory at a path where nothing is. -/
def create (t : FileTree) (p : Path) (n : FileNode) (taken : Fault) : Except Fault FileTree :=
  match t.named p with
  | .error f => .error f
  | .ok (.vacant l) => if p.endsOpen then .error .notFound else .ok (t.put l n)
  | .ok (.found _ _) => .error taken

def makeLink (t : FileTree) (p target : Path) : Except Fault FileTree :=
  match faultOf? target with
  | some f => .error f
  | none => t.create p (.link target) .alreadyExists

def bind (t : FileTree) (p : Path) (owner : Nat) : Except Fault FileTree :=
  t.create p (.socket owner 0o755) .addressInUse

def setMode (t : FileTree) (p : Path) (mode : Nat) : Except Fault FileTree :=
  match t.find true p with
  | .error f => .error f
  | .ok (.vacant _) => .error .notFound
  | .ok (.found l (.socket owner _)) => .ok (t.put l (.socket owner mode))
  | .ok (.found _ _) => .ok t

def write (t : FileTree) (p : Path) (content : List UInt8) : Except Fault FileTree :=
  match t.find true p with
  | .error f => .error f
  | .ok (.vacant l) => if p.endsOpen then .error .isADirectory else .ok (t.put l (.file content))
  | .ok (.found _ .directory) => .error .isADirectory
  | .ok (.found _ (.socket _ _)) => .error .other
  | .ok (.found l _) => .ok (t.put l (.file content))

def read (t : FileTree) (p : Path) : Except Fault (List UInt8) :=
  match t.find true p with
  | .error f => .error f
  | .ok (.vacant _) => .error .notFound
  | .ok (.found _ (.file content)) => .ok content
  | .ok (.found _ .directory) => .error .isADirectory
  | .ok (.found _ _) => .error .other

end FileTree

end RenderBroker
