import UiRunner.Files.Tree

/-!
# Operations on files

The operations that the program performs on a tree. Every operation succeeds as a whole or fails
with the reason that the operating system gives, and then changes nothing. A storage says what the
tree does not: where links lead, and what may not be written, for want of a permission or because
it is mounted read-only.
-/
namespace UiRunner.Files

/-- How the operating system treats the places of a tree. -/
structure Storage where
  /-- Where one gets to through a place: there, unless a link stands there; or why nowhere. -/
  leads : Place → Except Problem Place := .ok
  /-- Why a node may not be put at a place, if it may not. -/
  refuses : Place → Node → Option Problem := fun _ _ => none

namespace Storage

open UiRunner.Files.Tree (segments wantsDirectory withoutSlashes maxName maxPath)

/-- No links, and everything is permitted. -/
def plain : Storage := {}

/-- Where one gets to, if links are followed. -/
def reach (s : Storage) (follow : Bool) (place : Place) : Except Problem Place :=
  if follow then s.leads place else .ok place

def isLink (s : Storage) (place : Place) : Bool :=
  match s.leads place with
  | .ok target => target != place
  | .error _ => true

/-- Follows names from a directory. Only the last one need not exist, and whether it is followed
when it is a link is up to the caller. -/
def walk (s : Storage) (t : Tree) (follow : Bool) (at_ : Place) : List String → Except Problem Place
  | [] => .ok at_
  | name :: rest =>
    if name == "." then walk s t follow at_ rest
    else if name == ".." then walk s t follow at_.dropLast rest
    else if name.utf8ByteSize > maxName then .error .nameTooLong
    else if rest.isEmpty then s.reach follow (at_ ++ [name])
    else
      match s.leads (at_ ++ [name]) with
      | .error e => .error e
      | .ok place =>
        match t.get? place with
        | none => .error .notFound
        | some (.file _) => .error .notDirectory
        | some .dir => walk s t follow place rest

/-- The place that a path names. -/
def place (s : Storage) (t : Tree) (follow : Bool) (p : Path) : Except Problem Place :=
  if '\x00' ∈ p.toList then .error .nulInName
  else if p.isEmpty then .error .notFound
  else if p.utf8ByteSize > maxPath then .error .nameTooLong
  else s.walk t follow (t.origin p) (segments p)

/-- The place that a path leads to, and the node there. -/
def locate (s : Storage) (t : Tree) (p : Path) : Except Problem (Place × Option Node) :=
  match s.place t true p with
  | .error e => .error e
  | .ok place =>
    match t.get? place with
    | some (.file c) =>
      if wantsDirectory p then .error .notDirectory else .ok (place, some (.file c))
    | node => .ok (place, node)

def exists_ (s : Storage) (t : Tree) (p : Path) : Bool :=
  match s.locate t p with
  | .ok (_, some _) => true
  | _ => false

def isDirectory (s : Storage) (t : Tree) (p : Path) : Bool :=
  match s.locate t p with
  | .ok (_, some .dir) => true
  | _ => false

def read (s : Storage) (t : Tree) (p : Path) : Except Problem Bytes :=
  match s.locate t p with
  | .error e => .error e
  | .ok (_, none) => .error .notFound
  | .ok (_, some .dir) => .error .isDirectory
  | .ok (_, some (.file c)) => .ok c

def readText (s : Storage) (t : Tree) (p : Path) : Except Problem String :=
  match s.read t p with
  | .error e => .error e
  | .ok c =>
    match Bytes.decode? c with
    | some s => .ok s
    | none => .error .notText

/-- Puts a node at a place unless that is refused. -/
def put (s : Storage) (t : Tree) (place : Place) (node : Node) : Except Problem Tree :=
  match s.refuses place node with
  | some e => .error e
  | none => .ok (t.put place node)

/-- Creates the file or replaces its content. -/
def write (s : Storage) (t : Tree) (p : Path) (content : Bytes) : Except Problem Tree :=
  match s.locate t p with
  | .error e => .error e
  | .ok (_, some .dir) => .error .isDirectory
  | .ok (place, some (.file _)) => s.put t place (.file content)
  | .ok (place, none) =>
    if wantsDirectory p then .error .isDirectory else s.put t place (.file content)

/-- Writes a file if that can be done. -/
def save (s : Storage) (t : Tree) (p : Path) (content : Bytes) : Except Problem Unit × Tree :=
  match s.write t p content with
  | .ok t' => (.ok (), t')
  | .error e => (.error e, t)

/-- Creates an empty file unless there is a file. -/
def touch (s : Storage) (t : Tree) (p : Path) : Except Problem Tree :=
  match s.locate t p with
  | .error e => .error e
  | .ok (_, some .dir) => .error .isDirectory
  | .ok (place, some (.file c)) =>
    match s.refuses place (.file c) with
    | some e => .error e
    | none => .ok t
  | .ok (place, none) => if wantsDirectory p then .error .isDirectory else s.put t place (.file [])

/-- Creates one directory inside an existing one. -/
def makeDirectory (s : Storage) (t : Tree) (p : Path) : Except Problem Tree :=
  match s.place t false (withoutSlashes p) with
  | .error e => .error e
  | .ok place =>
    if s.isLink place || (t.get? place).isSome then .error .alreadyExists
    else s.put t place .dir

/-- Creates a directory and those that lead to it; directories that exist are left alone. When a
later one cannot be created the earlier ones stay. -/
def makeDirectoriesWithin (s : Storage) : Nat → Tree → Path → Except Problem Unit × Tree
  | 0, t, _ => (.error .notFound, t)
  | fuel + 1, t, p =>
    if p.isEmpty then (.ok (), t)
    else
      match s.makeDirectory t p with
      | .ok t' => (.ok (), t')
      | .error .notFound =>
        match p.parent? with
        | none => (.error .notFound, t)
        | some dir =>
          match makeDirectoriesWithin s fuel t dir with
          | (.error e, t') => (.error e, t')
          | (.ok (), t') =>
            match s.makeDirectory t' p with
            | .ok t'' => (.ok (), t'')
            | .error e => (if s.isDirectory t' p then .ok () else .error e, t')
      | .error e => (if s.isDirectory t p then .ok () else .error e, t)

def makeDirectories (s : Storage) (t : Tree) (p : Path) : Except Problem Unit × Tree :=
  s.makeDirectoriesWithin (p.length + 1) t p

/-! ## Writing and reading -/

variable {s : Storage} {t t' : Tree} {follow : Bool} {at_ place : Place} {names : List String}
  {p : Path} {content : Bytes}

/-- What stands somewhere else than in a directory's place does not change the way. -/
theorem walk_put {target : Place} (node : Node) (walked : s.walk t follow at_ names = .ok place)
    (leaf : t.get? target ≠ some .dir) :
    s.walk (t.put target node) follow at_ names = .ok place := by
  have named : target ≠ [] := by
    rintro rfl
    exact leaf rfl
  fun_induction walk s t follow at_ names with
  | case1 at_ => exact walked
  | case2 at_ name rest dot ih =>
    rw [walk, if_pos dot]
    exact ih walked
  | case3 at_ name rest dot up ih =>
    rw [walk, if_neg dot, if_pos up]
    exact ih walked
  | case4 => cases walked
  | case5 at_ name rest dot up short last =>
    rw [walk, if_neg dot, if_neg up, if_neg short, if_pos last]
    exact walked
  | case6 => cases walked
  | case7 => cases walked
  | case8 => cases walked
  | case9 at_ name rest dot up short last next led dir ih =>
    have other : next ≠ target := by
      rintro rfl
      exact leaf dir
    have kept : (t.put target node).get? next = some .dir := by
      rw [Tree.get?_put t target next node named, if_neg other, dir]
    rw [walk, if_neg dot, if_neg up, if_neg short, if_neg last]
    simpa only [led, kept] using ih walked

/-- What the operating system takes for a path. -/
structure Nameable (p : Path) : Prop where
  noNul : '\x00' ∉ p.toList
  some_ : ¬ p.isEmpty
  fits : ¬ p.utf8ByteSize > maxPath

theorem place_eq_ok_iff :
    s.place t follow p = .ok place ↔
      Nameable p ∧ s.walk t follow (t.origin p) (segments p) = .ok place := by
  rw [Storage.place]
  constructor
  · intro named
    split at named
    · cases named
    split at named
    · cases named
    split at named
    · cases named
    exact ⟨⟨‹_›, ‹_›, ‹_›⟩, named⟩
  · rintro ⟨⟨noNul, some_, fits⟩, walked⟩
    rw [if_neg noNul, if_neg some_, if_neg fits, walked]

/-- A path finds a place when the way leads there, and no file when it ends in a slash. -/
theorem locate_eq_ok_iff {node : Option Node} :
    s.locate t p = .ok (place, node) ↔ s.place t true p = .ok place ∧ t.get? place = node ∧
      (wantsDirectory p → ∀ c, node ≠ some (.file c)) := by
  rw [locate]
  split
  · simp [*]
  · simp only [*, Except.ok.injEq]
    grind

theorem put_eq_ok_iff {node : Node} : s.put t place node = .ok t' ↔
    s.refuses place node = none ∧ t' = t.put place node := by
  rw [put]
  cases s.refuses place node <;> simp [eq_comm]

theorem write_cases (written : s.write t p content = .ok t') :
    ∃ place node, s.locate t p = .ok (place, node) ∧ node ≠ some .dir ∧ wantsDirectory p = false ∧
      t' = t.put place (.file content) := by
  unfold write at written
  split at written
  · cases written
  · cases written
  · rename_i place old located
    obtain ⟨-, -, noSlash⟩ := locate_eq_ok_iff.1 located
    exact ⟨place, _, located, by simp, by simpa using noSlash, (put_eq_ok_iff.1 written).2⟩
  · rename_i place located
    split at written
    · cases written
    · rename_i file
      exact ⟨place, _, located, by simp, by simpa using file, (put_eq_ok_iff.1 written).2⟩

theorem save_eq_ok_iff :
    s.save t p content = (.ok (), t') ↔ s.write t p content = .ok t' := by
  rw [save]
  cases s.write t p content <;> simp

theorem save_eq_error_iff {e : Problem} :
    s.save t p content = (.error e, t') ↔ s.write t p content = .error e ∧ t' = t := by
  rw [save]
  cases s.write t p content <;> simp [eq_comm]

/-- What was written is found where it was written. -/
theorem locate_write (written : s.write t p content = .ok t') :
    ∃ place, s.locate t' p = .ok (place, some (.file content)) := by
  obtain ⟨place, node, located, leaf, file, rfl⟩ := write_cases written
  obtain ⟨named, rfl, -⟩ := locate_eq_ok_iff.1 located
  obtain ⟨nameable, walked⟩ := place_eq_ok_iff.1 named
  have inside : place ≠ [] := by
    rintro rfl
    exact leaf rfl
  refine ⟨place, locate_eq_ok_iff.2 ⟨place_eq_ok_iff.2 ⟨nameable, walk_put _ walked leaf⟩, ?_,
    by simp [file]⟩⟩
  rw [Tree.get?_put t place place _ inside, if_pos rfl]

theorem exists_write (written : s.write t p content = .ok t') : s.exists_ t' p = true := by
  obtain ⟨place, located⟩ := locate_write written
  rw [exists_, located]

theorem read_write (written : s.write t p content = .ok t') : s.read t' p = .ok content := by
  obtain ⟨place, located⟩ := locate_write written
  rw [read, located]

theorem readText_write {text : String} (written : s.write t p (Bytes.ofText text) = .ok t') :
    s.readText t' p = .ok text := by
  rw [readText, read_write written]
  simp [Bytes.decode?_ofText]

end Storage

/-! ## Plain trees -/

namespace Tree

abbrev locate (t : Tree) (p : Path) : Except Problem (Place × Option Node) :=
  Storage.plain.locate t p

abbrev exists_ (t : Tree) (p : Path) : Bool := Storage.plain.exists_ t p

abbrev readText (t : Tree) (p : Path) : Except Problem String := Storage.plain.readText t p

abbrev read (t : Tree) (p : Path) : Except Problem Bytes := Storage.plain.read t p

abbrev write (t : Tree) (p : Path) (content : Bytes) : Except Problem Tree :=
  Storage.plain.write t p content

abbrev touch (t : Tree) (p : Path) : Except Problem Tree := Storage.plain.touch t p

abbrev makeDirectories (t : Tree) (p : Path) : Except Problem Unit × Tree :=
  Storage.plain.makeDirectories t p

end Tree

end UiRunner.Files
