import HotComponents.FilePath
import HotComponents.Text.Octets

/-!
# The disk

The files of the host that a session reads: one tree of directories, files and links, and the
directory in which the session works. An absolute path is walked from the root and any other one
from the working directory; a trailing slash asks for a directory, and a path that is too long
leads nowhere. Only files whose octets are text can be read.

* `node?_put`, `node?_write`: what is written stands at its place, below directories, and all else
  stays;
* `read_write`: a file that was written under an absolute path is read under it.
-/

namespace HotComponents

/-- A place of the tree: the names that lead to it from the root. -/
abbrev Place := List (List Char)

/-- What stands at a place. -/
inductive Node where
  | file (octets : List UInt8)
  | directory
  /-- A link to another place. -/
  | link (there : Place)
deriving DecidableEq, Repr

/-- The host's files: what stands at which place. -/
structure Disk where
  /-- Where a path begins that does not begin at the root. -/
  workingDirectory : Place := ["work".toList]
  /-- The entries of the tree; a process finds a link to its working directory among them. -/
  nodes : List (Place × Node) :=
    [(["proc".toList, "self".toList, "cwd".toList], .link workingDirectory),
      (["proc".toList, "self".toList], .directory), (["proc".toList], .directory)]
deriving Repr

namespace Disk

/-! ## The tree -/

/-- What stands at a place. The root, the working directory and all between them are always
directories. -/
def node? (d : Disk) (place : Place) : Option Node :=
  if place.isPrefixOf d.workingDirectory then some .directory
  else (d.nodes.find? fun entry => entry.1 = place).map Prod.snd

/-- The tree with a node at a place. -/
def put (d : Disk) (place : Place) (node : Node) : Disk :=
  { d with nodes := (place, node) :: d.nodes.filter fun entry => entry.1 ≠ place }

/-- All beginnings of a place but the root, shortest first. -/
def ancestors (place : Place) : List Place :=
  (List.range place.length).map fun n => place.take (n + 1)

/-- The tree with directories at those of the places at which nothing stands. -/
def addDirectories (d : Disk) (places : List Place) : Disk :=
  places.foldl (fun d above => if (d.node? above).isSome then d else d.put above .directory) d

@[simp]
theorem node?_root (d : Disk) : d.node? [] = some .directory := by
  simp [node?]

theorem node?_put {d : Disk} {here place : Place} {node : Node} :
    (d.put here node).node? place =
      if place.isPrefixOf d.workingDirectory then some .directory
      else if place = here then some node else d.node? place := by
  unfold node? put
  by_cases hworking : place.isPrefixOf d.workingDirectory
  · rw [if_pos hworking, if_pos hworking]
  · rw [if_neg hworking, if_neg hworking, if_neg hworking, List.find?_cons]
    by_cases hplace : here = place
    · simp [hplace]
    · rw [if_neg (Ne.symm hplace)]
      simp only [hplace, decide_false, List.find?_filter]
      -- The entries that were taken out are for the place that was put.
      congr 2
      funext entry
      by_cases hentry : entry.1 = place
      · simp [hentry, Ne.symm hplace]
      · simp [hentry]

/-- Nothing that stands is replaced by a directory. -/
theorem node?_addDirectories {d : Disk} {places : List Place} {place : Place} :
    (d.addDirectories places).node? place =
      if d.node? place = none ∧ place ∈ places then some .directory else d.node? place := by
  unfold addDirectories
  induction places generalizing d with
  | nil => simp
  | cons above places ih =>
    rw [List.foldl_cons, ih]
    cases habove : d.node? above with
    | some node =>
      by_cases heq : place = above
      · simp [heq, habove]
      · simp [heq]
    | none =>
      have hworking : ¬ above.isPrefixOf d.workingDirectory := by
        intro h
        simp [node?, h] at habove
      by_cases heq : place = above
      · subst heq
        simp [node?_put, hworking, habove]
      · -- What is put above says nothing of another place.
        have hput : (d.put above .directory).node? place = d.node? place := by
          rw [node?_put, if_neg heq]
          split
          · next h => simp [node?, h]
          · rfl
        simp [hput, heq]

@[simp]
theorem addDirectories_workingDirectory (d : Disk) (places : List Place) :
    (d.addDirectories places).workingDirectory = d.workingDirectory := by
  unfold addDirectories
  induction places generalizing d with
  | nil => rfl
  | cons above places ih =>
    rw [List.foldl_cons, ih]
    split <;> rfl

theorem mem_ancestors {place above : Place} :
    above ∈ ancestors place ↔ above ≠ [] ∧ above <+: place := by
  unfold ancestors
  rw [List.mem_map]
  constructor
  · rintro ⟨n, hn, rfl⟩
    have hlt := List.mem_range.1 hn
    refine ⟨fun h => ?_, List.take_prefix _ _⟩
    rw [List.take_eq_nil_iff] at h
    rcases h with h | h
    · omega
    · simp [h] at hlt
  · rintro ⟨hne, hprefix⟩
    have hpos := List.length_pos_iff.2 hne
    -- A nonempty prefix is a take of its own length, which the range counts from nought.
    refine ⟨above.length - 1, List.mem_range.2 ?_, ?_⟩
    · have := hprefix.length_le
      omega
    · rw [Nat.sub_add_cancel hpos]
      exact (List.prefix_iff_eq_take.1 hprefix).symm

theorem prefix_dropLast_iff {place above : Place} (hne : above ≠ place) :
    above <+: place.dropLast ↔ above <+: place := by
  refine ⟨fun h => h.trans (List.dropLast_prefix place), ?_⟩
  rintro ⟨rest, rfl⟩
  have hrest : rest ≠ [] := fun h => hne (by simp [h])
  rw [List.dropLast_append_of_ne_nil hrest]
  exact List.prefix_append above rest.dropLast

/-! ## Paths -/

/-- The parts of a path between its slashes. -/
def parts (path : FilePath) : List (List Char) := Text.splitOn '/' path.text.toList

/-- Where the walk of a path begins. -/
def start (d : Disk) (path : FilePath) : Place :=
  if path.isAbsolute then [] else d.workingDirectory

/-- The place that one part leads to: a blank part and a `.` stay, `..` goes up, but not above the
root, and a name goes down, and on to where a link leads. -/
def enter (d : Disk) (here : Place) (part : List Char) : Place :=
  if part = [] ∨ part = ['.'] then here
  else if part = ['.', '.'] then here.dropLast
  else
    match d.node? (here ++ [part]) with
    | some (.link there) => there
    | _ => here ++ [part]

/-- Where a walk of parts ends. Each part is looked up in a directory. -/
def walk (d : Disk) (here : Place) : List (List Char) → Option Place
  | [] => some here
  | part :: rest =>
    if d.node? here = some .directory then walk d (d.enter here part) rest else none

/-- The place that a path names, whether or not anything stands there or above it. -/
def place (d : Disk) (path : FilePath) : Place := (parts path).foldl d.enter (d.start path)

/-! ## Operations -/

/-- The tree with a directory under a path, and directories above it. -/
def makeDirectory (d : Disk) (path : FilePath) : Disk :=
  d.addDirectories (ancestors (d.place path))

/-- The tree with a file under a path, and directories above it. A directory stays one. -/
def write (d : Disk) (path : FilePath) (octets : List UInt8) : Disk :=
  if d.node? (d.place path) = some .directory then d
  else (d.addDirectories (ancestors (d.place path).dropLast)).put (d.place path) (.file octets)

/-- The tree without what stands under a path and below it. -/
def delete (d : Disk) (path : FilePath) : Disk :=
  { d with nodes := d.nodes.filter fun entry => !(d.place path).isPrefixOf entry.1 }

/-- The octets that a path may have. -/
def longestPath : Nat := 4095

/-- The text of a file, if there is one under the path and its octets are text. -/
def read (d : Disk) (path : FilePath) : Option String := do
  guard (path.text.utf8ByteSize ≤ longestPath)
  match d.node? (← d.walk (d.start path) (parts path)) with
  | some (.file octets) => return String.ofList (← Text.decode? octets)
  | _ => none

/-! ## Reading what was written -/

/-- A part that goes down to the entry of its name. -/
def IsName (part : List Char) : Prop := FilePath.Component.ofPart? part = some (.name part)

theorem enter_blank (d : Disk) (here : Place) : d.enter here [] = here := by
  simp [enter]

theorem enter_of_isName {d : Disk} {here : Place} {name : List Char} (hname : IsName name)
    (hlink : ∀ there, d.node? (here ++ [name]) ≠ some (.link there)) :
    d.enter here name = here ++ [name] := by
  have hkind : ¬ (name = [] ∨ name = ['.']) ∧ name ≠ ['.', '.'] := by
    unfold IsName FilePath.Component.ofPart? at hname
    split at hname
    · cases hname
    · next h => exact ⟨h, fun hup => by simp [hup] at hname⟩
  unfold enter
  rw [if_neg hkind.1, if_neg hkind.2]
  split
  · next there h => exact absurd h (hlink there)
  · rfl

/-- Names are entered one after the other where no link stands at or above the last of them. -/
theorem foldl_enter_of_isName {d : Disk} {here names : Place} (hnames : ∀ name ∈ names, IsName name)
    (hlink : ∀ way, way <+: names → ∀ there, d.node? (here ++ way) ≠ some (.link there)) :
    names.foldl d.enter here = here ++ names := by
  induction names generalizing here with
  | nil => simp
  | cons name names ih =>
    have henter := enter_of_isName (hnames name (by simp))
      (hlink [name] (List.prefix_append [name] names))
    -- The first name leads one down, and none of the rest meets a link either.
    rw [List.foldl_cons, henter, ih fun n hn => hnames n (List.mem_cons_of_mem name hn)]
    · simp
    · intro way hway
      simpa using hlink (name :: way) (List.cons_prefix_cons.2 ⟨rfl, hway⟩)

/-- The walk of names is the place below where it began if directories stand above that place and
no link stands at it. -/
theorem walk_of_isName {d : Disk} {here names : Place} (hnames : ∀ name ∈ names, IsName name)
    (habove : ∀ way, way <+: names → way ≠ names → d.node? (here ++ way) = some .directory)
    (hlink : ∀ there, d.node? (here ++ names) ≠ some (.link there)) :
    d.walk here names = some (here ++ names) := by
  induction names generalizing here with
  | nil => simp [walk]
  | cons name names ih =>
    have hhere : d.node? here = some .directory := by
      simpa using habove [] List.nil_prefix (by simp)
    have henter : d.enter here name = here ++ [name] := by
      refine enter_of_isName (hnames name (by simp)) fun there => ?_
      -- the first name is the last one as well, or a directory stands at it
      by_cases hlast : names = []
      · simpa [hlast] using hlink there
      · have hfirst := habove [name] (List.prefix_append [name] names) (by simp [Ne.symm hlast])
        simp [hfirst]
    rw [walk, if_pos hhere, henter, ih fun n hn => hnames n (List.mem_cons_of_mem name hn)]
    · simp
    · intro way hway hne
      simpa using habove (name :: way) (List.cons_prefix_cons.2 ⟨rfl, hway⟩) (by simp [hne])
    · simpa using hlink

/-- A written file stands at its place and directories stand above it; nothing else changes. -/
theorem node?_write {d : Disk} {path : FilePath} {octets : List UInt8} {place : Place}
    (hfree : d.node? (d.place path) ≠ some .directory) :
    (d.write path octets).node? place =
      if place = d.place path then some (.file octets)
      else if d.node? place = none ∧ place <+: d.place path then some .directory
      else d.node? place := by
  rw [write, if_neg hfree, node?_put, addDirectories_workingDirectory, node?_addDirectories]
  by_cases hworking : place.isPrefixOf d.workingDirectory
  · have hdirectory : d.node? place = some .directory := by simp [node?, hworking]
    have hne : place ≠ d.place path := fun h => hfree (h ▸ hdirectory)
    simp [hworking, hdirectory, hne]
  · rw [if_neg hworking]
    by_cases hplace : place = d.place path
    · simp [hplace]
    · rw [if_neg hplace, if_neg hplace]
      -- a place where nothing stands is not the root, so it is above if it begins the path's place
      have hiff : (d.node? place = none ∧ place ∈ ancestors (d.place path).dropLast) ↔
          (d.node? place = none ∧ place <+: d.place path) := by
        refine and_congr_right fun hnone => ?_
        have hne : place ≠ [] := fun h => by simp [h] at hnone
        rw [mem_ancestors, and_iff_right hne, prefix_dropLast_iff hplace]
      simp only [hiff]

/-- A file that is written under an absolute path of names is read under it, if nothing but
directories stand above it and neither a directory nor a link stands at it. -/
theorem read_write {d : Disk} {path : FilePath} {octets : List UInt8} {place : Place}
    (hlength : path.text.utf8ByteSize ≤ longestPath) (habsolute : path.isAbsolute)
    (hparts : parts path = [] :: place) (hnames : ∀ name ∈ place, IsName name)
    (habove : ∀ above, above <+: place → above ≠ place →
      d.node? above = none ∨ d.node? above = some .directory)
    (hfree : d.node? place ≠ some .directory)
    (hlink : ∀ there, d.node? place ≠ some (.link there)) :
    (d.write path octets).read path = (Text.decode? octets).map String.ofList := by
  -- Neither the directories above nor the place itself are links, so the path leads there.
  have hplace : d.place path = place := by
    rw [Disk.place, hparts, start, if_pos habsolute, List.foldl_cons, enter_blank]
    refine foldl_enter_of_isName hnames fun way hway there => ?_
    by_cases hend : way = place
    · simpa [hend] using hlink there
    · rcases habove way hway hend with h | h <;> simp [h]
  have hnode : ∀ p, (d.write path octets).node? p =
      if p = place then some (.file octets)
      else if d.node? p = none ∧ p <+: place then some .directory else d.node? p := fun p => by
    rw [node?_write (hplace ▸ hfree), hplace]
  -- The write has made the directories that were missing, so the walk meets no gap.
  have hwalk : (d.write path octets).walk ((d.write path octets).start path) (parts path) =
      some place := by
    rw [hparts, start, if_pos habsolute, walk, if_pos (node?_root _), enter_blank]
    refine walk_of_isName hnames (fun way hway hend => ?_) fun there => by simp [hnode]
    rw [List.nil_append, hnode, if_neg hend]
    rcases habove way hway hend with h | h <;> simp [h, hway]
  have hshort : (guard (path.text.utf8ByteSize ≤ longestPath) : Option Unit) = some () :=
    if_pos hlength
  unfold read
  rw [hshort]
  cases hdecode : Text.decode? octets <;> simp [hwalk, hnode, hdecode]

end Disk

end HotComponents
