import HotComponents.Key

/-!
# Who depends on what

Two indices over the same edges: from a record's key to the files its output depends on, and from a
file to the keys of the records that depend on it. A record never depends on its own file here.

* `Graph.deps_record_self`: recording a key gives it exactly the listed files, its own left out;
* `Graph.dependents_clear`: nothing depends on anything in a cleared graph.
-/

namespace HotComponents

/-- The edges between records and files, indexed both ways. -/
structure Graph where
  /-- By record: the files it depends on. -/
  forward : List (Key × List FilePath) := []
  /-- By file: the records that depend on it. -/
  reverse : List (FilePath × List Key) := []
deriving DecidableEq, Repr

namespace Graph

/-- Paths without repetition, the first of each kept. -/
def distinct : List FilePath → List FilePath
  | [] => []
  | p :: rest => p :: (distinct rest).filter fun q => !q.same p

/-- The files of a key. -/
def deps (g : Graph) (source : Key) : List FilePath :=
  ((g.forward.find? fun edge => edge.1.same source).map Prod.snd).getD []

/-- The keys of a file, in no particular order. -/
def sources (g : Graph) (file : FilePath) : List Key :=
  ((g.reverse.find? fun edge => edge.1.same file).map Prod.snd).getD []

/-- An index with a key put under one more file. -/
def addSource (source : Key) (file : FilePath) :
    List (FilePath × List Key) → List (FilePath × List Key)
  | [] => [(file, [source])]
  | (f, keys) :: rest =>
    if f.same file then
      (f, if keys.any (·.same source) then keys else keys ++ [source]) :: rest
    else (f, keys) :: addSource source file rest

/-- An index with a key taken away from one file, and the file with its last key. -/
def dropSource (source : Key) (file : FilePath) (index : List (FilePath × List Key)) :
    List (FilePath × List Key) :=
  index.filterMap fun (f, keys) =>
    if f.same file then
      let others := keys.filter fun k => !k.same source
      if others.isEmpty then none else some (f, others)
    else some (f, keys)

/-- The graph without a key. -/
def remove (g : Graph) (source : Key) : Graph where
  forward := g.forward.filter fun edge => !edge.1.same source
  reverse := (g.deps source).foldl (fun index file => dropSource source file index) g.reverse

/-- The graph in which a key depends on exactly the listed files, its own left out. -/
def record (g : Graph) (source : Key) (files : List FilePath) : Graph :=
  let g := g.remove source
  let others := distinct (files.filter fun f => !f.same source.file)
  { forward := (source, others) :: g.forward
    reverse := others.foldl (fun index file => addSource source file index) g.reverse }

/-- The keys of the records that depend on a file, ascending. -/
def dependents (g : Graph) (file : FilePath) : List Key :=
  (g.sources file).mergeSort Key.notAfter

/-- The graph without edges. -/
def clear (_ : Graph) : Graph := {}

theorem deps_record_self (g : Graph) (source : Key) (files : List FilePath) :
    (g.record source files).deps source = distinct (files.filter fun f => !f.same source.file) := by
  simp [record, deps, Key.same]

theorem dependents_clear (g : Graph) (file : FilePath) : g.clear.dependents file = [] := by
  simp [clear, dependents, sources]

end Graph

end HotComponents
