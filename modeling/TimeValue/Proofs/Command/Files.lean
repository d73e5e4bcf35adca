import TimeValue.Command.FileTree
import TimeValue.Command.Run

/-!
# What the answer to a command line depends on

A run asks its world for files and for variables.  It asks for the files that its command line names
and for the variables that give settings, and for nothing else: worlds that agree on those give the
same answer, whatever else is done when a file is read.

Over a tree of files this says which files matter.  A path is followed name by name, and a name that
does not occur in it is never looked up.  So a new file leaves every answer as it was unless its
name occurs in a path of the command line.

## Main definitions

* `Request.paths`, `pathsOf` — the files that a request and a command line name.
* `World.AgreesOn` — worlds with the same files at some paths, and the same settings.
* `FileTree.insert` — a tree with one more file.
* `FileTree.world` — the world around a run over a tree.

## Main results

* `run_eq_of_agreesOn` — **the answer depends on the files named and on the variables only.**
* `FileTree.read_insert_self` — a new file is read by its name.
* `FileTree.run_insert` — **a file that is not named does not change the answer.**
-/

namespace TimeValue

/-- Settings depend on the known variables only. -/
theorem Layer.ofVariables_congr {lookup lookup' : String → Option String}
    (h : ∀ v ∈ Variable.all, lookup v.name = lookup' v.name) :
    ofVariables lookup = ofVariables lookup' := by
  have hlookup (v : Variable) : lookup v.name = lookup' v.name := h v v.mem_all
  simp only [ofVariables, Variable.decimal?, Variable.whole?, hlookup]

namespace Command

/-! ### The files that are named -/

/-- The path of the file that a task reads, if it reads one. -/
def Task.path? : Task → Option String
  | .evaluate _ file => file
  | .compound _ _ _ => none
  | .irr source _ => source.table
  | .npv _ source => source.table

/-- The paths of the files that a request reads. -/
def Request.paths (request : Request) : List String :=
  request.settings.toList ++ request.task.path?.toList

/-- The paths of the files that a command line names. -/
def pathsOf (arguments : List String) : List String :=
  match Request.ofArguments arguments with
  | .ok request => request.paths
  | .error _ => []

section Worlds

variable {m : Type → Type} {world world' : World m} {paths : List String}

/-- The worlds have the same files at the paths, and the same values of the known variables. -/
structure World.AgreesOn (paths : List String) (world world' : World m) : Prop where
  read : ∀ path ∈ paths, world.read path = world'.read path
  lookup : ∀ v ∈ Variable.all, world.lookup v.name = world'.lookup v.name

variable [Monad m]

theorem readFile_congr {path : String} (h : world.read path = world'.read path)
    (bytes : Reading → Except FileFault (List UInt8)) (failure : String → Failure) :
    readFile world bytes failure path = readFile world' bytes failure path := by
  rw [readFile, readFile, h]

theorem loadSettings_congr {settings : Option String}
    (h : World.AgreesOn settings.toList world world') :
    loadSettings world settings = loadSettings world' settings := by
  have hlookup (s : Settings) : s.withVariables world.lookup = s.withVariables world'.lookup := by
    rw [Settings.withVariables, Settings.withVariables, Layer.ofVariables_congr h.lookup]
  cases settings with
  | none => simp only [loadSettings, hlookup]
  | some path =>
    have hread := h.read path (by simp)
    simp only [loadSettings, hlookup, readFile_congr hread]

theorem loadFlows_congr {source : FlowSource}
    (h : ∀ path ∈ source.table.toList, world.read path = world'.read path) :
    loadFlows world source = loadFlows world' source := by
  unfold loadFlows
  cases htable : source.table with
  | none => rfl
  | some path => simp only [readFile_congr (h path (by simp [htable]))]

theorem loadFormulas_congr {file : Option String}
    (h : ∀ path ∈ file.toList, world.read path = world'.read path) :
    loadFormulas world file = loadFormulas world' file := by
  cases file with
  | none => rfl
  | some path => simp only [loadFormulas, readFile_congr (h path (by simp))]

theorem performTask_congr (settings : Settings) {task : Task}
    (h : ∀ path ∈ task.path?.toList, world.read path = world'.read path) :
    performTask world settings task = performTask world' settings task := by
  cases task with
  | evaluate formulas file =>
    have hformulas : loadFormulas world file = loadFormulas world' file := loadFormulas_congr h
    simp only [performTask, hformulas]
  | compound asked problem series => rfl
  | irr source series => simp only [performTask, loadFlows_congr h]
  | npv percent source => simp only [performTask, loadFlows_congr h]

theorem perform_congr {request : Request} (h : World.AgreesOn request.paths world world') :
    perform world request = perform world' request := by
  have hsettings : World.AgreesOn request.settings.toList world world' :=
    ⟨fun path hpath => h.read path (List.mem_append_left _ hpath), h.lookup⟩
  have htask (settings : Settings) :
      performTask world settings request.task = performTask world' settings request.task :=
    performTask_congr settings fun path hpath => h.read path (List.mem_append_right _ hpath)
  simp only [perform, loadSettings_congr hsettings, htask]

/-- **The answer depends on the files that the command line names and on the variables that give
settings**, and on nothing else in the world. -/
theorem run_eq_of_agreesOn {arguments : List String}
    (h : World.AgreesOn (pathsOf arguments) world world') :
    run world arguments = run world' arguments := by
  unfold run
  unfold pathsOf at h
  cases hrequest : Request.ofArguments arguments with
  | error ending => rfl
  | ok request =>
    rw [hrequest] at h
    simp only [perform_congr h]

end Worlds

/-! ### One more file -/

namespace FileTree

variable {tree : FileTree} {place dir working : List String} {name : String}
  {content : List UInt8}

/-- The tree with one more file. -/
def insert (tree : FileTree) (place : List String) (content : List UInt8) : FileTree :=
  { tree with files := (place, content) :: tree.files }

/-- The place is on the way to something known. -/
def Leads (tree : FileTree) (place : List String) : Prop :=
  ∃ known ∈ [] :: tree.directories ++ tree.files.map (·.1), place <+: known

theorem Leads.above {upper : List String} (h : tree.Leads place) (hupper : upper <+: place) :
    tree.Leads upper := by
  obtain ⟨known, hknown, hplace⟩ := h
  exact ⟨known, hknown, hupper.trans hplace⟩

/-- What leads to a new file leads to its directory already. -/
theorem leads_insert_iff (hdir : tree.Leads dir) (hne : place ≠ dir ++ [name]) :
    (tree.insert (dir ++ [name]) content).Leads place ↔ tree.Leads place := by
  simp only [Leads, insert, List.map_cons, List.mem_append, List.mem_cons]
  constructor
  · rintro ⟨known, hknown | rfl | hknown, hplace⟩
    · exact ⟨known, .inl hknown, hplace⟩
    · rcases List.prefix_concat_iff.1 hplace with rfl | hupper
      · exact absurd rfl hne
      · obtain ⟨known, hknown, hplace⟩ := hdir.above hupper
        simp only [List.mem_append, List.mem_cons] at hknown
        exact ⟨known, hknown, hplace⟩
    · exact ⟨known, .inr hknown, hplace⟩
  · rintro ⟨known, hknown, hplace⟩
    exact ⟨known, hknown.imp_right .inr, hplace⟩

/-- What stands at a place is the file there, if there is one, and a directory on the way to
others. -/
theorem entry?_eq [Decidable (tree.Leads place)] :
    tree.entry? place =
      ((tree.files.lookup place).map Entry.file).or
        (if tree.Leads place then some .directory else none) := by
  have hleads : ([] :: tree.directories ++ tree.files.map (·.1)).any place.isPrefixOf = true ↔
      tree.Leads place := by
    simp only [List.any_eq_true, List.isPrefixOf_iff_prefix, Leads]
  unfold entry?
  cases tree.files.lookup place with
  | some content => rfl
  | none => exact ite_congr (propext hleads) (fun _ => rfl) fun _ => rfl

theorem leads_of_directory (h : tree.entry? place = some .directory) : tree.Leads place := by
  classical
  rw [entry?_eq] at h
  cases hlookup : tree.files.lookup place with
  | some content => simp [hlookup] at h
  | none => simpa [hlookup] using h

theorem not_leads_of_absent (h : tree.entry? place = none) : ¬ tree.Leads place := by
  classical
  rw [entry?_eq, Option.or_eq_none_iff] at h
  simpa using h.2

/-- A new file in a directory changes nothing at any other place. -/
theorem entry?_insert_of_ne (hdir : tree.entry? dir = some .directory)
    (hne : place ≠ dir ++ [name]) :
    entry? (tree.insert (dir ++ [name]) content) place = tree.entry? place := by
  have hlookup : (tree.insert (dir ++ [name]) content).files.lookup place =
      tree.files.lookup place := by
    rw [insert, List.lookup_cons, beq_false_of_ne hne]
  have hleads : (tree.insert (dir ++ [name]) content).Leads place ↔ tree.Leads place :=
    leads_insert_iff (leads_of_directory hdir) hne
  classical
  rw [entry?_eq, entry?_eq, hlookup]
  simp only [hleads]

/-- Names that do not lead to a new file lead where they led. -/
theorem follow_insert_of_notMem (hdir : tree.entry? dir = some .directory) {names : List String}
    (hnames : name ∉ names) (hplace : ¬ dir ++ [name] <+: place) :
    (tree.insert (dir ++ [name]) content).follow place names = tree.follow place names := by
  have hentry {place : List String} (hplace : ¬ dir ++ [name] <+: place) :
      entry? (tree.insert (dir ++ [name]) content) place = tree.entry? place :=
    entry?_insert_of_ne hdir fun heq => hplace (heq ▸ List.prefix_refl _)
  -- over the names: no place on the way is the new file or below it, since only its name leads
  -- there
  induction names generalizing place with
  | nil => rw [follow, follow, hentry hplace]
  | cons first names ih =>
    obtain ⟨hfirst, hnames⟩ := List.ne_and_not_mem_of_not_mem_cons hnames
    have hup : ¬ dir ++ [name] <+: place.dropLast := fun h =>
      hplace (h.trans (List.dropLast_prefix place))
    have hdown : ¬ dir ++ [name] <+: place ++ [first] := by
      intro h
      rcases List.prefix_concat_iff.1 h with heq | h
      · obtain ⟨-, hsame⟩ := List.append_inj' heq rfl
        exact hfirst (List.cons.inj hsame).1
      · exact hplace h
    simp only [follow, hentry hplace, ih hnames hplace, ih hnames hup, ih hnames hdown]

/-- A path in which the name of a new file does not occur is read as before. -/
theorem read_insert_of_notMem (hdir : tree.entry? dir = some .directory)
    (hnew : tree.entry? (dir ++ [name]) = none) (hworking : tree.entry? working = some .directory)
    {path : String} (hpath : name ∉ namesOf path) :
    (tree.insert (dir ++ [name]) content).read working path = tree.read working path := by
  have hstart : ¬ dir ++ [name] <+: (if path.toList.head? = some '/' then [] else working) := by
    split
    · simp
    · exact fun h => not_leads_of_absent hnew ((leads_of_directory hworking).above h)
  simp only [read, follow_insert_of_notMem hdir hpath hstart]

/-- The name may be that of a file. -/
structure IsName (name : String) : Prop where
  noSlash : '/' ∉ name.toList
  ne_empty : name ≠ ""
  ne_dot : name ≠ "."
  ne_dots : name ≠ ".."
  size_le : name.utf8ByteSize ≤ longestName

theorem IsName.namesOf_eq (h : IsName name) : namesOf name = [name] := by
  have hsplit : name.toList.splitOn '/' = [name.toList] := by
    simpa using List.splitOn_eq_singleton h.noSlash
  rw [namesOf, hsplit, List.map_singleton, String.ofList_toList]

/-- A new file is read by its name in its directory. -/
theorem read_insert_self (hdir : tree.entry? dir = some .directory) (hname : IsName name) :
    (tree.insert (dir ++ [name]) content).read dir name = .bytes content := by
  have hentry : entry? (tree.insert (dir ++ [name]) content) dir = some .directory := by
    rw [entry?_insert_of_ne hdir (by simp), hdir]
  have hsize : ¬ longestPath < name.utf8ByteSize :=
    Nat.not_lt.2 (Nat.le_trans hname.size_le (by decide))
  have hhead : name.toList.head? ≠ some '/' := fun h => hname.noSlash (List.mem_of_head? h)
  have hself : entry? (tree.insert (dir ++ [name]) content) (dir ++ [name]) =
      some (.file content) := by
    classical
    rw [entry?_eq, insert, List.lookup_cons_self]
    rfl
  simp only [read, hname.ne_empty, hsize, hhead, hname.namesOf_eq, follow, hentry, hname.ne_dot,
    hname.ne_dots, Nat.not_lt.2 hname.size_le, hself, or_self, if_false]
  rfl

/-- The world around a run over a tree. -/
def world (tree : FileTree) (working : List String) (lookup : String → Option String) : World Id :=
  ⟨tree.read working, lookup⟩

/-- **A file that is not named does not change the answer.**  If the name of a new file does not
occur in any path of the command line, the answer is the one without it. -/
theorem run_insert (hdir : tree.entry? dir = some .directory)
    (hnew : tree.entry? (dir ++ [name]) = none) (hworking : tree.entry? working = some .directory)
    (lookup : String → Option String) {arguments : List String}
    (hnames : ∀ path ∈ pathsOf arguments, name ∉ namesOf path) :
    run ((tree.insert (dir ++ [name]) content).world working lookup) arguments =
      run (tree.world working lookup) arguments :=
  run_eq_of_agreesOn
    ⟨fun path hpath => read_insert_of_notMem hdir hnew hworking (hnames path hpath),
      fun _ _ => rfl⟩

-- a note beside the table that is read
example (lookup : String → Option String) (content : List UInt8) :
    let tree : FileTree := ⟨[(["work", "flows"], [])], []⟩
    run ((tree.insert ["work", "note"] content).world ["work"] lookup) ["irr", "--csv", "flows"] =
      run (tree.world ["work"] lookup) ["irr", "--csv", "flows"] := by
  intro tree
  have hdir : tree.entry? ["work"] = some .directory := by decide
  have hnew : tree.entry? (["work"] ++ ["note"]) = none := by decide
  exact run_insert hdir hnew hdir lookup (by decide +kernel)

end FileTree

end Command

end TimeValue
