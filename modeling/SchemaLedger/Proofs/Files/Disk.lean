import SchemaLedger.Proofs.Files.Path

/-!
What the calls of a file system do on a disk.

* `Disk.node?_put`, `Disk.node?_drop`: a change at one place is seen nowhere else.
* `Disk.walk_append`, `Disk.walk_step`, `Disk.walk_missing`, `Disk.walk_singleton_ok`,
  `Disk.walk_mono`: how a path is walked.
* `Disk.mem_names_children`: a folder lists what stands one step below it.
* `Disk.follow_of_not_fits`, `Disk.find_of_not_fits`: a path that is too long leads nowhere.
* `Disk.find_of_write`, `Disk.eq_of_find_of_write`: what is found after a text was written, at its
  path and at other ones.
* The other lemmas give the answer of each call from where its path leads.
-/

namespace SchemaLedger.Disk

/-! ### What stands at a place -/

/-- A key that no kept entry has is not found. -/
lemma lookup_filter_ne {nodes : List (Path × Node)} (place p : List String) :
    (nodes.filter fun e => e.1 != place).lookup p =
      if p = place then none else nodes.lookup p := by
  induction nodes with
  | nil => simp
  | cons e nodes ih =>
    obtain ⟨q, node⟩ := e
    by_cases here : q = place
    · rw [List.filter_cons_of_neg (by simp [here]), ih, List.lookup_cons]
      split
      · rfl
      · rename_i other
        rw [beq_eq_false_iff_ne.2 fun h => other (h.trans here)]
    · rw [List.filter_cons_of_pos (by simp [here]), List.lookup_cons, List.lookup_cons]
      by_cases same : p = q
      · rw [same, if_neg here, beq_self_eq_true]
      · rw [beq_eq_false_iff_ne.2 same]
        exact ih

/-- Nothing else is lost when something is put away. -/
lemma node?_drop (d : Disk) {place : List String} (below : place ≠ []) (p : List String) :
    (d.drop place).node? p = if p = place then none else d.node? p := by
  unfold node?
  by_cases root : p = []
  · rw [if_pos root, if_pos root, if_neg]
    rw [root]
    exact below.symm
  · rw [if_neg root, if_neg root, drop, lookup_filter_ne]

/-- Nothing else changes when something is put at a place. -/
lemma node?_put (d : Disk) {place : List String} (below : place ≠ []) (node : Node)
    (p : List String) : (d.put place node).node? p = if p = place then some node else d.node? p := by
  have other := d.node?_drop below p
  unfold node? at other ⊢
  by_cases root : p = []
  · rw [if_pos root, if_pos root, if_neg]
    rw [root]
    exact below.symm
  · rw [if_neg root, if_neg root] at other ⊢
    rw [put, List.lookup_append, lookup_filter_ne]
    by_cases here : p = place
    · simp [here]
    · simp [here, List.lookup_cons, beq_eq_false_iff_ne.2 here]

/-- An entry is found under its key, or an earlier one with the same key is. -/
lemma isSome_lookup_iff {nodes : List (Path × Node)} {p : List String} :
    (nodes.lookup p).isSome = true ↔ ∃ node, (p, node) ∈ nodes := by
  induction nodes with
  | nil => simp
  | cons e nodes ih =>
    obtain ⟨q, node⟩ := e
    rw [List.lookup_cons]
    by_cases same : p = q
    · simp [same]
    · rw [beq_eq_false_iff_ne.2 same]
      simp [ih, same]

/-- What something is listed as. -/
def kind : Node → EntryKind
  | .file _ => .file
  | .folder => .folder

/-- Something in a folder is listed with its kind. -/
lemma mem_children {d : Disk} {place : List String} {name : String} {node : Node}
    (there : d.node? (place ++ [name]) = some node) : (name, kind node) ∈ d.children place := by
  have below : place ++ [name] ≠ [] := List.append_ne_nil_of_right_ne_nil _ (List.cons_ne_nil _ _)
  rw [node?, if_neg below] at there
  obtain ⟨before, after, nodes, -⟩ := List.lookup_eq_some_iff.1 there
  have entry : (place ++ [name], node) ∈ d.nodes := by
    rw [nodes]
    simp
  rw [children, List.mem_mergeSort, List.mem_filterMap]
  refine ⟨_, entry, ?_⟩
  cases node <;> simp [kind]

/-- **A folder lists what stands one step below it.** -/
lemma mem_names_children (d : Disk) (place : List String) (name : String) :
    name ∈ (d.children place).map Prod.fst ↔ (d.node? (place ++ [name])).isSome = true := by
  have below : place ++ [name] ≠ [] := List.append_ne_nil_of_right_ne_nil _ (List.cons_ne_nil _ _)
  rw [node?, if_neg below, isSome_lookup_iff, children]
  simp only [List.mem_map, List.mem_mergeSort, List.mem_filterMap]
  constructor
  · rintro ⟨entry, ⟨⟨path, node⟩, he, found⟩, rfl⟩
    dsimp only at found
    split at found
    · split at found
      · rename_i path'
        cases found
        exact ⟨node, by rwa [← path']⟩
      · cases found
    · cases found
  · rintro ⟨node, he⟩
    have last : (place ++ [name]).getLast? = some name := by simp
    cases node with
    | file content =>
      exact ⟨(name, .file), ⟨_, he, by rw [last]; exact if_pos rfl⟩, rfl⟩
    | folder => exact ⟨(name, .folder), ⟨_, he, by rw [last]; exact if_pos rfl⟩, rfl⟩

/-! ### Walking -/

/-- The step of a path that leads one folder down. -/
structure IsStep (step : String) : Prop where
  relative : step ≠ "/"
  moves : Path.stays step = false
  down : step ≠ ".."
  short : step.utf8ByteSize ≤ maxName

/-- A step that leads one folder down has a name. -/
lemma IsStep.ne_empty {step : String} (h : IsStep step) : step ≠ "" := by
  rintro rfl
  exact absurd h.moves (by decide)

/-- The first step of a path, and the others. -/
lemma walk_cons (d : Disk) (place : List String) (step : String) (rest : Path) :
    d.walk place (step :: rest) = d.walk place [step] >>= fun place => d.walk place rest := by
  simp only [walk]
  by_cases slash : step = "/"
  · rw [if_pos slash, if_pos slash]
    rfl
  · rw [if_neg slash, if_neg slash]
    cases d.node? place with
    | none => rfl
    | some node =>
      cases node with
      | file content => rfl
      | folder =>
        dsimp only
        split_ifs <;> rfl

/-- A path is walked in two parts. -/
lemma walk_append (d : Disk) (place : List String) (first second : Path) :
    d.walk place (first ++ second) = d.walk place first >>= fun place => d.walk place second := by
  induction first generalizing place with
  | nil => rfl
  | cons step first ih =>
    rw [List.cons_append, walk_cons, walk_cons d place step first, bind_assoc]
    exact congrArg (d.walk place [step] >>= ·) (funext fun place => ih place)

variable {d : Disk} {place : List String} {step : String}

/-- A step to something that is there. -/
lemma walk_step (folder : d.node? place = some .folder) (h : IsStep step)
    (there : (d.node? (place ++ [step])).isSome = true) (rest : Path) :
    d.walk place (step :: rest) = d.walk (place ++ [step]) rest := by
  have found : (d.node? (place ++ [step])).isNone = false := by
    rwa [Option.isNone_eq_false_iff]
  rw [walk, if_neg h.relative, folder]
  simp only [h.moves, if_neg h.down, if_neg (Nat.not_lt.2 h.short), found, Bool.false_eq_true,
    if_false]

/-- A step to something that is not there. -/
lemma walk_missing (folder : d.node? place = some .folder) (h : IsStep step)
    (absent : d.node? (place ++ [step]) = none) (rest : Path) :
    d.walk place (step :: rest) = .error .notFound := by
  rw [walk, if_neg h.relative, folder]
  simp only [h.moves, if_neg h.down, if_neg (Nat.not_lt.2 h.short), absent, Option.isNone_none,
    Bool.false_eq_true, if_true, if_false]

/-- What one step can do that can be taken. -/
lemma walk_singleton_ok {goal : List String} :
    d.walk place [step] = .ok goal ↔
      (step = "/" ∧ goal = []) ∨
      (step ≠ "/" ∧ d.node? place = some .folder ∧
        ((Path.stays step = true ∧ goal = place) ∨ (step = ".." ∧ goal = place.dropLast) ∨
          (IsStep step ∧ (d.node? (place ++ [step])).isSome = true ∧ goal = place ++ [step]))) := by
  have ends (here : List String) : d.walk here [] = .ok goal ↔ goal = here :=
    ⟨fun h => (Except.ok.inj h).symm, fun h => congrArg Except.ok h.symm⟩
  by_cases slash : step = "/"
  · rw [walk, if_pos slash, ends]
    simp [slash]
  · rw [walk, if_neg slash]
    cases here : d.node? place with
    | none => simp [slash]
    | some node =>
      cases node with
      | file content => simp [slash]
      | folder =>
        dsimp only
        split_ifs with stays up long absent
        · have other : step ≠ ".." := by rintro rfl; exact absurd stays (by decide)
          have still : ¬IsStep step := fun h => absurd (stays.symm.trans h.moves) (by decide)
          simp [ends, slash, stays, other, still]
        · subst up
          have still : ¬IsStep ".." := fun h => h.down rfl
          simp [ends, stays, still]
        · have still : ¬IsStep step := fun h => absurd h.short (Nat.not_le.2 long)
          simp [slash, stays, up, still]
        · have missing : d.node? (place ++ [step]) = none := Option.isNone_iff_eq_none.1 absent
          simp [slash, stays, up, missing]
        · have moves : IsStep step :=
            ⟨slash, Bool.eq_false_iff.2 stays, up, Nat.not_lt.1 long⟩
          have there : (d.node? (place ++ [step])).isSome = true := by
            simpa [Option.isSome_iff_ne_none] using absent
          simp [ends, slash, stays, up, moves, there]

/-- A walk stays possible as long as folders stay folders and nothing is taken away. -/
lemma walk_of_kept {d' : Disk} (folders : ∀ p, d.node? p = some .folder → d'.node? p = some .folder)
    (kept : ∀ p, (d.node? p).isSome = true → (d'.node? p).isSome = true) {path : Path}
    {goal : List String} (h : d.walk place path = .ok goal) : d'.walk place path = .ok goal := by
  induction path generalizing place with
  | nil => exact h
  | cons step path ih =>
    rw [walk_cons] at h ⊢
    cases first : d.walk place [step] with
    | error fault =>
      rw [first] at h
      cases h
    | ok next =>
      rw [first] at h
      have first' : d'.walk place [step] = .ok next := by
        refine walk_singleton_ok.2 ((walk_singleton_ok.1 first).imp_right ?_)
        rintro ⟨slash, folder, taken⟩
        refine ⟨slash, folders _ folder, taken.imp_right (Or.imp_right ?_)⟩
        rintro ⟨step, there, rfl⟩
        exact ⟨step, kept _ there, rfl⟩
      rw [first']
      exact ih h

/-- A walk stays possible as long as nothing is taken away. -/
lemma walk_mono {d' : Disk} (kept : ∀ p node, d.node? p = some node → d'.node? p = some node)
    {path : Path} {goal : List String} (h : d.walk place path = .ok goal) :
    d'.walk place path = .ok goal := by
  refine walk_of_kept (fun p => kept p .folder) (fun p there => ?_) h
  obtain ⟨node, there⟩ := Option.isSome_iff_exists.1 there
  exact Option.isSome_iff_exists.2 ⟨node, kept p node there⟩

/-- A path that fits is walked from the current folder. -/
lemma follow_eq {path : Path} (h : path.Fits) : d.follow path = d.walk d.current path := by
  rw [follow, if_neg (Nat.not_lt.2 h.text)]

/-! ### Calls -/

section Calls

variable {path folder : Path} {name : String} {node : Node} {fault : FileFault}

lemma find_ok (leads : d.follow path = .ok place) (there : d.node? place = some node) :
    d.find path = .ok node := by
  rw [find, leads]
  simp only [bind, Except.bind, there]

/-- What is found stands where the path leads. -/
lemma exists_of_find (found : d.find path = .ok node) :
    ∃ place, d.follow path = .ok place ∧ d.node? place = some node := by
  rw [find] at found
  cases leads : d.follow path with
  | error fault =>
    rw [leads] at found
    cases found
  | ok place =>
    rw [leads] at found
    dsimp only [bind, Except.bind] at found
    split at found
    · rename_i there
      cases found
      exact ⟨place, rfl, there⟩
    · cases found

lemma find_error (fails : d.follow path = .error fault) : d.find path = .error fault := by
  rw [find, fails]
  rfl

/-- Something new is located by the folder it comes into. -/
lemma locate_missing (missing : d.follow (folder ++ [name]) = .error .notFound)
    (leads : d.follow folder = .ok place) (isFolder : d.node? place = some .folder) :
    d.locate (folder ++ [name]) = .ok (place ++ [name]) := by
  rw [locate, missing]
  dsimp only
  rw [List.dropLast_concat, leads]
  simp only [bind, Except.bind, isFolder, List.getLast?_concat]

lemma locate_ok (leads : d.follow path = .ok place) : d.locate path = .ok place := by
  rw [locate, leads]

/-- A name is no slash. -/
lemma withoutSlash_append (named : name ≠ "") : withoutSlash (folder ++ [name]) = folder ++ [name] := by
  rw [withoutSlash, List.getLast?_concat, if_neg fun h => named (Option.some.inj h)]

lemma makeFolder_exists (named : name ≠ "") (leads : d.follow (folder ++ [name]) = .ok place)
    (there : d.node? place = some node) :
    d.makeFolder (folder ++ [name]) = .error .alreadyExists := by
  rw [makeFolder, withoutSlash_append named, locate_ok leads]
  simp only [bind, Except.bind, there]

lemma makeFolder_missing (named : name ≠ "")
    (missing : d.follow (folder ++ [name]) = .error .notFound)
    (leads : d.follow folder = .ok place) (isFolder : d.node? place = some .folder)
    (absent : d.node? (place ++ [name]) = none) :
    d.makeFolder (folder ++ [name]) = .ok (d.put (place ++ [name]) .folder) := by
  rw [makeFolder, withoutSlash_append named, locate_missing missing leads isFolder]
  simp only [bind, Except.bind, absent]

/-- A folder cannot be made in one that is not there. -/
lemma makeFolder_orphan {missing : FileFault} (named : name ≠ "")
    (absent : d.follow (folder ++ [name]) = .error missing)
    (fails : d.follow folder = .error fault) :
    d.makeFolder (folder ++ [name]) = .error fault := by
  rw [makeFolder, withoutSlash_append named, locate, absent]
  dsimp only
  rw [List.dropLast_concat, fails]
  rfl

/-- A text is written where no folder stands. -/
lemma write_of_locate (file : path.getLast? ≠ some "") (located : d.locate path = .ok place)
    (free : d.node? place ≠ some .folder) (content : ByteArray) :
    d.write path content = .ok (d.put place (.file content)) := by
  rw [write, if_neg file, located]
  cases there : d.node? place with
  | none => simp only [bind, Except.bind, there]
  | some node =>
    cases node with
    | folder => exact absurd there free
    | file old => simp only [bind, Except.bind, there]

lemma write_located (named : name ≠ "") (located : d.locate (folder ++ [name]) = .ok place)
    (free : d.node? place ≠ some .folder) (content : ByteArray) :
    d.write (folder ++ [name]) content = .ok (d.put place (.file content)) := by
  refine write_of_locate ?_ located free content
  rw [List.getLast?_concat]
  exact fun h => named (Option.some.inj h)

/-- A file is given a name that is free or that another file has. -/
lemma rename_file {source target : Path} {goal : List String} {content : ByteArray}
    (leads : d.follow source = .ok place) (there : d.node? place = some (.file content))
    (located : d.locate target = .ok goal) (free : d.node? goal ≠ some .folder) :
    d.rename source target = .ok ((d.drop place).put goal (.file content)) := by
  rw [rename, leads, located]
  simp only [bind, Except.bind, there]

lemma read_of_find {content : ByteArray} (found : d.find path = .ok (.file content)) :
    d.read path = .ok content := by
  rw [read, found]
  rfl

lemma removeFile_file {content : ByteArray} (leads : d.follow path = .ok place)
    (there : d.node? place = some (.file content)) : d.removeFile path = .ok (d.drop place) := by
  rw [removeFile, leads]
  simp only [bind, Except.bind, there]

lemma list_folder (leads : d.follow path = .ok place) (isFolder : d.node? place = some .folder) :
    d.list path = .ok (d.children place) := by
  rw [list, leads]
  simp only [bind, Except.bind, isFolder]

/-- What can be listed is a folder. -/
lemma find_of_list {entries : List (String × EntryKind)} (h : d.list path = .ok entries) :
    d.find path = .ok .folder := by
  cases leads : d.follow path with
  | error fault =>
    rw [list, leads] at h
    cases h
  | ok place =>
    rw [list, leads] at h
    dsimp only [bind, Except.bind] at h
    split at h
    · rename_i isFolder
      exact find_ok leads isFolder
    · cases h

lemma removeFolder_empty (leads : d.follow path = .ok place)
    (isFolder : d.node? place = some .folder) (empty : (d.children place).isEmpty = true) :
    d.removeFolder path = .ok (d.drop place) := by
  rw [removeFolder, leads]
  simp only [bind, Except.bind, isFolder, if_pos empty]

end Calls

/-! ### Paths that are too long -/

section Long

variable {path folder : Path} {name : String}

lemma walk_name_long (isFolder : d.node? place = some .folder) (long : maxName < name.utf8ByteSize)
    (rest : Path) : d.walk place (name :: rest) = .error .invalidName := by
  have other (short : String) (size : short.utf8ByteSize ≤ maxName) : name ≠ short := by
    rintro rfl
    omega
  have moves : Path.stays name = false := by
    simp [Path.stays, other "" (by decide), other "." (by decide)]
  rw [walk, if_neg (other "/" (by decide)), isFolder]
  simp only [moves, if_neg (other ".." (by decide)), if_pos long, Bool.false_eq_true,
    if_false]

lemma walk_not_folder (h : d.node? place ≠ some .folder) (relative : name ≠ "/") (rest : Path) :
    d.walk place (name :: rest) = .error .notADirectory := by
  rw [walk, if_neg relative]
  split
  · exact absurd ‹_› h
  · rfl

/-- Nothing has a name that is too long. -/
lemma walk_long (long : maxName < name.utf8ByteSize) (h : name ∈ path) (d : Disk)
    (place : List String) : ∃ fault, d.walk place path = .error fault := by
  induction path generalizing place with
  | nil => cases h
  | cons step rest ih =>
    rw [walk_cons]
    cases first : d.walk place [step] with
    | error fault => exact ⟨fault, rfl⟩
    | ok next =>
      rcases List.mem_cons.1 h with rfl | later
      · by_cases isFolder : d.node? place = some .folder
        · rw [walk_name_long isFolder long] at first
          cases first
        · rw [walk_not_folder isFolder (by rintro rfl; exact absurd long (by decide))] at first
          cases first
      · exact ih later next

/-- Nothing is found at the end of a path that does not fit. -/
lemma follow_of_not_fits (d : Disk) (long : ¬path.Fits) : ∃ fault, d.follow path = .error fault := by
  rw [follow]
  split
  · exact ⟨_, rfl⟩
  · rename_i text
    have steps : ¬∀ step ∈ path, step.utf8ByteSize ≤ maxName := fun steps =>
      long ⟨steps, Nat.not_lt.1 text⟩
    push Not at steps
    obtain ⟨step, here, long⟩ := steps
    exact walk_long long here d _

lemma find_of_not_fits (d : Disk) (long : ¬path.Fits) : ∃ fault, d.find path = .error fault := by
  obtain ⟨fault, failed⟩ := d.follow_of_not_fits long
  exact ⟨fault, find_error failed⟩

variable (leads : d.follow folder = .ok place) (isFolder : d.node? place = some .folder)
  (long : ¬Path.Fits (folder ++ [name]))
include leads isFolder long

/-- A folder can be entered, but the path of something in it is too long. -/
lemma follow_long : d.follow (folder ++ [name]) = .error .invalidName := by
  by_cases text : maxPath < (Path.render (folder ++ [name])).utf8ByteSize
  · exact if_pos text
  · have walked : d.walk d.current folder = .ok place := by
      rw [follow] at leads
      split at leads
      · cases leads
      · exact leads
    have last : maxName < name.utf8ByteSize := by
      by_contra short
      refine long ⟨fun step hs => ?_, Nat.not_lt.1 text⟩
      rcases List.mem_append.1 hs with before | here
      · by_contra other
        obtain ⟨fault, failed⟩ := walk_long (Nat.not_le.1 other) before d d.current
        rw [walked] at failed
        cases failed
      · rw [List.mem_singleton.1 here]
        exact Nat.not_lt.1 short
    rw [follow, if_neg text, walk_append, walked]
    exact walk_name_long isFolder last []

lemma locate_long : d.locate (folder ++ [name]) = .error .invalidName := by
  rw [locate, follow_long leads isFolder long, List.dropLast_concat, leads]
  rfl

lemma makeFolder_long (named : name ≠ "") :
    d.makeFolder (folder ++ [name]) = .error .invalidName := by
  rw [makeFolder, withoutSlash_append named, locate_long leads isFolder long]
  rfl

lemma write_long (named : name ≠ "") (content : ByteArray) :
    d.write (folder ++ [name]) content = .error .invalidName := by
  rw [write, List.getLast?_concat, if_neg fun h => named (Option.some.inj h),
    locate_long leads isFolder long]
  rfl

omit leads isFolder

/-- No folder is made at a path that does not fit. -/
lemma makeFolder_of_not_fits (d : Disk) (named : name ≠ "") :
    ∃ fault, d.makeFolder (folder ++ [name]) = .error fault := by
  suffices located : ∃ fault, d.locate (folder ++ [name]) = .error fault by
    obtain ⟨fault, located⟩ := located
    refine ⟨fault, ?_⟩
    rw [makeFolder, withoutSlash_append named, located]
    rfl
  obtain ⟨fault, failed⟩ := d.follow_of_not_fits long
  cases parent : d.follow folder with
  | error fault' =>
    refine ⟨fault', ?_⟩
    rw [locate, failed]
    dsimp only
    rw [List.dropLast_concat, parent]
    rfl
  | ok place =>
    by_cases isFolder : d.node? place = some .folder
    · exact ⟨_, locate_long parent isFolder long⟩
    · refine ⟨fault, ?_⟩
      rw [locate, failed]
      dsimp only
      rw [List.dropLast_concat, parent]
      dsimp only [bind, Except.bind]
      split
      · exact absurd ‹_› isFolder
      · rfl

end Long

/-! ### Writing -/

section Writing

variable {path : Path} {node : Node} {content : ByteArray}

/-- A path that is short enough is walked. -/
lemma follow_ok_iff {goal : List String} :
    d.follow path = .ok goal ↔
      path.render.utf8ByteSize ≤ maxPath ∧ d.walk d.current path = .ok goal := by
  rw [follow]
  split_ifs with long
  · simp [Nat.not_le.2 long]
  · simp [Nat.not_lt.1 long]

/-- A step that could be taken if there were something leads one folder down. -/
lemma isStep_of_walk_notFound (folder : d.node? place = some .folder)
    (missing : d.walk place [step] = .error .notFound) : IsStep step := by
  rw [walk, folder] at missing
  dsimp only at missing
  split_ifs at missing with slash stays up long absent
  · cases missing
  · cases missing
  · cases missing
  · cases missing
  · exact ⟨slash, Bool.eq_false_iff.2 stays, up, Nat.not_lt.1 long⟩
  · cases missing

/-- A path that is located leads to its place, or to the folder in which the place is. -/
lemma locate_ok_cases (located : d.locate path = .ok place) :
    d.follow path = .ok place ∨
    ∃ folder name parent, path = folder ++ [name] ∧ path.render.utf8ByteSize ≤ maxPath ∧
      d.walk d.current folder = .ok parent ∧ d.node? parent = some .folder ∧ IsStep name ∧
      place = parent ++ [name] := by
  rw [locate] at located
  cases followed : d.follow path with
  | ok place' =>
    rw [followed] at located
    exact .inl located
  | error fault =>
    rw [followed] at located
    dsimp only [bind, Except.bind] at located
    cases before : d.follow path.dropLast with
    | error fault' =>
      rw [before] at located
      cases located
    | ok parent =>
      rw [before] at located
      dsimp only at located
      split at located
      · rename_i name folder last
        cases located
        have whole : path.dropLast ++ [name] = path := List.dropLast_append_getLast? name last
        obtain ⟨-, way⟩ := follow_ok_iff.1 before
        rw [follow] at followed
        split_ifs at followed with long
        · cases followed
        have missing : d.walk parent [name] = .error .notFound := by
          rwa [← whole, walk_append, way] at followed
        exact .inr ⟨path.dropLast, name, parent, whole.symm, Nat.not_lt.1 long, way, folder,
          isStep_of_walk_notFound folder missing, rfl⟩
      · cases located

/-- No walk ends when something that is no folder is put where no folder is. -/
lemma walk_put (free : d.node? place ≠ some .folder) (below : place ≠ []) {start goal : List String}
    (h : d.walk start path = .ok goal) : (d.put place node).walk start path = .ok goal := by
  refine walk_of_kept (fun p folder => ?_) (fun p there => ?_) h
  · rw [node?_put d below, if_neg, folder]
    rintro rfl
    exact free folder
  · rw [node?_put d below]
    split_ifs
    · rfl
    · exact there

/-- A path leads to what was put where it was located. -/
lemma follow_put (located : d.locate path = .ok place) (free : d.node? place ≠ some .folder) :
    (d.put place node).follow path = .ok place := by
  have below : place ≠ [] := by
    rintro rfl
    exact free rfl
  rcases locate_ok_cases located with followed |
    ⟨folder, name, parent, rfl, short, way, isFolder, step, rfl⟩
  · obtain ⟨short, walked⟩ := follow_ok_iff.1 followed
    exact follow_ok_iff.2 ⟨short, walk_put free below walked⟩
  · refine follow_ok_iff.2 ⟨short, ?_⟩
    have walked : (d.put (parent ++ [name]) node).walk d.current folder = .ok parent :=
      walk_put free below way
    have isFolder' : (d.put (parent ++ [name]) node).node? parent = some .folder := by
      rw [node?_put d below, if_neg (by simp), isFolder]
    have there : ((d.put (parent ++ [name]) node).node? (parent ++ [name])).isSome = true := by
      rw [node?_put d below, if_pos rfl]
      rfl
    rw [walk_append]
    change (d.put (parent ++ [name]) node).walk d.current folder >>= _ = _
    rw [walked]
    exact walk_step isFolder' step there []

/-- A text that was written stands at the place of its path. -/
lemma exists_of_write {d' : Disk} (h : d.write path content = .ok d') :
    path.getLast? ≠ some "" ∧ ∃ place, d.locate path = .ok place ∧ d.node? place ≠ some .folder ∧
      d' = d.put place (.file content) := by
  rw [write] at h
  split_ifs at h with slash
  · cases listed : d.list (withoutSlash path).dropLast <;> rw [listed] at h <;> cases h
  · refine ⟨slash, ?_⟩
    cases located : d.locate path with
    | error fault =>
      rw [located] at h
      cases h
    | ok place =>
      rw [located] at h
      dsimp only [bind, Except.bind] at h
      split at h
      · cases h
      · rename_i free
        exact ⟨place, rfl, free, (Except.ok.inj h).symm⟩

/-- Where one text can be written, another one can be as well. -/
lemma write_other {d' : Disk} (h : d.write path content = .ok d') (other : ByteArray) :
    ∃ d'', d.write path other = .ok d'' := by
  obtain ⟨file, place, located, free, -⟩ := exists_of_write h
  exact ⟨_, write_of_locate file located free other⟩

/-- A text that was written is found. -/
lemma find_of_write {d' : Disk} (h : d.write path content = .ok d') :
    d'.find path = .ok (.file content) := by
  obtain ⟨-, place, located, free, rfl⟩ := exists_of_write h
  have below : place ≠ [] := by
    rintro rfl
    exact free rfl
  refine find_ok (follow_put located free) ?_
  rw [node?_put d below, if_pos rfl]

/-- Nothing lies behind a file. -/
lemma eq_of_walk_file (file : d.node? place = some (.file content)) (slashless : "/" ∉ path)
    {goal : List String} (h : d.walk place path = .ok goal) : goal = place := by
  cases path with
  | nil => exact (Except.ok.inj h).symm
  | cons step path =>
    have relative : step ≠ "/" := fun h => slashless (h ▸ List.mem_cons_self ..)
    rw [walk_not_folder (by simp [file]) relative] at h
    cases h

/-- Where a file was put, a step leads to the file or could be taken before. -/
lemma walk_singleton_of_put (below : place ≠ []) {start next : List String} (relative : step ≠ "/")
    (h : (d.put place (.file content)).walk start [step] = .ok next) :
    next = place ∨ d.walk start [step] = .ok next := by
  have other {p : List String} (apart : p ≠ place) :
      (d.put place (.file content)).node? p = d.node? p := by
    rw [node?_put d below, if_neg apart]
  by_cases here : next = place
  · exact .inl here
  · rcases walk_singleton_ok.1 h with ⟨slash, -⟩ | ⟨slash, folder, taken⟩
    · exact absurd slash relative
    · have apart : start ≠ place := by
        rintro rfl
        rw [node?_put d below, if_pos rfl] at folder
        cases folder
      refine .inr (walk_singleton_ok.2 (.inr ⟨slash, (other apart) ▸ folder, ?_⟩))
      refine taken.imp_right (Or.imp_right ?_)
      rintro ⟨moves, there, rfl⟩
      exact ⟨moves, (other here) ▸ there, rfl⟩

/-- Where a file was put, a walk ends at the file or could be made before. A path that starts anew
from the root might lead past the file. -/
lemma walk_of_put (below : place ≠ []) {start goal : List String} (slashless : "/" ∉ path)
    (h : (d.put place (.file content)).walk start path = .ok goal) :
    goal = place ∨ d.walk start path = .ok goal := by
  have file : (d.put place (.file content)).node? place = some (.file content) := by
    rw [node?_put d below, if_pos rfl]
  induction path generalizing start with
  | nil => exact .inr h
  | cons step path ih =>
    have relative : step ≠ "/" := fun h => slashless (h ▸ List.mem_cons_self ..)
    have slashless' : "/" ∉ path := fun h => slashless (List.mem_cons_of_mem _ h)
    rw [walk_cons] at h
    cases first : (d.put place (.file content)).walk start [step] with
    | error fault =>
      rw [first] at h
      cases h
    | ok next =>
      rw [first] at h
      rcases walk_singleton_of_put below relative first with rfl | before
      · exact .inl (eq_of_walk_file file slashless' h)
      · refine (ih slashless' h).imp_right fun walked => ?_
        rw [walk_cons, before]
        exact walked

/-- Where a file was put, a path leads to the file or to where it led before. Only its first step
may start from the root. -/
lemma follow_of_put (below : place ≠ []) {goal : List String} (slashless : "/" ∉ path.tail)
    (h : (d.put place (.file content)).follow path = .ok goal) :
    goal = place ∨ d.follow path = .ok goal := by
  obtain ⟨short, walked⟩ := follow_ok_iff.1 h
  suffices before : goal = place ∨ d.walk d.current path = .ok goal from
    before.imp_right fun walked => follow_ok_iff.2 ⟨short, walked⟩
  cases path with
  | nil => exact .inr walked
  | cons step steps =>
    by_cases slash : step = "/"
    · rw [walk, if_pos slash] at walked ⊢
      exact walk_of_put below slashless walked
    · refine walk_of_put below (fun h => ?_) walked
      rcases List.mem_cons.1 h with here | later
      · exact slash here.symm
      · exact slashless later

/-- A file that is found after a text was written is at the same place, where nothing else was a file
before. -/
lemma follow_eq_of_find_of_write {d' : Disk} {other : Path} {content' : ByteArray}
    (h : d.write path content = .ok d') (slashless : "/" ∉ other.tail)
    (alone : ∀ c, d.find other = .ok (.file c) → d.locate other = d.locate path)
    (found : d'.find other = .ok (.file content')) : d'.follow other = d'.follow path := by
  obtain ⟨-, place, located, free, rfl⟩ := exists_of_write h
  have below : place ≠ [] := by
    rintro rfl
    exact free rfl
  obtain ⟨goal, leads, there⟩ := exists_of_find found
  rw [leads, follow_put located free]
  by_cases here : goal = place
  · rw [here]
  · have before := (follow_of_put below slashless leads).resolve_left here
    rw [node?_put d below, if_neg here] at there
    have same := alone content' (find_ok before there)
    rw [locate_ok before, located] at same
    exact absurd (Except.ok.inj same) here

end Writing

/-! ### Names -/

/-- The path to a file ends in the name that stands at the file's place. -/
lemma getLast?_place {path : Path} {name : String} {content : ByteArray}
    (leads : d.follow path = .ok place) (file : d.node? place = some (.file content))
    (named : path.name? = some name) : place.getLast? = some name := by
  rcases List.eq_nil_or_concat' path with rfl | ⟨folder, last, rfl⟩
  · cases named
  obtain ⟨-, walked⟩ := follow_ok_iff.1 leads
  rw [walk_append] at walked
  cases before : d.walk d.current folder with
  | error fault =>
    rw [before] at walked
    cases walked
  | ok parent =>
    rw [before] at walked
    -- a step that leads elsewhere leads to a folder, or is not the name of the path
    rcases walk_singleton_ok.1 walked with ⟨-, rfl⟩ | ⟨-, isFolder, taken⟩
    · cases file
    · rcases taken with ⟨-, rfl⟩ | ⟨rfl, -⟩ | ⟨step, -, rfl⟩
      · rw [isFolder] at file
        cases file
      · rw [Path.name?, Path.withoutEnding, List.getLast?_concat] at named
        obtain ⟨same, other⟩ := Option.filter_eq_some_iff.1 named
        obtain rfl : ".." = name := by simpa [Path.stays] using same
        exact absurd other (by decide)
      · rw [Path.name?_concat folder step.moves step.down step.relative] at named
        rw [List.getLast?_concat, named]

end SchemaLedger.Disk
