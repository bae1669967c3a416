import SchemaLedger.Proofs.Store.Apart

/-!
Where the files of schemas lie.

* `Path.ofText_render_append`: the text of a path is taken apart again at the steps that lead down.
* `FileStore.IsConfined`: the path to the file of a schema is three steps below the folder of all
  schemas, as a list of steps and as a text, and gives back the schema.
* `FileStore.temporaryPath`: where a file is first written.
* `FileStore.files_kept_apart`: a name is refused for one of its parts, or its file is confined, and
  it shares neither this file nor the temporary one with any other name.
-/

namespace SchemaLedger

namespace Path

/-! ### Texts of paths -/

/-- A step that leads one folder down, wherever it stands in a text. -/
structure LeadsDown (step : String) : Prop where
  whole : '/' ∉ step.toList
  moves : stays step = false
  down : step ≠ ".."

variable {path : Path} {text step last : String}

lemma LeadsDown.ne_empty (h : LeadsDown step) : step ≠ "" := by
  rintro rfl
  exact absurd h.moves (by decide)

lemma LeadsDown.ne_slash (h : LeadsDown step) : step ≠ "/" := by
  rintro rfl
  exact h.whole (by decide)

/-- A text is taken apart at each slash. -/
lemma splitOn_append (s t : String) :
    (s ++ "/" ++ t).splitOn "/" = s.splitOn "/" ++ t.splitOn "/" := by
  have chars : (s ++ "/" ++ t).toList = s.toList ++ '/' :: t.toList := by simp
  rw [splitOn_slash, splitOn_slash, splitOn_slash, chars,
    List.splitOnP_append_cons (p := fun c => c == '/') s.toList t.toList rfl, List.map_append]

/-- Without a slash, nothing is taken apart. -/
lemma LeadsDown.splitOn (h : LeadsDown step) : step.splitOn "/" = [step] := by
  have none : ∀ c ∈ step.toList, (c == '/') = false := fun c hc =>
    beq_eq_false_iff_ne.2 fun slash => h.whole (slash ▸ hc)
  rw [splitOn_slash, List.splitOnP_eq_singleton none, List.map_singleton, String.ofList_toList]

/-- The last part of a text leads down. -/
def EndsBelow (text : String) : Prop :=
  ∃ before step, text.splitOn "/" = before ++ [step] ∧ LeadsDown step

lemma EndsBelow.append (text : String) (h : LeadsDown step) : EndsBelow (text ++ "/" ++ step) :=
  ⟨text.splitOn "/", step, by rw [splitOn_append, h.splitOn], h⟩

/-- Nothing stays at the end of such a text. -/
lemma LeadsDown.ending (h : LeadsDown step) (before : List String) :
    ending (before ++ [step]) = [] := by
  obtain ⟨some, dot⟩ : step ≠ "" ∧ step ≠ "." := by
    have := h.moves
    simpa [stays] using this
  have reversed : (before ++ [step]).reverse.dropWhile (· == "") = step :: before.reverse := by
    simp [some]
  rw [Path.ending, reversed]
  split
  · rfl
  · rfl
  · rename_i same
    exact absurd (List.cons.inj same).1 dot
  · simp [some]

/-- A step behind such a text is one more step of its path. -/
lemma EndsBelow.ofText_append (ends : EndsBelow text) (h : LeadsDown step) :
    ofText (text ++ "/" ++ step) = ofText text ++ [step] := by
  obtain ⟨before, last, parts, below⟩ := ends
  have start : (text ++ "/" ++ step).toList.head? = text.toList.head? := by
    have some : text.toList ≠ [] := by
      intro none
      rw [String.toList_eq_nil_iff.1 none] at parts
      have empty : "".splitOn "/" = [""] := by rw [splitOn_slash]; rfl
      rw [empty] at parts
      have same := (List.append_inj' (show [] ++ [""] = _ ++ [_] from parts) rfl).2
      exact below.ne_empty (List.cons.inj same).1.symm
    rw [String.append_assoc, String.toList_append, List.head?_append_of_ne_nil _ some]
  have steps : ((text ++ "/" ++ step).splitOn "/").filter (fun s => !stays s) ++
      ending ((text ++ "/" ++ step).splitOn "/") =
        ((text.splitOn "/").filter (fun s => !stays s) ++ ending (text.splitOn "/")) ++ [step] := by
    rw [splitOn_append, h.splitOn, h.ending, parts, below.ending, List.append_nil, List.append_nil,
      List.filter_append _ [step]]
    simp [h.moves]
  rw [ofText, ofText, start, steps]
  split <;> rfl

/-- The text of a path ends in its last step. -/
lemma endsBelow_render (path : Path) (h : LeadsDown last) : EndsBelow (render (path ++ [last])) := by
  by_cases none : path = []
  · subst none
    have text : render [last] = last := by simp [render, h.ne_slash]
    rw [List.nil_append, text]
    exact ⟨[], last, h.splitOn, h⟩
  · by_cases root : path = ["/"]
    · subst root
      exact EndsBelow.append "" h
    · rw [render_concat none root]
      exact EndsBelow.append _ h

/-- **Steps that lead down stay apart in the text of a path**, behind one of their kind. -/
lemma ofText_render_append (path : Path) (h : LeadsDown last) {more : List String}
    (down : ∀ step ∈ more, LeadsDown step) :
    ofText (render (path ++ last :: more)) = ofText (render (path ++ [last])) ++ more := by
  induction more generalizing path last with
  | nil => rw [List.append_nil]
  | cons step more ih =>
    have first := down step (List.mem_cons_self ..)
    have one : ofText (render (path ++ [last] ++ [step])) =
        ofText (render (path ++ [last])) ++ [step] := by
      rw [render_concat (by simp) (fun same => ?_)]
      · exact (endsBelow_render path h).ofText_append first
      · have last := congrArg List.getLast? same
        rw [List.getLast?_concat] at last
        exact h.ne_slash (Option.some.inj last)
    have others := ih (path ++ [last]) first fun s hs => down s (List.mem_cons_of_mem _ hs)
    rw [List.append_cons, others, one, List.append_assoc, List.singleton_append]

/-! ### Names at the end of paths -/

/-- The extension of the name that a path ends in. -/
def extension? (path : Path) : Option String :=
  path.name?.bind FileName.extension?

/-- The name that a path ends in, without its extension. -/
def stem? (path : Path) : Option String :=
  path.name?.map FileName.stem

/-- A path ends in its last step, if that leads down. -/
lemma LeadsDown.name? (path : Path) (h : LeadsDown step) : name? (path ++ [step]) = some step :=
  name?_concat path h.moves h.down h.ne_slash

end Path

/-- A part of a name leads one folder down. -/
lemma IsPart.leadsDown {part : String} (h : IsPart part) : Path.LeadsDown part where
  whole := h.no_slash
  moves := by
    obtain ⟨some, dot, -⟩ := isPart_iff.1 h
    simp [Path.stays, some, dot]
  down := (isPart_iff.1 h).2.2.1

/-- So does a part with a long enough text behind it. -/
lemma IsPart.leadsDown_append {part : String} (h : IsPart part) (tail : String)
    (whole : '/' ∉ tail.toList) (long : 2 < tail.length) : Path.LeadsDown (part ++ tail) := by
  have length : 2 < (part ++ tail).length := by
    rw [String.length_append]
    omega
  have other {short : String} (few : short.length ≤ 2) : part ++ tail ≠ short := by
    rintro rfl
    omega
  refine ⟨?_, ?_, other (by decide)⟩
  · rw [String.toList_append, List.mem_append, not_or]
    exact ⟨h.no_slash, whole⟩
  · simp only [Path.stays, Bool.or_eq_false_iff, beq_eq_false_iff_ne]
    exact ⟨other (by decide), other (by decide)⟩

namespace FileStore

variable {root : Path} {name other : SchemaName}

/-! ### Three steps below the folder of all schemas -/

/-- Steps below the folder of all schemas stay apart in the text of a path. -/
lemma ofText_render_below (root : Path) {steps : List String} (down : ∀ s ∈ steps, Path.LeadsDown s) :
    Path.ofText (Path.render (schemasPath root ++ steps)) =
      Path.ofText (schemasPath root).render ++ steps := by
  have schemas : Path.LeadsDown "schemas" := ⟨by decide, by decide, by decide⟩
  have text := Path.ofText_render_append root schemas down
  rwa [List.append_cons] at text

/-- Paths with one text have the same steps there. -/
lemma steps_eq_of_render {steps steps' : List String} (down : ∀ s ∈ steps, Path.LeadsDown s)
    (down' : ∀ s ∈ steps', Path.LeadsDown s)
    (same : Path.render (schemasPath root ++ steps) = Path.render (schemasPath root ++ steps')) :
    steps = steps' := by
  have read := congrArg Path.ofText same
  rw [ofText_render_below root down, ofText_render_below root down'] at read
  exact List.append_cancel_left read

/-- The path to the file of a schema: three steps below the folder of all schemas, none of which
leads elsewhere. Its extension is that of schema files, and in front of it stands the schema. -/
structure IsConfined (root : Path) (name : SchemaName) (path : Path) : Prop where
  steps : path = schemasPath root ++ [name.tenant, name.subject, name.schema ++ ".json"]
  text : Path.ofText path.render =
    Path.ofText (schemasPath root).render ++ [name.tenant, name.subject, name.schema ++ ".json"]
  down : ∀ step ∈ [name.tenant, name.subject, name.schema ++ ".json"], Path.LeadsDown step
  extension : path.extension? = some "json"
  stem : path.stem? = some name.schema

lemma isConfined_file (root : Path) (plain : name.IsPlain) (schema : IsPart name.schema) :
    IsConfined root name (name.file root) := by
  have steps : name.file root =
      schemasPath root ++ [name.tenant, name.subject, name.schema ++ ".json"] := by
    simp [SchemaName.file, SchemaName.folder, fileName_eq]
  have file : Path.LeadsDown (fileName name.schema) := by
    rw [fileName_eq]
    exact schema.leadsDown_append ".json" (by decide) (by decide)
  have down : ∀ step ∈ [name.tenant, name.subject, name.schema ++ ".json"], Path.LeadsDown step := by
    rw [← fileName_eq]
    simpa using ⟨plain.tenant.leadsDown, plain.subject.leadsDown, file⟩
  have named : (name.file root).name? = some (fileName name.schema) := file.name? _
  refine ⟨steps, ?_, down, ?_, ?_⟩
  · rw [steps, ofText_render_below root down]
  · rw [Path.extension?, named]
    exact extension?_fileName schema
  · rw [Path.stem?, named, Option.map_some, stem_fileName schema]

/-! ### Temporary files -/

/-- Where a file is first written. -/
def temporaryPath (path : Path) : Path :=
  path.dropLast ++ [temporaryName (path.getLast?.getD "")]

/-- A file is written under its temporary path, which then becomes its own. -/
lemma writeFile_eq (path : Path) (a : Aggregate) : writeFile path a = (do
    Storing.file (Filing.makeFolders path.dropLast)
    Storing.file (Filing.writeText (temporaryPath path) (Wire.aggregate.pretty a))
    Storing.file (Filing.rename (temporaryPath path) path)) :=
  rfl

/-- The temporary file of a schema lies beside its file. -/
lemma temporaryPath_file (root : Path) (schema : IsPart name.schema) :
    temporaryPath (name.file root) =
      schemasPath root ++ [name.tenant, name.subject, name.schema ++ ".json.tmp"] := by
  rw [temporaryPath, SchemaName.file, List.dropLast_concat, List.getLast?_concat, Option.getD_some,
    temporaryName_fileName schema]
  simp [SchemaName.folder]

/-- The steps to it lead down, too. -/
lemma leadsDown_temporary (plain : name.IsPlain) (schema : IsPart name.schema) :
    ∀ step ∈ [name.tenant, name.subject, name.schema ++ ".json.tmp"], Path.LeadsDown step := by
  simpa using ⟨plain.tenant.leadsDown, plain.subject.leadsDown,
    schema.leadsDown_append ".json.tmp" (by decide) (by decide)⟩

/-- Its extension is another one. -/
lemma extension?_temporaryPath (root : Path) (plain : name.IsPlain)
    (schema : IsPart name.schema) : (temporaryPath (name.file root)).extension? ≠ some "json" := by
  have down := leadsDown_temporary plain schema (name.schema ++ ".json.tmp") (by simp)
  have named : (temporaryPath (name.file root)).name? = some (name.schema ++ ".json.tmp") := by
    have split : temporaryPath (name.file root) =
        schemasPath root ++ [name.tenant, name.subject] ++ [name.schema ++ ".json.tmp"] := by
      rw [temporaryPath_file root schema, List.append_assoc]
      rfl
    rw [split]
    exact down.name? _
  rw [Path.extension?, named, Option.bind_some, ← temporaryName_fileName schema]
  exact Site.not_isSchemaFile_temporaryName schema

/-! ### Two names -/

/-- The files of two schemas are the same, as paths and as texts, only if the schemas have one name
apart from the version, and so are their temporary files. No temporary file is the file of a
schema. -/
structure IsApart (name : SchemaName) (path : Path) (other : SchemaName) (path' : Path) :
    Prop where
  same : path = path' ↔ name.unversioned = other.unversioned
  text : path.render = path'.render ↔ name.unversioned = other.unversioned
  spare : (temporaryPath path).render ≠ path'.render
  temporary : (temporaryPath path).render = (temporaryPath path').render ↔
    name.unversioned = other.unversioned

/-- Names are the same apart from the version if their parts are. -/
lemma unversioned_eq_of_parts {suffix : String}
    (same : [name.tenant, name.subject, name.schema ++ suffix] =
      [other.tenant, other.subject, other.schema ++ suffix]) :
    name.unversioned = other.unversioned := by
  simp only [List.cons.injEq, and_true] at same
  have texts := congrArg String.toList same.2.2
  rw [String.toList_append, String.toList_append] at texts
  have schema := String.toList_inj.1 (List.append_cancel_right texts)
  exact SchemaName.unversioned_eq_iff.2
    ⟨SchemaName.eq_subjectRef_iff.2 ⟨same.1, same.2.1⟩, schema⟩

lemma isApart_file (plain : name.IsPlain) (schema : IsPart name.schema)
    (plain' : other.IsPlain) (schema' : IsPart other.schema) :
    IsApart name (name.file root) other (other.file root) := by
  have confined := isConfined_file root plain schema
  have confined' := isConfined_file root plain' schema'
  have down := leadsDown_temporary plain schema
  have down' := leadsDown_temporary plain' schema'
  have one (same : name.unversioned = other.unversioned) : name.file root = other.file root := by
    obtain ⟨subject, schema⟩ := SchemaName.unversioned_eq_iff.1 same
    exact SchemaName.file_congr subject schema
  have texts (same : (name.file root).render = (other.file root).render) :
      name.unversioned = other.unversioned := by
    rw [confined.steps, confined'.steps] at same
    exact unversioned_eq_of_parts (steps_eq_of_render confined.down confined'.down same)
  refine ⟨⟨fun same => texts (congrArg _ same), one⟩, ⟨texts, fun same => congrArg _ (one same)⟩,
    fun same => ?_, fun same => ?_, fun same => congrArg (fun p => (temporaryPath p).render)
      (one same)⟩
  · -- both are three steps below the same folder, but the extensions differ
    have spare := extension?_temporaryPath root plain schema
    rw [temporaryPath_file root schema] at same spare
    rw [confined'.steps] at same
    rw [steps_eq_of_render down confined'.down same, ← confined'.steps] at spare
    exact spare confined'.extension
  · rw [temporaryPath_file root schema, temporaryPath_file root schema'] at same
    exact unversioned_eq_of_parts (steps_eq_of_render down down' same)

/-- **The files of schemas are confined and kept apart**, whatever the parts of names are. -/
theorem files_kept_apart (root : Path) (name : SchemaName) :
    (∃ part, IsBadPart (name.part part) ∧
      schemaPath root name = .error (.invalidKey (name.part part))) ∨
    ∃ path, schemaPath root name = .ok path ∧ IsConfined root name path ∧
      (∀ a, writeFile path a = do
        Storing.file (Filing.makeFolders path.dropLast)
        Storing.file (Filing.writeText (temporaryPath path) (Wire.aggregate.pretty a))
        Storing.file (Filing.rename (temporaryPath path) path)) ∧
      (temporaryPath path).extension? ≠ some "json" ∧
      ∀ other path', schemaPath root other = .ok path' → IsApart name path other path' := by
  rcases name.schemaPath_cases root with ⟨plain, schema, taken⟩ | ⟨x, refused⟩
  · refine .inr ⟨name.file root, taken, isConfined_file root plain schema, writeFile_eq _,
      extension?_temporaryPath root plain schema, fun other path' taken' => ?_⟩
    rcases other.schemaPath_cases root with ⟨plain', schema', here⟩ | ⟨x, refused⟩
    · rw [here] at taken'
      cases taken'
      exact isApart_file plain schema plain' schema'
    · rw [refused] at taken'
      cases taken'
  · obtain ⟨part, -, bad, same⟩ := SchemaName.of_schemaPath_error refused
    exact .inl ⟨part, bad, by rw [refused, same]⟩

end FileStore

end SchemaLedger
