import Mathlib.Data.String.Basic
import Mathlib.Tactic
import SchemaLedger.Files.Disk

/-!
Names of files and the texts of paths.

* `FileName.splitLast_append`: a name is split at its last dot. The laws of `extension?`, `stem`
  and `withExtension` for a name with an extension follow.
* `Path.slash_not_mem_tail_ofText`: behind its first step, a path does not start anew from the root.
* `Path.Fits`: the file system takes a path; then it takes the path to every folder on the way
  (`Path.Fits.of_append`).
-/

namespace SchemaLedger

namespace FileName

/-- A name is split at its last dot. -/
lemma splitLast_append (before : List Char) {after : List Char} (h : '.' ∉ after) :
    splitLast (before ++ '.' :: after) = some (before, after) := by
  have found : (before ++ '.' :: after).reverse.takeWhile (· != '.') = after.reverse := by
    have reversed : (before ++ '.' :: after).reverse = after.reverse ++ '.' :: before.reverse := by
      simp
    rw [reversed, List.takeWhile_append_of_pos fun c hc => bne_iff_ne.2 ?_, List.takeWhile_cons]
    · simp
    · rintro rfl
      exact h (List.mem_reverse.1 hc)
  have shorter : after.reverse.length ≠ (before ++ '.' :: after).length := by
    rw [List.length_reverse, List.length_append, List.length_cons]
    omega
  have count : (before ++ '.' :: after).length - after.reverse.length - 1 = before.length := by
    rw [List.length_reverse, List.length_append, List.length_cons]
    omega
  simp only [splitLast, found, if_neg shorter, count, List.take_left, List.reverse_reverse]

variable {name ext : String}

/-- A name with an extension is split in front of the extension. -/
lemma splitLast_toList_append (name : String) (dotless : '.' ∉ ext.toList) :
    splitLast (name ++ "." ++ ext).toList = some (name.toList, ext.toList) := by
  simpa using splitLast_append name.toList dotless

/-- What follows the last dot of a name is its extension. -/
lemma extension?_append (named : name ≠ "") (dotless : '.' ∉ ext.toList) (more : ext ≠ "") :
    extension? (name ++ "." ++ ext) = some ext := by
  have length : name ++ "." ++ ext ≠ ".." := by
    intro h
    have before : 0 < name.length := by simpa [Nat.pos_iff_ne_zero] using named
    have after : 0 < ext.length := by simpa [Nat.pos_iff_ne_zero] using more
    have both := congrArg String.length h
    simp only [String.length_append] at both
    change name.length + 1 + ext.length = 2 at both
    omega
  rw [extension?.eq_def, splitLast_toList_append name dotless]
  simp [length, named]

/-- A name ends in no other extension. -/
lemma eq_of_extension?_append (dotless : '.' ∉ ext.toList) {other : String}
    (h : extension? (name ++ "." ++ ext) = some other) : ext = other := by
  rw [extension?.eq_def, splitLast_toList_append name dotless] at h
  dsimp only at h
  split_ifs at h
  rw [String.ofList_toList] at h
  exact Option.some.inj h

/-- The name in front of an extension. -/
lemma stem_append (named : name ≠ "") (dotless : '.' ∉ ext.toList) (more : ext ≠ "") :
    stem (name ++ "." ++ ext) = name := by
  rw [stem, extension?_append named dotless more, splitLast_toList_append name dotless]
  exact String.ofList_toList

/-- A name with an extension is none of the steps that lead elsewhere. -/
lemma not_mem_special (name : String) (dotless : '.' ∉ ext.toList) (more : ext ≠ "") :
    name ++ "." ++ ext ∉ ["", ".", "..", "/"] := by
  intro special
  obtain ⟨before, last, split⟩ : ∃ before last, ext.toList = before ++ [last] := by
    refine (List.eq_nil_or_concat' ext.toList).resolve_left fun empty => more ?_
    rw [← String.toList_inj, empty]
    rfl
  -- it has a dot in it, but none at its end
  have dot : '.' ∈ (name ++ "." ++ ext).toList := by simp
  have ends : (name ++ "." ++ ext).toList.getLast? = some last := by
    have chars : (name ++ "." ++ ext).toList = name.toList ++ '.' :: before ++ [last] := by
      simp [split]
    rw [chars, List.getLast?_concat]
  have other : last ≠ '.' := by
    rintro rfl
    exact dotless (by simp [split])
  simp only [List.mem_cons, List.not_mem_nil, or_false] at special
  rcases special with same | same | same | same <;> rw [same] at dot ends
  · exact absurd dot (by decide)
  · exact other (Option.some.inj ends).symm
  · exact other (Option.some.inj ends).symm
  · exact absurd dot (by decide)

/-- Another extension takes the place of the one that is there. -/
lemma withExtension_append (named : name ≠ "") (dotless : '.' ∉ ext.toList) (more : ext ≠ "")
    (other : String) : withExtension (name ++ "." ++ ext) other = name ++ "." ++ other := by
  rw [withExtension, stem_append named dotless more]

end FileName

namespace Path

/-! ### The steps of a path -/

section Steps

open String

/-- The parts between slashes, where the part that was begun starts behind others. -/
lemma splitOnAux_slash (before part rest : List Char) (parts : List String) :
    splitOnAux (ofList (before ++ part ++ rest)) "/" ⟨utf8Len before⟩
      ⟨utf8Len before + utf8Len part⟩ 0 parts =
        parts.reverse ++ (rest.splitOnPPrepend (· == '/') part.reverse).map ofList := by
  induction rest generalizing before part parts with
  | nil =>
    have ends := atEnd_of_valid (before ++ part) []
    have here := extract_of_valid before part []
    rw [utf8Len_append] at ends
    rw [splitOnAux, if_pos (ends.2 rfl)]
    simp only [here, List.splitOnPPrepend_nil, List.reverse_reverse]
    simp
  | cons c rest ih =>
    have more := atEnd_of_valid (before ++ part) (c :: rest)
    have get := get_of_valid (before ++ part) (c :: rest)
    have next := next_of_valid (before ++ part) c rest
    have here := extract_of_valid before part (c :: rest)
    rw [utf8Len_append] at more get next
    have slash : Pos.Raw.get "/" 0 = '/' := by decide
    have after : Pos.Raw.next "/" 0 = ⟨1⟩ := by decide
    have last : Pos.Raw.atEnd "/" ⟨1⟩ = true := by decide
    have still (i : Pos.Raw) : i.unoffsetBy 0 = i := rfl
    rw [splitOnAux, if_neg fun h => absurd (more.1 h) (List.cons_ne_nil _ _)]
    simp only [get, next, slash, after, last, still, if_true, List.headD_cons]
    split_ifs with same
    · -- the part ends, and the next one starts behind the slash
      have same : c = '/' := by simpa using same
      subst same
      have back : (⟨utf8Len before + utf8Len part + '/'.utf8Size⟩ : Pos.Raw).unoffsetBy ⟨1⟩ =
          ⟨utf8Len before + utf8Len part⟩ := rfl
      have next := ih (before ++ part ++ ['/']) [] (ofList part :: parts)
      rw [back, here, List.splitOnPPrepend_cons_eq_if, if_pos (beq_self_eq_true _)]
      simpa [-ofList_append, Nat.add_assoc] using next
    · have next := ih before (part ++ [c]) parts
      rw [List.splitOnPPrepend_cons_eq_if, if_neg same]
      simpa [-ofList_append, Nat.add_assoc] using next

/-- The parts of a text between slashes. -/
lemma splitOn_slash (s : String) :
    s.splitOn "/" = (s.toList.splitOnP (· == '/')).map ofList := by
  have parts := splitOnAux_slash [] [] s.toList []
  rw [List.nil_append, List.nil_append, ofList_toList] at parts
  rw [splitOn, if_neg (by decide)]
  exact parts

/-- No part between slashes has a slash in it. -/
lemma slash_not_mem_splitOn (s : String) {part : String} (h : part ∈ s.splitOn "/") :
    '/' ∉ part.toList := by
  have apart (cs before : List Char) (clean : '/' ∉ before) :
      ∀ part ∈ cs.splitOnPPrepend (· == '/') before, '/' ∉ part := by
    induction cs generalizing before with
    | nil => simpa using clean
    | cons c cs ih =>
      rw [List.splitOnPPrepend_cons_eq_if]
      split_ifs with same
      · simpa [clean] using ih [] (by simp)
      · refine ih (c :: before) ?_
        rintro (_ | ⟨_, old⟩)
        · exact same rfl
        · exact clean old
  rw [splitOn_slash, List.mem_map] at h
  obtain ⟨cs, here, rfl⟩ := h
  simpa using apart s.toList [] (by simp) cs here

end Steps

/-- Behind its first step, a path does not start anew from the root. -/
lemma slash_not_mem_tail_ofText (s : String) : "/" ∉ (ofText s).tail := by
  have steps :
      "/" ∉ ((s.splitOn "/").filter fun step => !stays step) ++ ending (s.splitOn "/") := by
    intro h
    rcases List.mem_append.1 h with part | last
    · exact absurd (slash_not_mem_splitOn s (List.mem_filter.1 part).1) (by decide)
    · rw [ending] at last
      split at last
      · cases last
      · cases last
      · exact absurd last (by decide)
      · split_ifs at last
        · exact absurd last (by decide)
        · cases last
  rw [ofText]
  split_ifs
  · exact steps
  · exact fun h => steps (List.mem_of_mem_tail h)

/-- Another name at the end makes no difference to this. -/
lemma slash_not_mem_tail_withName {path : Path} {name : String} (h : "/" ∉ path.tail)
    (other : name ≠ "/") : "/" ∉ (path.withName name).tail := by
  have before : path.withoutEnding.dropLast <+: path := by
    refine (List.dropLast_prefix _).trans ?_
    rw [withoutEnding]
    split
    · split_ifs
      · exact List.dropLast_prefix path
      · exact List.prefix_refl path
    · exact List.nil_prefix
  rw [withName]
  cases start : path.withoutEnding.dropLast with
  | nil => simp
  | cons step steps =>
    rw [start] at before
    obtain ⟨rest, rfl⟩ := before
    simp only [List.cons_append, List.tail_cons, List.mem_append, not_or] at h ⊢
    exact ⟨h.1, fun last => other (List.mem_singleton.1 last).symm⟩

/-- A path ends in its last step, if that leads down. -/
lemma name?_concat (path : Path) {step : String} (moves : stays step = false) (down : step ≠ "..")
    (relative : step ≠ "/") : name? (path ++ [step]) = some step := by
  have steps : withoutEnding (path ++ [step]) = path ++ [step] := by
    rw [withoutEnding, List.getLast?_concat]
    simp [moves]
  rw [name?, steps, List.getLast?_concat]
  simp [down, relative]

/-- A path ends in the name that was put at its end. -/
lemma name?_withName (path : Path) {name : String} (h : name ∉ ["", ".", "..", "/"]) :
    name? (path.withName name) = some name := by
  simp only [List.mem_cons, List.not_mem_nil, or_false, not_or] at h
  obtain ⟨some, other, down, relative⟩ := h
  exact name?_concat _ (by simp [stays, some, other]) down relative

/-- The file system takes a path: neither one of its steps nor its text is too long. -/
structure Fits (path : Path) : Prop where
  steps : ∀ step ∈ path, step.utf8ByteSize ≤ Disk.maxName
  text : path.render.utf8ByteSize ≤ Disk.maxPath

/-- One more step makes the text of a path no shorter. -/
lemma size_render_le (path : Path) {step : String} (h : step ≠ "") :
    path.render.utf8ByteSize ≤ (render (path ++ [step])).utf8ByteSize := by
  have some : 0 < step.utf8ByteSize := by
    rw [Nat.pos_iff_ne_zero]
    simpa using h
  have more {steps : List String} (first : steps ≠ []) :
      ("/".intercalate steps).utf8ByteSize ≤ ("/".intercalate (steps ++ [step])).utf8ByteSize := by
    rw [String.intercalate_append_of_ne_nil first (List.cons_ne_nil _ _)]
    simp only [String.utf8ByteSize_append]
    omega
  rcases path with - | ⟨first, rest⟩
  · have dot : (render []).utf8ByteSize = 1 := rfl
    by_cases slash : step = "/"
    · subst slash
      exact Nat.le_refl 1
    · rw [dot, List.nil_append]
      simpa [render, slash] using Nat.succ_le_of_lt some
  · by_cases root : first = "/"
    · subst root
      rcases rest with - | ⟨second, rest⟩
      · simp [render]
      · have := more (List.cons_ne_nil second rest)
        simpa [render] using this
    · have := more (List.cons_ne_nil first rest)
      simpa [render, root] using this

/-- With a path, the path to the folder it lies in is taken. -/
lemma Fits.of_append {path : Path} {step : String} (h : Fits (path ++ [step])) (named : step ≠ "") :
    Fits path :=
  ⟨fun s hs => h.steps s (List.mem_append_left _ hs), (size_render_le path named).trans h.text⟩

instance {path : Path} : Decidable path.Fits :=
  decidable_of_iff ((∀ step ∈ path, step.utf8ByteSize ≤ Disk.maxName) ∧
    path.render.utf8ByteSize ≤ Disk.maxPath) ⟨fun h => ⟨h.1, h.2⟩, fun h => ⟨h.steps, h.text⟩⟩

/-- One more step is one more part of the text, behind a slash. -/
lemma render_concat {path : Path} (some : path ≠ []) (more : path ≠ ["/"]) (step : String) :
    render (path ++ [step]) = path.render ++ "/" ++ step := by
  have joined {steps : List String} (first : steps ≠ []) :
      "/".intercalate (steps ++ [step]) = "/".intercalate steps ++ "/" ++ step := by
    rw [String.intercalate_append_of_ne_nil first (List.cons_ne_nil _ _)]
    rfl
  rcases path with - | ⟨first, rest⟩
  · exact absurd rfl some
  · by_cases root : first = "/"
    · subst root
      rcases rest with - | ⟨second, rest⟩
      · exact absurd rfl more
      · have text : render ("/" :: second :: rest ++ [step]) =
            "/" ++ "/".intercalate (second :: rest ++ [step]) := rfl
        rw [text, joined (List.cons_ne_nil _ _)]
        simp only [render, String.append_assoc]
    · have := joined (List.cons_ne_nil first rest)
      simpa [render, root] using this

/-- The last step of a path stands at the end of its text. -/
lemma render_append {path : Path} (some : path ≠ []) :
    ∃ before, ∀ step, render (path ++ [step]) = before ++ step := by
  by_cases root : path = ["/"]
  · subst root
    exact ⟨"/", fun step => rfl⟩
  · exact ⟨path.render ++ "/", render_concat some root⟩

/-- With a path, the one with a shorter name at its end is taken. -/
lemma Fits.of_shorter {path : Path} {long short : String} (h : Fits (path ++ [long]))
    (some : path ≠ []) (shorter : short.utf8ByteSize ≤ long.utf8ByteSize) :
    Fits (path ++ [short]) where
  steps s hs := by
    rcases List.mem_append.1 hs with before | last
    · exact h.steps s (List.mem_append_left _ before)
    · rw [List.mem_singleton.1 last]
      exact shorter.trans (h.steps long (by simp))
  text := by
    obtain ⟨before, text⟩ := render_append some
    have fits := h.text
    rw [text, String.utf8ByteSize_append] at fits ⊢
    omega

end Path

end SchemaLedger
