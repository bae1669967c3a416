import Mathlib.Tactic
import SchemaLedger.Failure

/-!
What a key tells of a name, and which names are valid.

A key joins the parts of a name by slashes.  It can be split again where no part but the last
holds a slash of its own (`SchemaName.HasPlainScope`): then keys tell subjects and schemas apart
(`SchemaName.subjectRef_eq_of_subjectKey`, `SchemaName.unversioned_eq_of_fullName`).  In general
they do not.

A name is valid for a call if no part is blank that the call needs (`SchemaName.check_eq_ok_iff`).
-/

namespace SchemaLedger

/-- Two texts are the same if they are split at their first slash into the same parts. -/
lemma append_slash_inj {x y x' y' : List Char} (hx : '/' ∉ x) (hy : '/' ∉ y)
    (h : x ++ '/' :: x' = y ++ '/' :: y') : x = y ∧ x' = y' := by
  induction x generalizing y with
  | nil =>
    cases y with
    | nil => exact ⟨rfl, by simpa using h⟩
    | cons d y =>
      obtain ⟨rfl, -⟩ := List.cons.inj h
      exact absurd (List.mem_cons_self ..) hy
  | cons c x ih =>
    cases y with
    | nil =>
      obtain ⟨rfl, -⟩ := List.cons.inj h
      exact absurd (List.mem_cons_self ..) hx
    | cons d y =>
      obtain ⟨rfl, tails⟩ := List.cons.inj h
      obtain ⟨rfl, same⟩ := ih (fun m => hx (List.mem_cons_of_mem _ m))
        (fun m => hy (List.mem_cons_of_mem _ m)) tails
      exact ⟨rfl, same⟩

namespace SchemaName

variable {m n : SchemaName}

/-- The full name is made of the subject's key and the schema. -/
lemma fullName_eq (n : SchemaName) : n.fullName = n.subjectRef.key ++ "/" ++ n.schema :=
  rfl

lemma subjectKey_eq (n : SchemaName) : n.subjectKey = n.subjectRef.key :=
  rfl

@[simp] lemma fullName_unversioned (n : SchemaName) : n.unversioned.fullName = n.fullName :=
  rfl

@[simp] lemma subjectKey_unversioned (n : SchemaName) :
    n.unversioned.subjectKey = n.subjectKey :=
  rfl

/-- But for the version, a name is its subject and its schema. -/
lemma unversioned_eq_iff :
    m.unversioned = n.unversioned ↔ m.subjectRef = n.subjectRef ∧ m.schema = n.schema := by
  simp [unversioned, subjectRef, and_assoc]

/-- Neither tenant nor subject holds a slash. -/
structure HasPlainScope (n : SchemaName) : Prop where
  tenant : '/' ∉ n.tenant.toList
  subject : '/' ∉ n.subject.toList

/-- Different subjects have different keys, if no tenant holds a slash. -/
lemma subjectRef_eq_of_subjectKey (hm : m.HasPlainScope) (hn : n.HasPlainScope)
    (h : m.subjectKey = n.subjectKey) : m.subjectRef = n.subjectRef := by
  have texts := congrArg String.toList h
  simp only [subjectKey, String.toList_append, List.append_assoc] at texts
  obtain ⟨tenant, subject⟩ := append_slash_inj hm.tenant hn.tenant texts
  rw [subjectRef, subjectRef, String.toList_inj.1 tenant, String.toList_inj.1 subject]

/-- Different schemas have different full names, if neither tenant nor subject holds a slash. -/
lemma unversioned_eq_of_fullName (hm : m.HasPlainScope) (hn : n.HasPlainScope)
    (h : m.fullName = n.fullName) : m.unversioned = n.unversioned := by
  have texts := congrArg String.toList h
  simp only [fullName, String.toList_append, List.append_assoc] at texts
  obtain ⟨tenant, rest⟩ := append_slash_inj hm.tenant hn.tenant texts
  obtain ⟨subject, schema⟩ := append_slash_inj hm.subject hn.subject rest
  refine unversioned_eq_iff.2 ⟨?_, String.toList_inj.1 schema⟩
  rw [subjectRef, subjectRef, String.toList_inj.1 tenant, String.toList_inj.1 subject]

/-- Only a name without slashes in its parts shares its subject's key with another such name. -/
lemma HasPlainScope.of_subjectKey (hn : n.HasPlainScope) (h : m.subjectKey = n.subjectKey) :
    m.HasPlainScope := by
  have slashes := congrArg (fun s : String => s.toList.count '/') h
  simp [subjectKey, List.count_eq_zero.2 hn.tenant, List.count_eq_zero.2 hn.subject] at slashes
  exact ⟨List.count_eq_zero.1 (by omega), List.count_eq_zero.1 (by omega)⟩

/-- Only a name without slashes in its parts shares its full name with another such name. -/
lemma HasPlainScope.of_fullName (hn : n.HasPlainScope) (schema : '/' ∉ n.schema.toList)
    (h : m.fullName = n.fullName) : m.HasPlainScope := by
  have slashes := congrArg (fun s : String => s.toList.count '/') h
  simp [fullName, List.count_eq_zero.2 hn.tenant, List.count_eq_zero.2 hn.subject,
    List.count_eq_zero.2 schema] at slashes
  exact ⟨List.count_eq_zero.1 (by omega), List.count_eq_zero.1 (by omega)⟩

/-- A slash of a part is taken for one that joins two parts. -/
example : (⟨"a/b", "c", "d", none⟩ : SchemaName).fullName =
    (⟨"a", "b/c", "d", none⟩ : SchemaName).fullName := by
  rfl

/-! ### Valid names -/

/-- A name is valid if none of its parts is blank that are needed. -/
lemma check_eq_ok_iff {parts : List NamePart} :
    n.check parts = .ok () ↔ ∀ p ∈ parts, Text.isBlank (n.part p) = false := by
  rw [check]
  cases first : n.blankPart? parts with
  | some p =>
    have blank := List.find?_some first
    constructor
    · intro valid
      cases valid
    · intro filled
      rw [filled p (List.mem_of_find?_eq_some first)] at blank
      cases blank
  | none => exact iff_of_true rfl fun p hp => Bool.eq_false_iff.2 (List.find?_eq_none.1 first p hp)

/-- The version that a name selects is not checked. -/
lemma check_congr {parts : List NamePart} (tenant : m.tenant = n.tenant)
    (subject : m.subject = n.subject) (schema : m.schema = n.schema)
    (valid : n.check parts = .ok ()) : m.check parts = .ok () := by
  have same (p : NamePart) : m.part p = n.part p := by
    cases p with
    | tenant => exact tenant
    | subject => exact subject
    | schema => exact schema
  refine check_eq_ok_iff.2 fun p hp => ?_
  rw [same]
  exact check_eq_ok_iff.1 valid p hp

/-- A name that is valid for a read of its schema is valid for reads of its subject, and so is any
other name of the subject. -/
lemma check_subjectParts (same : m.subjectRef = n.subjectRef)
    (valid : n.check schemaParts = .ok ()) : m.check subjectParts = .ok () := by
  have filled := check_eq_ok_iff.1 valid
  have tenant : m.part .tenant = n.part .tenant := congrArg SubjectRef.tenant same
  have subject : m.part .subject = n.part .subject := congrArg SubjectRef.subject same
  refine check_eq_ok_iff.2 fun p hp => ?_
  rcases List.mem_pair.1 hp with rfl | rfl
  · exact tenant ▸ filled .tenant (by decide)
  · exact subject ▸ filled .subject (by decide)

end SchemaName

end SchemaLedger
