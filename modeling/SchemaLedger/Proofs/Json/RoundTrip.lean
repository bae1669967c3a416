import SchemaLedger.Proofs.Json.Brackets

/-!
What is written as JSON is read back.

* `Codec.IsClear`: no two fields of a record share a key, what may be left open as `null` is not
  itself written as `null`, and numbers have at most 64 bits.
* `Codec.reads_writeAt`: a clear description reads back every value that fits it, in either
  layout and at any depth, and stops behind it; by one induction over descriptions.
* `Codec.read_compact`, `Codec.read_pretty`: the same for a whole text.
-/

namespace SchemaLedger

/-- The text of a name behind all others comes last. -/
lemma Labels.insertEntry_of_lt {key value : String} {entries : List (String × String)}
    (h : ∀ e ∈ entries, e.1 < key) :
    insertEntry key value entries = entries ++ [(key, value)] := by
  induction entries with
  | nil => rfl
  | cons e entries ih =>
    obtain ⟨k, v⟩ := e
    have first : k < key := h (k, v) (List.mem_cons_self ..)
    rw [insertEntry, if_neg (String.lt_asymm first), if_pos first,
      ih fun e he => h e (List.mem_cons_of_mem _ he), List.cons_append]

namespace Json

/-! ### Labels -/

/-- A label is read and put behind the others. -/
lemma readsMember_label (layout : Layout) (found : Labels) (key value : String) :
    ReadsMember readLabel layout key (Quoted.encode value) found (found.insert key value) := by
  intro rest _
  obtain ⟨pre, blanks, colon⟩ := layout.colon_append (Quoted.encode value ++ rest)
  rw [readLabel, colon]
  simp only [bind, Except.bind, readText_encode blanks]

/-- Sorted labels are read one after the other. -/
lemma readsMembers_labels (layout : Layout) {found l : Labels} {entries : List (String × String)}
    (h : l.entries = found.entries ++ entries) :
    ReadsMembers readLabel layout (entries.map fun e => (e.1, Quoted.encode e.2)) found l := by
  induction entries generalizing found with
  | nil =>
    obtain ⟨done, sorted⟩ := found
    obtain ⟨all, sorted'⟩ := l
    obtain rfl : all = done := by simpa using h
    exact .nil _
  | cons e entries ih =>
    obtain ⟨key, value⟩ := e
    refine .cons (readsMember_label layout found key value) (ih ?_)
    have below : ∀ e ∈ found.entries, e.1 < key := by
      intro e he
      have sorted := l.sorted
      rw [h] at sorted
      exact (List.pairwise_append.1 sorted).2.2 e he (key, value) (List.mem_cons_self ..)
    have last : (found.insert key value).entries = found.entries ++ [(key, value)] :=
      Labels.insertEntry_of_lt below
    rw [h, last, List.append_assoc, List.singleton_append]

/-! ### Clear descriptions -/

/-- Some value is written as `null`. -/
@[simp] def Codec.mayBeNull : {α : Type} → Codec α → Bool
  | _, .optional _ => true
  | _, .via inner _ _ _ => inner.mayBeNull
  | _, _ => false

mutual
/-- Nothing in the description makes a written value ambiguous. -/
@[simp] def Codec.IsClear : {α : Type} → Codec α → Prop
  | _, .number limit _ _ _ _ => limit ≤ Word.limit 64
  | _, .optional item => item.IsClear ∧ item.mayBeNull = false
  | _, .list item => item.IsClear
  | _, .via inner _ _ _ => inner.IsClear
  | _, .record _ fields _ _ _ => fields.IsClear
  | _, _ => True

/-- Nothing in the descriptions of the fields makes them ambiguous, and their keys differ. -/
@[simp] def Fields.IsClear : {ρ σ : Type} → Fields ρ σ → Prop
  | _, _, .nil => True
  | _, _, .cons key _ codec rest => key ∉ rest.keys ∧ codec.IsClear ∧ rest.IsClear
end

/-- A text with a first character that starts a value other than `null`. -/
lemma startsValue_cons {c : Char} (start : IsStart c) (other : c ≠ 'n') (cs : List Char)
    (p : Prop) : StartsValue (c :: cs) ∧ (p → (c :: cs).head? ≠ some 'n') :=
  ⟨⟨c, cs, rfl, start⟩, fun _ h => other (Option.some.inj h)⟩

/-- A quote, a bracket or a digit starts a value other than `null`. -/
lemma isStart_quote : IsStart '"' := ⟨rfl, by decide, by decide, by decide⟩

lemma isStart_sequence : IsStart '[' := ⟨rfl, by decide, by decide, by decide⟩

lemma isStart_map : IsStart '{' := ⟨rfl, by decide, by decide, by decide⟩

lemma isStart_of_isDigit {c : Char} (h : c.isDigit = true) : IsStart c ∧ c ≠ 'n' := by
  refine ⟨⟨isBlank_of_isDigit h, ?_, ?_, ?_⟩, ?_⟩ <;>
  · rintro rfl
    cases h

/-- A written value starts like a value, and only `null` starts like `null`. -/
lemma Codec.startsValue_writeAt (layout : Layout) : {α : Type} → (c : Codec α) →
    (depth : Nat) → (a : α) → StartsValue (c.writeAt layout depth a) ∧
      (c.mayBeNull = false → (c.writeAt layout depth a).head? ≠ some 'n')
  | _, .text _, _, _ => startsValue_cons isStart_quote (by decide) _ _
  | _, .flag, _, true =>
    startsValue_cons ⟨rfl, by decide, by decide, by decide⟩ (by decide) ['r', 'u', 'e'] _
  | _, .flag, _, false =>
    startsValue_cons ⟨rfl, by decide, by decide, by decide⟩ (by decide) ['a', 'l', 's', 'e'] _
  | _, .number _ _ toNat _ _, _, a => by
    obtain ⟨d, ds, hd⟩ := List.exists_cons_of_ne_nil (Text.digits_ne_nil (toNat a))
    have digit : d.isDigit = true :=
      Text.isDigit_of_mem_digits (by rw [hd]; exact List.mem_cons_self ..)
    rw [writeAt, hd]
    exact startsValue_cons (isStart_of_isDigit digit).1 (isStart_of_isDigit digit).2 _ _
  | _, .instant, _, _ => startsValue_cons isStart_quote (by decide) _ _
  | _, .choice _ _ _, _, _ => startsValue_cons isStart_quote (by decide) _ _
  | _, .optional _, _, none =>
    ⟨⟨'n', ['u', 'l', 'l'], rfl, rfl, by decide, by decide, by decide⟩, nofun⟩
  | _, .optional item, depth, some a => ⟨(item.startsValue_writeAt layout depth a).1, nofun⟩
  | _, .list _, _, _ => by
    rw [writeAt, Layout.enclose_eq]
    exact startsValue_cons isStart_sequence (by decide) _ _
  | _, .labels, _, _ => by
    rw [writeAt, Layout.enclose_eq]
    exact startsValue_cons isStart_map (by decide) _ _
  | _, .via inner split _ _, depth, a => inner.startsValue_writeAt layout depth (split a)
  | _, .record _ _ _ _ _, _, _ => by
    rw [writeAt, Layout.enclose_eq]
    exact startsValue_cons isStart_map (by decide) _ _

/-- The members of a record that are not left out. -/
def Fields.pairs (layout : Layout) : {ρ σ : Type} → Fields ρ σ → Nat → ρ →
    List (String × List Char)
  | _, _, .nil, _, _ => []
  | _, _, .cons key presence codec rest, depth, (a, r) =>
    if presence.leavesOut a then rest.pairs layout depth r
    else (key, codec.writeAt layout depth a) :: rest.pairs layout depth r

lemma Fields.members_eq (layout : Layout) : {ρ σ : Type} → (fields : Fields ρ σ) →
    (depth : Nat) → (r : ρ) →
    fields.members layout depth r = layout.members (fields.pairs layout depth r)
  | _, _, .nil, _, _ => rfl
  | _, _, .cons key presence codec rest, depth, (a, r) => by
    have others := rest.members_eq layout depth r
    rw [members, pairs]
    split
    · exact others
    · rw [others]
      rfl

lemma Fields.mem_keys_of_mem_pairs (layout : Layout) : {ρ σ : Type} → (fields : Fields ρ σ) →
    (depth : Nat) → (r : ρ) → ∀ m ∈ fields.pairs layout depth r, m.1 ∈ fields.keys
  | _, _, .nil, _, _, m, hm => nomatch hm
  | _, _, .cons key presence codec rest, depth, (a, r), m, hm => by
    rw [pairs] at hm
    split at hm
    · exact List.mem_cons_of_mem _ (rest.mem_keys_of_mem_pairs layout depth r m hm)
    · rcases List.mem_cons.1 hm with rfl | hm
      · exact List.mem_cons_self ..
      · exact List.mem_cons_of_mem _ (rest.mem_keys_of_mem_pairs layout depth r m hm)

/-- Members with other keys pass by a field. -/
lemma Fields.readsMembers_cons {α ρ σ : Type} {key : String} {presence : Presence α}
    {codec : Codec α} {rest : Fields ρ σ} {layout : Layout} {members : List (String × List Char)}
    {s s' : σ} (h : ReadsMembers rest.readMember layout members s s') (found : Option α)
    (others : ∀ m ∈ members, m.1 ≠ key) :
    ReadsMembers (Fields.cons key presence codec rest).readMember layout members (found, s)
      (found, s') := by
  induction h with
  | nil s => exact .nil _
  | cons first _ ih =>
    refine .cons (fun text after => ?_) (ih fun m hm => others m (List.mem_cons_of_mem _ hm))
    simp only [readMember, if_neg (others _ (List.mem_cons_self ..)), first text after]
    rfl

/-- There are fewer members than characters. -/
lemma Layout.length_members_lt (layout : Layout) (depth : Nat)
    (members : List (String × List Char)) (rest : List Char) :
    members.length < (layout.body '}' depth (layout.members members) ++ rest).length + 1 := by
  have some : ∀ text ∈ layout.members members, text ≠ [] := by
    intro text h
    obtain ⟨m, -, rfl⟩ := List.mem_map.1 h
    simp [member, Quoted.encode]
  have fewer := layout.length_lt_body '}' depth some
  rw [Layout.members, List.length_map] at fewer
  rw [List.length_append, Layout.members]
  omega

/-- A map is read back from its bracket on. -/
lemma readMembers_enclose {σ : Type}
    {member : String → σ → List Char → Except Offence (σ × List Char)} {layout : Layout}
    {members : List (String × List Char)} {s s' : σ} (h : ReadsMembers member layout members s s')
    (depth : Nat) (rest : List Char) :
    readMembers member ((layout.body '}' depth (layout.members members) ++ rest).length + 1) true s
      (layout.body '}' depth (layout.members members) ++ rest) = .ok (s', rest) :=
  readMembers_body h depth (layout.length_members_lt depth members rest) rest

/-- A field that is left out has the value of a missing one. -/
lemma Presence.fallback?_of_leavesOut {α : Type} {presence : Presence α} {a : α}
    (h : presence.leavesOut a = true) : presence.fallback? = some a := by
  cases presence with
  | required => cases h
  | defaulted value => cases h
  | omitted value isAbsent eq_of_isAbsent => rw [fallback?, eq_of_isAbsent a h]

/-- What is left open is read as nothing. -/
lemma Codec.readFrom_null {α : Type} (item : Codec α) {pre : List Char} (blanks : IsBlanks pre)
    (rest : List Char) :
    (Codec.optional item).readFrom (pre ++ (['n', 'u', 'l', 'l'] ++ rest)) = .ok (none, rest) := by
  have null : (do Except.ok ((none : Option α), ← word ['u', 'l', 'l'] (['u', 'l', 'l'] ++ rest))) =
      Except.ok (none, rest) := by
    rw [word_append]
    rfl
  rw [readFrom, List.cons_append, dropBlank_append blanks (by decide)]
  exact null

/-- A value that may be missing is read back if it is not written as `null`. -/
lemma Codec.reads_some {α : Type} {item : Codec α} {text : List Char} {a : α}
    (value : Reads item.readFrom text a) (other : text.head? ≠ some 'n') :
    Reads (Codec.optional item).readFrom text (some a) := by
  refine ⟨value.starts, fun pre rest blanks after => ?_⟩
  have read := value.reads [] rest isBlanks_nil after
  obtain ⟨c, cs, rfl, start⟩ := value.starts
  rw [readFrom, List.cons_append, dropBlank_append blanks start.1]
  split
  · rename_i null
    cases null
    exact absurd rfl other
  · rename_i same
    simp only [List.nil_append, List.cons_append] at read
    simp only [read, bind, Except.bind]

/-- A list is read back if its items are. -/
lemma Codec.reads_list {α : Type} {item : Codec α} (layout : Layout) (depth : Nat)
    {texts : List (List Char)} {as : List α} (items : List.Forall₂ (Reads item.readFrom) texts as) :
    Reads (Codec.list item).readFrom (layout.enclose '[' ']' depth texts) as := by
  rw [Layout.enclose_eq]
  refine ⟨(startsValue_cons isStart_sequence (by decide) _ True).1, fun pre rest blanks _ => ?_⟩
  have started (text : List Char) (a : α) (value : Reads item.readFrom text a) :
      text ≠ [] ∧ Reads item.readFrom text a := by
    obtain ⟨c, cs, written, -⟩ := value.starts
    refine ⟨?_, value⟩
    rw [written]
    exact List.cons_ne_nil c cs
  have some : ∀ text ∈ texts, text ≠ [] :=
    ((List.forall₂_and_left _ _).1 (items.imp started)).1
  have enough : texts.length < (layout.body ']' depth texts ++ rest).length + 1 := by
    have fewer := layout.length_lt_body ']' depth some
    rw [List.length_append]
    omega
  have read := readItems_body items layout depth enough rest
  rw [readFrom, List.cons_append, dropBlank_append blanks (by decide)]
  exact congrArg (· >>= fun x => endItems x.2 >>= fun cs => .ok (x.1, cs)) read

/-- Labels are read back. -/
lemma Codec.reads_labels (layout : Layout) (depth : Nat) (l : Labels) :
    Reads Codec.labels.readFrom (Codec.labels.writeAt layout depth l) l := by
  refine ⟨(startsValue_writeAt layout .labels depth l).1, fun pre rest blanks _ => ?_⟩
  have members : ReadsMembers readLabel layout (l.entries.map fun e => (e.1, Quoted.encode e.2))
      Labels.empty l := readsMembers_labels layout rfl
  have texts : l.entries.map (fun e => layout.member e.1 (Quoted.encode e.2)) =
      layout.members (l.entries.map fun e => (e.1, Quoted.encode e.2)) := by
    rw [Layout.members, List.map_map]
    rfl
  rw [writeAt, texts, Layout.enclose_eq, readFrom, List.cons_append,
    dropBlank_append blanks (by decide)]
  exact readMembers_enclose members (depth + 1) rest

/-- A record is read back if the values of all its fields are found. -/
lemma Codec.reads_record {α ρ σ : Type} (name : String) {fields : Fields ρ σ} {split : α → ρ}
    {join : ρ → α} (back : ∀ a, join (split a) = a) {layout : Layout} (depth : Nat) {a : α}
    {found : σ} (members : ReadsMembers fields.readMember layout
      (fields.pairs layout (depth + 1) (split a)) fields.noneFound found)
    (collected : fields.collect found = .ok (split a)) :
    Reads (Codec.record name fields split join back).readFrom
      ((Codec.record name fields split join back).writeAt layout depth a) a := by
  refine ⟨(startsValue_writeAt layout (.record name fields split join back) depth a).1,
    fun pre rest blanks _ => ?_⟩
  have read := readMembers_enclose members (depth + 1) rest
  rw [writeAt, fields.members_eq, Layout.enclose_eq, readFrom, List.cons_append,
    dropBlank_append blanks (by decide)]
  refine (congrArg (· >>= fun x => fields.collect x.1 >>= fun r => .ok (join r, x.2)) read).trans ?_
  simp only [bind, Except.bind, collected, back]

/-! ### The round trip -/

mutual
/-- **What is written is read back**, and reading stops behind it. -/
theorem Codec.reads_writeAt (layout : Layout) : {α : Type} → (c : Codec α) → c.IsClear →
    (depth : Nat) → (a : α) → c.Fits a → Reads c.readFrom (c.writeAt layout depth a) a
  | _, .text expected, _, depth, s, _ =>
    ⟨(Codec.startsValue_writeAt layout _ depth s).1,
      fun _ rest blanks _ => readText_encode blanks expected s rest⟩
  | _, .flag, _, depth, b, _ =>
    ⟨(Codec.startsValue_writeAt layout _ depth b).1,
      fun _ rest blanks _ => readFlag_word blanks b rest⟩
  | _, .number limit expected toNat ofNat back, clear, depth, a, fits => by
    refine ⟨(Codec.startsValue_writeAt layout _ depth a).1, fun pre rest blanks after => ?_⟩
    have read := readNumber_digits blanks fits clear expected after
    rw [Codec.writeAt, Codec.readFrom, read]
    simp only [bind, Except.bind, back]
  | _, .instant, _, depth, t, _ =>
    ⟨(Codec.startsValue_writeAt layout _ depth t).1,
      fun _ rest blanks _ => readInstant_render blanks t rest⟩
  | _, .choice label all label_find, _, depth, a, _ =>
    ⟨(Codec.startsValue_writeAt layout _ depth a).1,
      fun _ rest blanks _ => readChoice_encode label_find blanks a rest⟩
  | _, .optional item, _, depth, none, _ =>
    ⟨(Codec.startsValue_writeAt layout (.optional item) depth none).1,
      fun _ rest blanks _ => item.readFrom_null blanks rest⟩
  | _, .optional item, clear, depth, some a, fits =>
    Codec.reads_some (item.reads_writeAt layout clear.1 depth a (fits a rfl))
      ((Codec.startsValue_writeAt layout item depth a).2 clear.2)
  | _, .list item, clear, depth, as, fits =>
    Codec.reads_list layout (depth + 1) <|
      List.forall₂_map_left_iff.2 <| List.forall₂_same.2 fun a ha =>
        item.reads_writeAt layout clear (depth + 1) a (fits a ha)
  | _, .labels, _, depth, l, _ => Codec.reads_labels layout depth l
  | _, .via inner split join back, clear, depth, a, fits => by
    obtain ⟨starts, reads⟩ := inner.reads_writeAt layout clear depth (split a) fits
    refine ⟨starts, fun pre rest blanks after => ?_⟩
    rw [Codec.writeAt, Codec.readFrom, reads pre rest blanks after]
    simp only [bind, Except.bind, back]
  | _, .record name fields split join back, clear, depth, a, fits => by
    obtain ⟨found, members, collected⟩ :=
      fields.reads_members layout clear (depth + 1) (split a) fits
    exact Codec.reads_record name back depth members collected

/-- The members of a record are read one after the other, and the values of all fields are
found. -/
theorem Fields.reads_members (layout : Layout) : {ρ σ : Type} → (fields : Fields ρ σ) →
    fields.IsClear → (depth : Nat) → (r : ρ) → fields.Fits r →
    ∃ found, ReadsMembers fields.readMember layout (fields.pairs layout depth r)
      fields.noneFound found ∧ fields.collect found = .ok r
  | _, _, .nil, _, _, _, _ => ⟨(), .nil _, rfl⟩
  | _, _, .cons key presence codec rest, clear, depth, (a, r), fits => by
    obtain ⟨fresh, clearValue, clearRest⟩ := clear
    obtain ⟨fitsValue, fitsRest⟩ := fits
    obtain ⟨found, others, collected⟩ := rest.reads_members layout clearRest depth r fitsRest
    have apart : ∀ m ∈ rest.pairs layout depth r, m.1 ≠ key := by
      rintro m hm rfl
      exact fresh (rest.mem_keys_of_mem_pairs layout depth r m hm)
    rw [Fields.pairs]
    by_cases absent : presence.leavesOut a = true
    · rw [if_pos absent]
      refine ⟨(none, found), Fields.readsMembers_cons others none apart, ?_⟩
      rw [Fields.collect, Presence.fallback?_of_leavesOut absent]
      simp [bind, Except.bind, collected]
    · rw [if_neg absent]
      have value := codec.reads_writeAt layout clearValue depth a fitsValue
      have first : ReadsMember (Fields.cons key presence codec rest).readMember layout key
          (codec.writeAt layout depth a) (none, rest.noneFound) (some a, rest.noneFound) := by
        intro text after
        obtain ⟨pre, blanks, colon⟩ := layout.colon_append (codec.writeAt layout depth a ++ text)
        simp only [Fields.readMember, if_true, colon, bind, Except.bind,
          value.reads pre text blanks after]
      refine ⟨(some a, found), .cons first (Fields.readsMembers_cons others (some a) apart), ?_⟩
      rw [Fields.collect]
      simp [bind, Except.bind, collected]
end

/-! ### Whole texts -/

/-- A written value is read back from its text. -/
lemma Codec.read_write {α : Type} {c : Codec α} (clear : c.IsClear) {a : α} (fits : c.Fits a)
    (layout : Layout) : c.read (String.ofList (c.write layout a)) = .ok a := by
  have ends : IsAfterValue [] := by
    intro c h
    cases h
  have value := (c.reads_writeAt layout clear 0 a fits).reads [] [] isBlanks_nil ends
  rw [List.nil_append, List.append_nil] at value
  rw [read, String.toList_ofList, write, value]
  rfl

/-- **A value that fits is read back** from one line. -/
theorem Codec.read_compact {α : Type} {c : Codec α} (clear : c.IsClear) {a : α}
    (fits : c.Fits a) : c.read (c.compact a) = .ok a :=
  read_write clear fits .compact

/-- **A value that fits is read back** from one item a line. -/
theorem Codec.read_pretty {α : Type} {c : Codec α} (clear : c.IsClear) {a : α}
    (fits : c.Fits a) : c.read (c.pretty a) = .ok a :=
  read_write clear fits .pretty

end Json

end SchemaLedger
