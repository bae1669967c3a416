import SchemaLedger.Proofs.Json.Scalar

/-!
Sequences and maps, written and read.

* `Reads`: a text starts like a value, and a reader gets a value from it and stops behind it,
  whatever white space stands in front and whatever may follow a value.
* `readItems_body`: a sequence is read back if each of its items is.
* `ReadsMember`, `readMembers_body`: a map is read if each of its members is read in turn, with
  what was found before.

Both layouts are covered at once: all that matters is that what they add is white space.
-/

namespace SchemaLedger.Json

/-- The first character of a value. -/
def IsStart (c : Char) : Prop :=
  isBlank c = false ∧ c ≠ ',' ∧ c ≠ ']' ∧ c ≠ '}'

/-- A text starts like a value. -/
def StartsValue (cs : List Char) : Prop :=
  ∃ c rest, cs = c :: rest ∧ IsStart c

/-- A reader gets a value from a text and stops behind it. -/
structure Reads {α : Type} (read : List Char → Except Offence (α × List Char)) (text : List Char)
    (a : α) : Prop where
  starts : StartsValue text
  reads : ∀ pre rest, IsBlanks pre → IsAfterValue rest →
    read (pre ++ (text ++ rest)) = .ok (a, rest)

/-- What a layout adds is white space. -/
lemma Layout.isBlanks_lead (layout : Layout) (depth : Nat) : IsBlanks (layout.lead depth) := by
  cases layout with
  | compact => simp [IsBlanks, lead]
  | pretty =>
    intro c hc
    rcases List.mem_cons.1 hc with rfl | hc
    · rfl
    · rw [(List.mem_replicate.1 hc).2]
      rfl

lemma isBlanks_nil : IsBlanks [] := by
  intro c hc
  cases hc

/-- What a layout puts between a key and its value is read as a colon and white space. -/
lemma Layout.colon_append (layout : Layout) (cs : List Char) :
    ∃ pre, IsBlanks pre ∧ Json.colon (layout.colon ++ cs) = .ok (pre ++ cs) := by
  cases layout with
  | compact => exact ⟨[], isBlanks_nil, rfl⟩
  | pretty => exact ⟨[' '], by simp [IsBlanks, isBlank], rfl⟩

/-- The end of a bracket follows a value. -/
lemma Layout.isAfterValue_lead (layout : Layout) (depth : Nat) {closer : Char}
    (h : closer = ']' ∨ closer = '}') (rest : List Char) :
    IsAfterValue (layout.lead depth ++ closer :: rest) := by
  intro c hc
  cases layout with
  | compact =>
    cases hc
    rcases h with rfl | rfl <;> simp
  | pretty =>
    cases hc
    simp

/-- More items, or the end of the bracket, follow a value. -/
lemma Layout.isAfterValue_tail (layout : Layout) (depth d : Nat) {closer : Char}
    (h : closer = ']' ∨ closer = '}') (items : List (List Char)) (rest : List Char) :
    IsAfterValue (layout.tail depth items ++ (layout.lead d ++ closer :: rest)) := by
  cases items with
  | nil => exact layout.isAfterValue_lead d h rest
  | cons item items =>
    intro c hc
    cases hc
    simp

/-! ### Sequences -/

/-- A comma is no blank. -/
lemma dropBlank_comma (cs : List Char) : dropBlank (',' :: cs) = ',' :: cs :=
  rfl

/-- The first item of a sequence. -/
lemma nextItem_first {pre text : List Char} (blanks : IsBlanks pre) (starts : StartsValue text)
    (rest : List Char) : nextItem true (pre ++ (text ++ rest)) = .ok (true, text ++ rest) := by
  obtain ⟨c, text, rfl, blank, -, closer, -⟩ := starts
  rw [List.cons_append, nextItem, dropBlank_append blanks blank]
  split
  · rename_i none
    cases none
  · rename_i ends
    cases ends
    exact absurd rfl closer
  · rename_i item
    cases item
    rfl

/-- A further item of a sequence. -/
lemma nextItem_comma {pre text : List Char} (blanks : IsBlanks pre) (starts : StartsValue text)
    (rest : List Char) :
    nextItem false (',' :: (pre ++ (text ++ rest))) = .ok (true, text ++ rest) := by
  obtain ⟨c, text, rfl, blank, -, closer, -⟩ := starts
  have dropped : dropBlank (pre ++ c :: (text ++ rest)) = c :: (text ++ rest) :=
    dropBlank_append blanks blank
  rw [List.cons_append, nextItem, dropBlank_comma]
  split
  · rename_i none
    cases none
  · rename_i ends
    cases ends
  · rename_i comma
    cases comma
    rw [if_neg Bool.false_ne_true, if_pos rfl, dropped]
    split
    · rename_i none
      cases none
    · rename_i ends
      cases ends
      exact absurd rfl closer
    · rfl

/-- The end of a sequence. -/
lemma nextItem_end {pre : List Char} (blanks : IsBlanks pre) (first : Bool) (rest : List Char) :
    nextItem first (pre ++ ']' :: rest) = .ok (false, ']' :: rest) := by
  rw [nextItem, dropBlank_append blanks (by decide)]
  rfl

variable {α : Type} {read : List Char → Except Offence (α × List Char)}

/-- The items after the first. -/
lemma readItems_tail {texts : List (List Char)} {as : List α}
    (h : List.Forall₂ (Reads read) texts as) (layout : Layout) (depth d : Nat) {fuel : Nat}
    (enough : texts.length < fuel) (rest : List Char) :
    readItems read fuel false (layout.tail depth texts ++ (layout.lead d ++ ']' :: rest)) =
      .ok (as, ']' :: rest) := by
  induction h generalizing fuel with
  | nil =>
    obtain ⟨fuel, rfl⟩ := Nat.exists_eq_succ_of_ne_zero (Nat.ne_of_gt enough)
    have last : nextItem false (layout.tail depth [] ++ (layout.lead d ++ ']' :: rest)) =
        .ok (false, ']' :: rest) := nextItem_end (layout.isBlanks_lead d) false rest
    rw [readItems, last]
    rfl
  | @cons text a texts as first others ih =>
    obtain ⟨fuel, rfl⟩ := Nat.exists_eq_succ_of_ne_zero (Nat.ne_of_gt (Nat.zero_lt_of_lt enough))
    have after := layout.isAfterValue_tail depth d (.inl rfl) texts rest
    have here := nextItem_comma (layout.isBlanks_lead depth) first.starts
      (layout.tail depth texts ++ (layout.lead d ++ ']' :: rest))
    have item := first.reads [] _ isBlanks_nil after
    rw [List.nil_append] at item
    have others := ih (Nat.lt_of_succ_lt_succ enough)
    have shape : layout.tail depth (text :: texts) ++ (layout.lead d ++ ']' :: rest) =
        ',' :: (layout.lead depth ++
          (text ++ (layout.tail depth texts ++ (layout.lead d ++ ']' :: rest)))) := by
      simp [Layout.tail]
    rw [shape, readItems, here]
    simp only [bind, Except.bind, item, others]

/-- What stands between the brackets, and the closing one. -/
def Layout.body (layout : Layout) (closer : Char) (depth : Nat) (items : List (List Char)) :
    List Char :=
  match items with
  | [] => [closer]
  | item :: items =>
    layout.lead depth ++ item ++ layout.tail depth items ++ layout.lead (depth - 1) ++ [closer]

lemma Layout.enclose_eq (layout : Layout) (opener closer : Char) (depth : Nat)
    (items : List (List Char)) :
    layout.enclose opener closer depth items = opener :: layout.body closer depth items := by
  cases items <;> rfl

/-- There are fewer items than characters. -/
lemma Layout.length_lt_body (layout : Layout) (closer : Char) (depth : Nat)
    {items : List (List Char)} (h : ∀ item ∈ items, item ≠ []) :
    items.length < (layout.body closer depth items).length := by
  cases items with
  | nil => simp [body]
  | cons item items =>
    have first : 0 < item.length := List.length_pos_iff.2 (h item (List.mem_cons_self ..))
    have others : items.length ≤ (layout.tail depth items).length := by
      clear h
      induction items with
      | nil => exact Nat.zero_le _
      | cons item items ih =>
        simp only [tail, List.flatMap_cons, List.length_append, List.length_cons] at ih ⊢
        omega
    simp only [body, List.length_append, List.length_cons, List.length_nil]
    omega

/-- **A sequence is read back** if each of its items is. -/
lemma readItems_body {texts : List (List Char)} {as : List α}
    (h : List.Forall₂ (Reads read) texts as) (layout : Layout) (depth : Nat) {fuel : Nat}
    (enough : texts.length < fuel) (rest : List Char) :
    readItems read fuel true (layout.body ']' depth texts ++ rest) = .ok (as, ']' :: rest) := by
  obtain ⟨fuel, rfl⟩ := Nat.exists_eq_succ_of_ne_zero (Nat.ne_of_gt (Nat.zero_lt_of_lt enough))
  cases h with
  | nil => rfl
  | @cons text a texts as first others =>
    have after := layout.isAfterValue_tail depth (depth - 1) (.inl rfl) texts rest
    have here := nextItem_first (layout.isBlanks_lead depth) first.starts
      (layout.tail depth texts ++ (layout.lead (depth - 1) ++ ']' :: rest))
    have item := first.reads [] _ isBlanks_nil after
    rw [List.nil_append] at item
    have others := readItems_tail others layout depth (depth - 1)
      (Nat.lt_of_succ_lt_succ enough) rest
    have shape : layout.body ']' depth (text :: texts) ++ rest = layout.lead depth ++
        (text ++ (layout.tail depth texts ++ (layout.lead (depth - 1) ++ ']' :: rest))) := by
      simp [Layout.body]
    rw [shape, readItems, here]
    simp only [bind, Except.bind, item, others]

/-! ### Maps -/

/-- A member of a map is read, with what was found before. -/
def ReadsMember {σ : Type} (member : String → σ → List Char → Except Offence (σ × List Char))
    (layout : Layout) (key : String) (text : List Char) (before after : σ) : Prop :=
  ∀ rest, IsAfterValue rest →
    member key before (layout.colon ++ (text ++ rest)) = .ok (after, rest)

/-- The members of a map are read one after the other. -/
inductive ReadsMembers {σ : Type}
    (member : String → σ → List Char → Except Offence (σ × List Char)) (layout : Layout) :
    List (String × List Char) → σ → σ → Prop
  | nil (found : σ) : ReadsMembers member layout [] found found
  | cons {key : String} {text : List Char} {members : List (String × List Char)} {s s' s'' : σ}
    (first : ReadsMember member layout key text s s')
    (others : ReadsMembers member layout members s' s'') :
    ReadsMembers member layout ((key, text) :: members) s s''

/-- The texts of the members of a map. -/
def Layout.members (layout : Layout) (members : List (String × List Char)) : List (List Char) :=
  members.map fun m => layout.member m.1 m.2

variable {σ : Type} {member : String → σ → List Char → Except Offence (σ × List Char)}

/-- The first key of a map. -/
lemma nextKey_first {pre : List Char} (blanks : IsBlanks pre) (key : String) (rest : List Char) :
    nextKey true (pre ++ (Quoted.encode key ++ rest)) = .ok (some key, rest) := by
  rw [encode_append, nextKey, dropBlank_append blanks (by decide)]
  exact congrArg (· >>= fun x => .ok (some x.1, x.2)) (Quoted.decode_flatMap_escape key rest)

/-- A further key of a map. -/
lemma nextKey_comma {pre : List Char} (blanks : IsBlanks pre) (key : String) (rest : List Char) :
    nextKey false (',' :: (pre ++ (Quoted.encode key ++ rest))) = .ok (some key, rest) := by
  have dropped : dropBlank (pre ++ Quoted.encode key ++ rest) = Quoted.encode key ++ rest := by
    rw [List.append_assoc, encode_append]
    exact dropBlank_append blanks (by decide)
  rw [nextKey, dropBlank_comma]
  split
  · rename_i none
    cases none
  · rename_i ends
    cases ends
  · rename_i comma
    cases comma
    rw [if_neg Bool.false_ne_true, if_pos rfl, ← List.append_assoc, dropped, encode_append]
    exact congrArg (· >>= fun x => .ok (some x.1, x.2)) (Quoted.decode_flatMap_escape key rest)

/-- The end of a map. -/
lemma nextKey_end {pre : List Char} (blanks : IsBlanks pre) (first : Bool) (rest : List Char) :
    nextKey first (pre ++ '}' :: rest) = .ok (none, rest) := by
  rw [nextKey, dropBlank_append blanks (by decide)]
  rfl

/-- The members after the first. -/
lemma readMembers_tail {layout : Layout} {members : List (String × List Char)} {s s' : σ}
    (h : ReadsMembers member layout members s s') (depth d : Nat) {fuel : Nat}
    (enough : members.length < fuel) (rest : List Char) :
    readMembers member fuel false s
      (layout.tail depth (layout.members members) ++ (layout.lead d ++ '}' :: rest)) =
      .ok (s', rest) := by
  induction h generalizing fuel with
  | nil found =>
    obtain ⟨fuel, rfl⟩ := Nat.exists_eq_succ_of_ne_zero (Nat.ne_of_gt enough)
    have last : nextKey false
        (layout.tail depth (layout.members []) ++ (layout.lead d ++ '}' :: rest)) =
        .ok (none, rest) := nextKey_end (layout.isBlanks_lead d) false rest
    rw [readMembers, last]
    rfl
  | @cons key text members s s' s'' first others ih =>
    obtain ⟨fuel, rfl⟩ := Nat.exists_eq_succ_of_ne_zero (Nat.ne_of_gt (Nat.zero_lt_of_lt enough))
    have value := first _
      (layout.isAfterValue_tail depth d (.inr rfl) (layout.members members) rest)
    have shape : layout.tail depth (layout.members ((key, text) :: members)) ++
        (layout.lead d ++ '}' :: rest) =
        ',' :: (layout.lead depth ++ (Quoted.encode key ++ (layout.colon ++ (text ++
          (layout.tail depth (layout.members members) ++ (layout.lead d ++ '}' :: rest)))))) := by
      simp [Layout.tail, Layout.members, Layout.member]
    rw [shape, readMembers, nextKey_comma (layout.isBlanks_lead depth)]
    simp only [bind, Except.bind, value, ih (Nat.lt_of_succ_lt_succ enough)]

/-- **A map is read back** if each of its members is read in turn. -/
lemma readMembers_body {layout : Layout} {members : List (String × List Char)} {s s' : σ}
    (h : ReadsMembers member layout members s s') (depth : Nat) {fuel : Nat}
    (enough : members.length < fuel) (rest : List Char) :
    readMembers member fuel true s (layout.body '}' depth (layout.members members) ++ rest) =
      .ok (s', rest) := by
  obtain ⟨fuel, rfl⟩ := Nat.exists_eq_succ_of_ne_zero (Nat.ne_of_gt (Nat.zero_lt_of_lt enough))
  cases h with
  | nil => rfl
  | @cons key text members _ s' _ first others =>
    have value := first _
      (layout.isAfterValue_tail depth (depth - 1) (.inr rfl) (layout.members members) rest)
    have shape : layout.body '}' depth (layout.members ((key, text) :: members)) ++ rest =
        layout.lead depth ++ (Quoted.encode key ++ (layout.colon ++ (text ++
          (layout.tail depth (layout.members members) ++
            (layout.lead (depth - 1) ++ '}' :: rest))))) := by
      simp [Layout.body, Layout.members, Layout.member]
    rw [shape, readMembers, nextKey_first (layout.isBlanks_lead depth)]
    simp only [bind, Except.bind, value,
      readMembers_tail others depth (depth - 1) (Nat.lt_of_succ_lt_succ enough) rest]

end SchemaLedger.Json
